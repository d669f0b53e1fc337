import Mathlib.Data.List.Forall2

/-!
# Computations that fail together

Two computations related by `Option.Rel` either both fail or both have results, and
the results are related. The relation passes through sequencing and through
traversals of a list.
-/

namespace ServerFoundation

universe u v w x

variable {Left : Type u} {Right : Type v} {LeftResult : Type w} {RightResult : Type x}
  {related : Left → Right → Prop} {results : LeftResult → RightResult → Prop}
  {leftNext : Left → Option LeftResult} {left : Option Left} {right : Option Right} {Item : Type u}
  {items : List Item}

theorem optionRel_bind {rightNext : Right → Option RightResult}
    (first : Option.Rel related left right)
    (next : ∀ leftValue rightValue, related leftValue rightValue →
      Option.Rel results (leftNext leftValue) (rightNext rightValue)) :
    Option.Rel results (left.bind leftNext) (right.bind rightNext) := by
  cases first with
  | none => exact .none
  | some values => exact next _ _ values

theorem optionRel_map {rightNext : Right → RightResult} (first : Option.Rel related left right)
    (next : ∀ leftValue rightValue, related leftValue rightValue →
      Option.Rel results (leftNext leftValue) (some (rightNext rightValue))) :
    Option.Rel results (left.bind leftNext) (right.map rightNext) := by
  cases first with
  | none => exact .none
  | some values => exact next _ _ values

theorem optionRel_bind_some {right : Right} {target : Option RightResult}
    (first : Option.Rel related left (some right))
    (next : ∀ leftValue, related leftValue right → Option.Rel results (leftNext leftValue) target) :
    Option.Rel results (left.bind leftNext) target := by
  cases first with
  | some values => exact next _ values

theorem optionRel_join {first second : Option Left} {common : Option Right}
    (left : Option.Rel related first common) (right : Option.Rel related second common) :
    Option.Rel (fun one other => ∃ value, related one value ∧ related other value)
      first second := by
  cases left with
  | none =>
      cases right
      exact .none
  | some leftValues =>
      cases right with
      | some rightValues => exact .some ⟨_, leftValues, rightValues⟩

theorem optionRel_mapM {left : Item → Option LeftResult} {right : Item → Option RightResult}
    (each : ∀ item ∈ items, Option.Rel results (left item) (right item)) :
    Option.Rel (List.Forall₂ results) (items.mapM left) (items.mapM right) := by
  induction items with
  | nil => exact .some .nil
  | cons item rest ih =>
      rw [List.mapM_cons, List.mapM_cons]
      refine optionRel_bind (each item (by simp)) fun leftValue rightValue values => ?_
      refine optionRel_bind (ih fun found member => each found (List.mem_cons_of_mem _ member))
        fun leftRest rightRest others => ?_
      exact .some (.cons values others)

theorem optionRel_mapM_some {left : Item → Option LeftResult} {right : Item → RightResult}
    (each : ∀ item ∈ items, Option.Rel results (left item) (some (right item))) :
    Option.Rel (List.Forall₂ results) (items.mapM left) (some (items.map right)) := by
  have total : items.mapM (fun item => some (right item)) = some (items.map right) :=
    List.mapM_pure
  rw [← total]
  exact optionRel_mapM each

theorem forall₂_of_mapM {Result : Type v} {results : List Result} {convert : Item → Option Result}
    (made : items.mapM convert = some results) :
    List.Forall₂ (fun item result => convert item = some result) items results := by
  induction items generalizing results with
  | nil =>
      cases made
      exact .nil
  | cons item rest ih =>
      rw [List.mapM_cons] at made
      rcases Option.bind_eq_some_iff.mp made with ⟨first, converted, onwards⟩
      rcases Option.bind_eq_some_iff.mp onwards with ⟨others, convertedRest, joined⟩
      cases joined
      exact .cons converted (ih convertedRest)

end ServerFoundation
