import Mathlib.Data.List.Perm.Basic

/-!
# Values along paths

A family lists values with their paths, and two values may have the same path. What lies
below a step is a family again. Two families agree when every path has the same values in
the same order, whatever the order across paths.
-/

namespace ServerFoundation

universe u v

/-- Values with their paths. -/
abbrev PathFamily (Step : Type u) (Value : Type v) := List (List Step × Value)

namespace PathFamily

variable {Step : Type u} {Value : Type v} [DecidableEq Step] {family : PathFamily Step Value}
  {step : Step} {path : List Step}

/-- The entries whose path starts with the step, with the remaining paths. -/
def below (step : Step) (family : PathFamily Step Value) : PathFamily Step Value :=
  family.filterMap fun entry =>
    match entry.1 with
    | [] => none
    | first :: rest => if first = step then some (rest, entry.2) else none

/-- The values of one path, in order. -/
def valuesAt (path : List Step) (family : PathFamily Step Value) : List Value :=
  (family.filter fun entry => entry.1 = path).map Prod.snd

theorem mem_below_iff {rest : List Step} {value : Value} :
    (rest, value) ∈ below step family ↔ (step :: rest, value) ∈ family := by
  simp only [below, List.mem_filterMap]
  constructor
  · rintro ⟨⟨path, stored⟩, member, found⟩
    cases path with
    | nil => cases found
    | cons first path =>
        by_cases same : first = step
        · simp only [same, if_true, Option.some.injEq, Prod.mk.injEq] at found
          rw [← found.1, ← found.2, ← same]
          exact member
        · simp only [same, if_false, reduceCtorEq] at found
  · intro member
    exact ⟨_, member, by simp⟩

theorem mem_valuesAt_iff {value : Value} :
    value ∈ valuesAt path family ↔ (path, value) ∈ family := by
  simp only [valuesAt, List.mem_map, List.mem_filter, decide_eq_true_eq]
  constructor
  · rintro ⟨⟨stored, held⟩, ⟨member, rfl⟩, rfl⟩
    exact member
  · intro member
    exact ⟨_, ⟨member, rfl⟩, rfl⟩

theorem valuesAt_ne_nil_iff : valuesAt path family ≠ [] ↔ ∃ value, (path, value) ∈ family := by
  simp only [List.ne_nil_iff_exists_cons, ← mem_valuesAt_iff]
  constructor
  · rintro ⟨first, rest, values⟩
    exact ⟨first, by simp [values]⟩
  · rintro ⟨value, member⟩
    exact List.exists_cons_of_ne_nil (List.ne_nil_of_mem member)

theorem valuesAt_below (step : Step) (rest : List Step) (family : PathFamily Step Value) :
    valuesAt rest (below step family) = valuesAt (step :: rest) family := by
  induction family with
  | nil => rfl
  | cons entry family ih =>
      simp only [valuesAt, below] at ih ⊢
      rcases entry with ⟨_ | ⟨first, path⟩, value⟩
      · simpa using ih
      · by_cases same : first = step <;> by_cases samePath : path = rest <;>
          simp_all

theorem valuesAt_of_forall (all : ∀ entry ∈ family, entry.1 = path) :
    valuesAt path family = family.map Prod.snd := by
  rw [valuesAt, List.filter_eq_self.mpr fun entry member => decide_eq_true (all entry member)]

theorem below_append (step : Step) (first second : PathFamily Step Value) :
    below step (first ++ second) = below step first ++ below step second :=
  List.filterMap_append

theorem below_singleton_self (step : Step) (rest : List Step) (value : Value) :
    below step [(step :: rest, value)] = [(rest, value)] := by
  simp [below]

theorem below_singleton_of_ne {first : Step} (other : first ≠ step) (rest : List Step)
    (value : Value) : below step [(first :: rest, value)] = [] := by
  simp [below, other]

theorem below_ne_nil_iff :
    below step family ≠ [] ↔ ∃ rest value, (step :: rest, value) ∈ family := by
  simp only [← mem_below_iff]
  constructor
  · intro nonempty
    rcases List.exists_mem_of_ne_nil _ nonempty with ⟨⟨rest, value⟩, member⟩
    exact ⟨rest, value, member⟩
  · rintro ⟨rest, value, member⟩
    exact List.ne_nil_of_mem member

/-- Every path has the same values in the same order. -/
def Agree (left right : PathFamily Step Value) : Prop :=
  ∀ path, valuesAt path left = valuesAt path right

namespace Agree

variable {left right : PathFamily Step Value}

theorem below (agree : Agree left right) (step : Step) :
    Agree (below step left) (PathFamily.below step right) := fun rest => by
  rw [valuesAt_below, valuesAt_below]
  exact agree (step :: rest)

theorem mem_iff (agree : Agree left right) (entry : List Step × Value) :
    entry ∈ left ↔ entry ∈ right := by
  rcases entry with ⟨path, value⟩
  rw [← mem_valuesAt_iff, ← mem_valuesAt_iff, agree path]

theorem below_ne_nil_iff (agree : Agree left right) (step : Step) :
    PathFamily.below step left ≠ [] ↔ PathFamily.below step right ≠ [] := by
  simp only [PathFamily.below_ne_nil_iff, agree.mem_iff]

end Agree

end PathFamily

end ServerFoundation
