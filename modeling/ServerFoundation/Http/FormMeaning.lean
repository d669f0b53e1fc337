import ServerFoundation.Data.PathFamily
import ServerFoundation.Http.FormBody

/-!
# What a form body means

The value that a family of paths stands for, whatever the order in which the paths were
inserted. A value is determined by the family up to the order of members, it holds the
values of every path at the place of that path, and its arrays have no holes.
-/

namespace ServerFoundation.Http

open PathFamily

variable {Value : Type} {family : PathFamily FormPathToken Value} {form : FormValue Value}

/-- The part of a value at a position. -/
@[grind =]
def FormValue.valueAt : FormValue Value → List FormPathToken → Option (FormValue Value)
  | form, [] => some form
  | .object members, .property name :: path =>
      (members.lookup name).bind fun member => member.valueAt path
  | .array items, .index position :: path => items[position]?.bind fun item => item.valueAt path
  | _, _ :: _ => none

/-- The same tree; the members of objects may be in another order. -/
inductive SameForm : FormValue Value → FormValue Value → Prop
  | value (value : Value) : SameForm (.value value) (.value value)
  | array {left right : List (FormValue Value)} (length : left.length = right.length)
      (items : ∀ (position : ℕ) first second, left[position]? = some first →
        right[position]? = some second → SameForm first second) :
      SameForm (.array left) (.array right)
  | object {left right : List (String × FormValue Value)}
      (names : ∀ name, (left.lookup name).isSome = (right.lookup name).isSome)
      (members : ∀ name first second, left.lookup name = some first →
        right.lookup name = some second → SameForm first second) :
      SameForm (.object left) (.object right)

/-- The position that a path names; the end of an array is inserted into the array itself. -/
def place (path : List FormPathToken) : List FormPathToken := path.filter (· ≠ .append)

/-- What stands there: one value, or the array of all. -/
def heldBy (path : List FormPathToken) : List Value → FormValue Value
  | [value] => if .append ∈ path then .array [.value value] else .value value
  | values => .array (values.map .value)

/-- The value of a family of paths. -/
inductive Builds : PathFamily FormPathToken Value → FormValue Value → Prop
  | ended {family : PathFamily FormPathToken Value} (path : List FormPathToken)
      (terminal : path = [] ∨ path = [.append]) (heads : ∀ entry ∈ family, entry.1 = path)
      (nonempty : family ≠ []) : Builds family (heldBy path (family.map Prod.snd))
  | object {family : PathFamily FormPathToken Value} {members : List (String × FormValue Value)}
      (heads : ∀ entry ∈ family, ∃ name rest, entry.1 = .property name :: rest)
      (present : ∀ name, (members.lookup name).isSome ↔ below (.property name) family ≠ [])
      (inner : ∀ name member, members.lookup name = some member →
        Builds (below (.property name) family) member) :
      Builds family (.object members)
  | indexed {family : PathFamily FormPathToken Value} {items : List (FormValue Value)}
      (heads : ∀ entry ∈ family, ∃ position rest, entry.1 = .index position :: rest)
      (nonempty : family ≠ [])
      (present : ∀ position, position < items.length ↔ below (.index position) family ≠ [])
      (inner : ∀ position item, items[position]? = some item →
        Builds (below (.index position) family) item) :
      Builds family (.array items)

/-- Below every index all smaller indices are named. -/
def NoHoles (family : PathFamily FormPathToken Value) : Prop :=
  ∀ path position, (∃ entry ∈ family, path ++ [.index position] <+: entry.1) →
    ∀ earlier < position, ∃ entry ∈ family, path ++ [.index earlier] <+: entry.1

section Places

variable {token : FormPathToken} {path position : List FormPathToken} {values : List Value}

@[simp] theorem FormValue.valueAt_nil (form : FormValue Value) : form.valueAt [] = some form := by
  cases form <;> rfl

@[simp] theorem FormValue.valueAt_value_cons (value : Value) (token : FormPathToken)
    (path : List FormPathToken) : (FormValue.value value).valueAt (token :: path) = none := by
  cases token <;> rfl

theorem place_cons_of_ne (other : token ≠ .append) (path : List FormPathToken) :
    place (token :: path) = token :: place path := by
  simp [place, other]

theorem heldBy_cons_of_ne (other : token ≠ .append) (path : List FormPathToken)
    (values : List Value) : heldBy (token :: path) values = heldBy path values := by
  unfold heldBy
  split <;> simp [Ne.symm other]

theorem heldBy_of_not_single (many : .append ∈ path ∨ values.length ≠ 1) :
    heldBy path values = .array (values.map .value) := by
  unfold heldBy
  split
  · have appended : FormPathToken.append ∈ path := many.resolve_right fun notOne => notOne rfl
    rw [if_pos appended]
    rfl
  · rfl

theorem index_of_valueAt_array {value : Value}
    (found : (FormValue.array (values.map .value)).valueAt position = some (.value value)) :
    ∃ turn, position = [.index turn] ∧ values[turn]? = some value := by
  rcases position with _ | ⟨first, position⟩
  · simp at found
  · rcases first with name | turn | _
    · cases found
    · simp only [FormValue.valueAt, List.getElem?_map, Option.bind_eq_some_iff,
        Option.map_eq_some_iff] at found
      rcases found with ⟨_, ⟨held, atTurn, rfl⟩, rest⟩
      rcases position with _ | ⟨second, position⟩
      · simp only [FormValue.valueAt_nil, Option.some.injEq, FormValue.value.injEq] at rest
        exact ⟨turn, rfl, by rw [atTurn, rest]⟩
      · simp at rest
    · cases found

theorem value_of_valueAt_heldBy {value : Value}
    (found : (heldBy path values).valueAt position = some (.value value)) :
    position = [] ∧ .append ∉ path ∧ values = [value] ∨
      ∃ turn, position = [.index turn] ∧ (.append ∈ path ∨ values.length ≠ 1) ∧
        values[turn]? = some value := by
  by_cases many : .append ∈ path ∨ values.length ≠ 1
  · rw [heldBy_of_not_single many] at found
    rcases index_of_valueAt_array found with ⟨turn, isTurn, atTurn⟩
    exact .inr ⟨turn, isTurn, many, atTurn⟩
  · rw [not_or, not_not, List.length_eq_one_iff] at many
    rcases many with ⟨notAppended, only, rfl⟩
    simp only [heldBy, notAppended, if_false] at found
    rcases position with _ | ⟨first, position⟩
    · simp only [FormValue.valueAt_nil, Option.some.injEq, FormValue.value.injEq] at found
      exact .inl ⟨rfl, notAppended, by rw [found]⟩
    · simp at found

end Places

theorem Builds.valueAt_place (builds : Builds family form) {path : List FormPathToken}
    (named : valuesAt path family ≠ []) :
    form.valueAt (place path) = some (heldBy path (valuesAt path family)) := by
  induction builds generalizing path with
  | ended ending terminal heads nonempty =>
      rcases valuesAt_ne_nil_iff.mp named with ⟨value, member⟩
      have samePath : path = ending := heads _ member
      subst samePath
      rw [valuesAt_of_forall heads]
      rcases terminal with rfl | rfl
      · rfl
      · rfl
  | @object family members heads present inner ih =>
      rcases valuesAt_ne_nil_iff.mp named with ⟨value, member⟩
      rcases heads _ member with ⟨name, rest, shape⟩
      simp only at shape
      subst shape
      have isSome := (present name).mpr (below_ne_nil_iff.mpr ⟨rest, value, member⟩)
      rcases Option.isSome_iff_exists.mp isSome with ⟨child, found⟩
      have notAppend : FormPathToken.property name ≠ .append := FormPathToken.noConfusion
      rw [← valuesAt_below] at named ⊢
      rw [place_cons_of_ne notAppend, heldBy_cons_of_ne notAppend, FormValue.valueAt, found]
      exact ih name child found named
  | @indexed family items heads nonempty present inner ih =>
      rcases valuesAt_ne_nil_iff.mp named with ⟨value, member⟩
      rcases heads _ member with ⟨position, rest, shape⟩
      simp only at shape
      subst shape
      have inRange := (present position).mpr (below_ne_nil_iff.mpr ⟨rest, value, member⟩)
      have notAppend : FormPathToken.index position ≠ .append := FormPathToken.noConfusion
      rw [← valuesAt_below] at named ⊢
      rw [place_cons_of_ne notAppend, heldBy_cons_of_ne notAppend, FormValue.valueAt,
        List.getElem?_eq_getElem inRange]
      exact ih position _ (List.getElem?_eq_getElem inRange) named

theorem Builds.exists_path (builds : Builds family form) {position : List FormPathToken}
    {value : Value} (found : form.valueAt position = some (.value value)) :
    ∃ path,
      position = place path ∧ .append ∉ path ∧ valuesAt path family = [value] ∨
      ∃ turn, position = place path ++ [.index turn] ∧
        (.append ∈ path ∨ (valuesAt path family).length ≠ 1) ∧
        (valuesAt path family)[turn]? = some value := by
  induction builds generalizing position with
  | @ended family ending terminal heads nonempty =>
      refine ⟨ending, ?_⟩
      rw [valuesAt_of_forall heads]
      have emptyPlace : place ending = [] := by
        rcases terminal with rfl | rfl <;> rfl
      rw [emptyPlace]
      exact value_of_valueAt_heldBy found
  | @object family members heads present inner ih =>
      rcases position with _ | ⟨first, position⟩
      · cases found
      · rcases first with name | turn | _
        · simp only [FormValue.valueAt, Option.bind_eq_some_iff] at found
          rcases found with ⟨child, isChild, found⟩
          rcases ih name child isChild found with ⟨path, cases'⟩
          have notAppend : FormPathToken.property name ≠ .append := FormPathToken.noConfusion
          refine ⟨.property name :: path, ?_⟩
          rw [← valuesAt_below, place_cons_of_ne notAppend]
          simpa using cases'
        · cases found
        · cases found
  | @indexed family items heads nonempty present inner ih =>
      rcases position with _ | ⟨first, position⟩
      · cases found
      · rcases first with name | turn | _
        · cases found
        · simp only [FormValue.valueAt, Option.bind_eq_some_iff] at found
          rcases found with ⟨child, isChild, found⟩
          rcases ih turn child isChild found with ⟨path, cases'⟩
          have notAppend : FormPathToken.index turn ≠ .append := FormPathToken.noConfusion
          refine ⟨.index turn :: path, ?_⟩
          rw [← valuesAt_below, place_cons_of_ne notAppend]
          simpa using cases'
        · cases found

section Holes

variable {family : PathFamily FormPathToken Value} {form : FormValue Value}

theorem exists_prefix_below_iff (token : FormPathToken) (path : List FormPathToken) :
    (∃ entry ∈ below token family, path <+: entry.1) ↔
      ∃ entry ∈ family, token :: path <+: entry.1 := by
  constructor
  · rintro ⟨⟨rest, value⟩, member, isPrefix⟩
    exact ⟨_, mem_below_iff.mp member, List.cons_prefix_cons.mpr ⟨rfl, isPrefix⟩⟩
  · rintro ⟨⟨stored, value⟩, member, isPrefix⟩
    rcases stored with _ | ⟨first, rest⟩
    · simp at isPrefix
    · rcases List.cons_prefix_cons.mp isPrefix with ⟨rfl, restPrefix⟩
      exact ⟨_, mem_below_iff.mpr member, restPrefix⟩

theorem NoHoles.below (noHoles : NoHoles family) (token : FormPathToken) :
    NoHoles (below token family) := by
  intro path position named earlier isEarlier
  rw [exists_prefix_below_iff] at named ⊢
  exact noHoles (token :: path) position named earlier isEarlier

theorem below_index_ne_nil_iff (position : ℕ) :
    PathFamily.below (.index position) family ≠ [] ↔
      ∃ entry ∈ family, [FormPathToken.index position] <+: entry.1 := by
  rw [← exists_prefix_below_iff]
  simp [List.eq_nil_iff_forall_not_mem]

theorem Builds.array_at (builds : Builds family form) {path : List FormPathToken} {position : ℕ}
    (named : ∃ entry ∈ family, path ++ [.index position] <+: entry.1) :
    ∃ items, form.valueAt path = some (.array items) ∧
      ∀ index, index < items.length ↔ ∃ entry ∈ family, path ++ [.index index] <+: entry.1 := by
  induction builds generalizing path with
  | ended ending terminal heads nonempty =>
      rcases named with ⟨entry, member, isPrefix⟩
      rw [heads entry member] at isPrefix
      rcases terminal with rfl | rfl
      · simp at isPrefix
      · rcases path with _ | ⟨first, path⟩
        · simp at isPrefix
        · simp at isPrefix
  | @object family members heads present inner ih =>
      rcases named with ⟨⟨stored, value⟩, member, isPrefix⟩
      rcases heads _ member with ⟨name, rest, rfl⟩
      rcases path with _ | ⟨first, path⟩
      · simp at isPrefix
      · rw [List.cons_append, List.cons_prefix_cons] at isPrefix
        rcases isPrefix with ⟨rfl, isPrefix⟩
        have isSome := (present name).mpr (below_ne_nil_iff.mpr ⟨rest, value, member⟩)
        rcases Option.isSome_iff_exists.mp isSome with ⟨child, found⟩
        rcases ih name child found ⟨_, mem_below_iff.mpr member, isPrefix⟩ with
          ⟨items, isArray, indices⟩
        refine ⟨items, by rw [FormValue.valueAt, found]; exact isArray, fun index => ?_⟩
        rw [indices, exists_prefix_below_iff, List.cons_append]
  | @indexed family items heads nonempty present inner ih =>
      rcases named with ⟨⟨stored, value⟩, member, isPrefix⟩
      rcases heads _ member with ⟨first, rest, rfl⟩
      rcases path with _ | ⟨token, path⟩
      · exact ⟨items, rfl, fun index => (present index).trans (below_index_ne_nil_iff index)⟩
      · rw [List.cons_append, List.cons_prefix_cons] at isPrefix
        rcases isPrefix with ⟨rfl, isPrefix⟩
        have inRange := (present first).mpr (below_ne_nil_iff.mpr ⟨rest, value, member⟩)
        have found := List.getElem?_eq_getElem inRange
        rcases ih first _ found ⟨_, mem_below_iff.mpr member, isPrefix⟩ with
          ⟨inner, isArray, indices⟩
        refine ⟨inner, by rw [FormValue.valueAt, found]; exact isArray, fun index => ?_⟩
        rw [indices, exists_prefix_below_iff, List.cons_append]

theorem Builds.noHoles (builds : Builds family form) : NoHoles family := by
  intro path position named earlier isEarlier
  rcases builds.array_at named with ⟨items, -, indices⟩
  have inRange := (indices position).mpr named
  exact (indices earlier).mp (isEarlier.trans inRange)

end Holes

section Agreement

variable {left right : PathFamily FormPathToken Value}

theorem sameForm_refl_heldBy (path : List FormPathToken) (values : List Value) :
    SameForm (heldBy path values) (heldBy path values) := by
  by_cases many : .append ∈ path ∨ values.length ≠ 1
  · rw [heldBy_of_not_single many]
    refine .array rfl fun position first second isFirst isSecond => ?_
    rw [isFirst, Option.some.injEq] at isSecond
    subst isSecond
    simp only [List.getElem?_map, Option.map_eq_some_iff] at isFirst
    rcases isFirst with ⟨value, -, rfl⟩
    exact .value value
  · rw [not_or, not_not, List.length_eq_one_iff] at many
    rcases many with ⟨notAppended, only, rfl⟩
    simp only [heldBy, notAppended, if_false]
    exact .value only

theorem Builds.sameForm {first second : FormValue Value} (leftBuilds : Builds left first)
    (rightBuilds : Builds right second) (agree : Agree left right) : SameForm first second := by
  induction leftBuilds generalizing right second with
  | @ended left path terminal heads nonempty =>
      rcases List.exists_mem_of_ne_nil left nonempty with ⟨entry, member⟩
      have inRight := (agree.mem_iff entry).mp member
      have isPath := heads entry member
      cases rightBuilds with
      | ended otherPath _ otherHeads _ =>
          have samePath : path = otherPath := isPath.symm.trans (otherHeads entry inRight)
          subst samePath
          rw [← valuesAt_of_forall heads, ← valuesAt_of_forall otherHeads, agree path]
          exact sameForm_refl_heldBy _ _
      | object otherHeads _ _ =>
          rcases otherHeads entry inRight with ⟨name, rest, shape⟩
          rcases terminal with rfl | rfl <;> simp [isPath] at shape
      | indexed otherHeads _ _ _ =>
          rcases otherHeads entry inRight with ⟨name, rest, shape⟩
          rcases terminal with rfl | rfl <;> simp [isPath] at shape
  | @object left members heads present inner ih =>
      cases rightBuilds with
      | ended otherPath terminal otherHeads nonempty =>
          rcases List.exists_mem_of_ne_nil right nonempty with ⟨entry, member⟩
          rcases heads entry ((agree.mem_iff entry).mpr member) with ⟨name, rest, shape⟩
          have isPath := otherHeads entry member
          rcases terminal with rfl | rfl <;> simp [isPath] at shape
      | object _ otherPresent otherInner =>
          refine .object (fun name => ?_) fun name first second isFirst isSecond =>
            ih name first isFirst (otherInner name second isSecond) (agree.below _)
          rw [Bool.eq_iff_iff, present, otherPresent]
          exact agree.below_ne_nil_iff _
      | indexed otherHeads nonempty _ _ =>
          rcases List.exists_mem_of_ne_nil right nonempty with ⟨entry, member⟩
          rcases heads entry ((agree.mem_iff entry).mpr member) with ⟨name, rest, shape⟩
          rcases otherHeads entry member with ⟨position, otherRest, otherShape⟩
          simp [shape] at otherShape
  | @indexed left items heads nonempty present inner ih =>
      rcases List.exists_mem_of_ne_nil left nonempty with ⟨entry, member⟩
      have inRight := (agree.mem_iff entry).mp member
      rcases heads entry member with ⟨position, rest, shape⟩
      cases rightBuilds with
      | ended otherPath terminal otherHeads _ =>
          have isPath := otherHeads entry inRight
          rcases terminal with rfl | rfl <;> simp [isPath] at shape
      | object otherHeads _ _ =>
          rcases otherHeads entry inRight with ⟨name, otherRest, otherShape⟩
          simp [shape] at otherShape
      | @indexed _ otherItems _ _ otherPresent otherInner =>
          have sameRange : ∀ index, index < items.length ↔ index < otherItems.length :=
            fun index => by rw [present, otherPresent, agree.below_ne_nil_iff]
          refine .array ?_ fun index first second isFirst isSecond =>
            ih index first isFirst (otherInner index second isSecond) (agree.below _)
          apply Nat.le_antisymm
          · exact Nat.le_of_not_lt fun longer => Nat.lt_irrefl _ ((sameRange _).mp longer)
          · exact Nat.le_of_not_lt fun longer => Nat.lt_irrefl _ ((sameRange _).mpr longer)

end Agreement

end ServerFoundation.Http
