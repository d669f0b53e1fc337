/-!
# Three-valued logic

The connectives over what holds, what fails and what is unknown. A connective has a value as soon
as the known side decides it.
-/

namespace ServerFoundation

/-- The truth values of SQL. -/
inductive Truth
  | holds
  | unknown
  | fails
deriving DecidableEq, Repr

namespace Truth

variable (value : Truth)

/-- The truth value of a test. -/
def ofBool : Bool → Truth
  | true => holds
  | false => fails

/-- `NOT`. -/
def not : Truth → Truth
  | holds => fails
  | unknown => unknown
  | fails => holds

/-- `AND`. -/
def and : Truth → Truth → Truth
  | holds, right => right
  | fails, _ => fails
  | unknown, fails => fails
  | unknown, _ => unknown

/-- `OR`. -/
def or : Truth → Truth → Truth
  | fails, right => right
  | holds, _ => holds
  | unknown, holds => holds
  | unknown, _ => unknown

/-- The conjunction of several values. -/
def all (values : List Truth) : Truth := values.foldr and holds

/-- The disjunction of several values. -/
def any (values : List Truth) : Truth := values.foldr or fails

@[simp]
theorem and_holds : value.and holds = value := by cases value <;> rfl

@[simp]
theorem holds_and : holds.and value = value := rfl

@[simp]
theorem or_fails : value.or fails = value := by cases value <;> rfl

@[simp]
theorem fails_or : fails.or value = value := rfl

theorem and_assoc (first second third : Truth) :
    (first.and second).and third = first.and (second.and third) := by
  cases first <;> cases second <;> cases third <;> rfl

theorem or_assoc (first second third : Truth) :
    (first.or second).or third = first.or (second.or third) := by
  cases first <;> cases second <;> cases third <;> rfl

@[simp]
theorem all_nil : all [] = holds := rfl

@[simp]
theorem all_cons (values : List Truth) :
    all (value :: values) = value.and (all values) := rfl

@[simp]
theorem any_nil : any [] = fails := rfl

@[simp]
theorem any_cons (values : List Truth) :
    any (value :: values) = value.or (any values) := rfl

theorem all_append (left right : List Truth) :
    all (left ++ right) = (all left).and (all right) := by
  induction left with
  | nil => rfl
  | cons value left ih => rw [List.cons_append, all_cons, all_cons, ih, and_assoc]

theorem any_append (left right : List Truth) : any (left ++ right) = (any left).or (any right) := by
  induction left with
  | nil => rfl
  | cons value left ih => rw [List.cons_append, any_cons, any_cons, ih, or_assoc]

end Truth

end ServerFoundation
