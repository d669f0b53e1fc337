import Mathlib.Algebra.GroupWithZero.Nat
import Mathlib.Data.Int.Notation
import Mathlib.Tactic.Common

/-!
# The Gregorian calendar

Days are counted from 1 January 1970. The year of a day is the last one that starts no later, and
its month is found by passing over the months of that year.
-/

namespace ServerFoundation.Calendar

/-- The first day of a year. -/
def dayFromYear (year : ℤ) : ℤ :=
  365 * (year - 1970) + (year - 1969) / 4 - (year - 1901) / 100 + (year - 1601) / 400

/-- A leap year of the Gregorian calendar. -/
def isLeapYear (year : ℤ) : Bool := year % 4 = 0 ∧ (year % 100 ≠ 0 ∨ year % 400 = 0)

theorem dayFromYear_succ (year : ℤ) :
    dayFromYear (year + 1) = dayFromYear year + if isLeapYear year then 366 else 365 := by
  unfold dayFromYear isLeapYear
  simp only [ne_eq, Bool.decide_and, Bool.decide_or, decide_not, Bool.and_eq_true,
    decide_eq_true_eq, Bool.or_eq_true, Bool.not_eq_eq_eq_not, Bool.not_true,
    decide_eq_false_iff_not]
  split_ifs <;> omega

/-- The guess from the mean length of a year is off by one at most. -/
def yearFromDay (day : ℤ) : ℤ :=
  let guess := 1970 + 400 * day / 146097
  if dayFromYear (guess + 1) ≤ day then guess + 1
  else if day < dayFromYear guess then guess - 1
  else guess

theorem yearFromDay_spec (day : ℤ) :
    dayFromYear (yearFromDay day) ≤ day ∧ day < dayFromYear (yearFromDay day + 1) := by
  unfold yearFromDay
  simp only
  split_ifs with next previous
  · refine ⟨next, ?_⟩
    unfold dayFromYear
    omega
  · rw [Int.sub_add_cancel]
    refine ⟨?_, previous⟩
    unfold dayFromYear
    omega
  · exact ⟨Int.not_lt.mp previous, Int.not_le.mp next⟩

/-- The lengths of the months of a year. -/
def monthLengths (leap : Bool) : List ℕ :=
  [31, if leap then 29 else 28, 31, 30, 31, 30, 31, 31, 30, 31, 30, 31]

/-- The month and the day of the month, from a day that is counted from the start of a month. -/
def monthAndDay (month : ℕ) : List ℕ → ℕ → ℕ × ℕ
  | [], day => (month, day + 1)
  | length :: lengths, day =>
      if day < length then (month, day + 1) else monthAndDay (month + 1) lengths (day - length)

/-- A day as year, month and day of the month. -/
structure CivilDate where
  year : ℤ
  month : ℕ
  day : ℕ
deriving DecidableEq, Repr

/-- The date of a day, counted from the epoch. -/
def civilDate (day : ℤ) : CivilDate :=
  let year := yearFromDay day
  let found := monthAndDay 1 (monthLengths (isLeapYear year)) (day - dayFromYear year).toNat
  { year, month := found.1, day := found.2 }

/-- The weekday of a day, counted from Sunday. -/
def weekday (day : ℤ) : ℕ := ((day + 4) % 7).toNat

theorem day_monthAndDay {lengths : List ℕ} {month day bound : ℕ} (inside : day < lengths.sum)
    (short : ∀ length ∈ lengths, length ≤ bound) :
    1 ≤ (monthAndDay month lengths day).2 ∧ (monthAndDay month lengths day).2 ≤ bound := by
  induction lengths generalizing month day with
  | nil => exact absurd inside (by simp)
  | cons length lengths ih =>
      rw [List.sum_cons] at inside
      rw [monthAndDay]
      split_ifs with isHere
      · have isShort := short length List.mem_cons_self
        exact ⟨by simp, by simp only; omega⟩
      · exact ih (by omega) fun other member => short other (List.mem_cons_of_mem _ member)

theorem day_civilDate (day : ℤ) : 1 ≤ (civilDate day).day ∧ (civilDate day).day ≤ 31 := by
  have within := yearFromDay_spec day
  rw [dayFromYear_succ] at within
  refine day_monthAndDay ?_ ?_
  · cases leap : isLeapYear (yearFromDay day) <;> simp [monthLengths, leap] at within ⊢ <;> omega
  · cases isLeapYear (yearFromDay day) <;> decide

theorem weekday_lt (day : ℤ) : weekday day < 7 := by
  unfold weekday
  omega

/-- A leap day, which was a Thursday. -/
example : civilDate 19782 = ⟨2024, 2, 29⟩ ∧ weekday 19782 = 4 := by decide

end ServerFoundation.Calendar
