import Mathlib.Tactic.Common

/-!
# Successful results

When a computation that may fail is continued, the whole succeeds exactly when each part
does.
-/

namespace ServerFoundation

universe u v

variable {Failure : Type u} {Value Result : Type v} {outcome : Except Failure Value}
  {change : Value → Result}

@[simp] theorem bind_eq_ok_iff {next : Value → Except Failure Result} {result : Result} :
    (outcome >>= next) = .ok result ↔ ∃ value, outcome = .ok value ∧ next value = .ok result := by
  cases outcome <;> simp [bind, Except.bind]

@[simp] theorem map_eq_ok_iff {result : Result} :
    outcome.map change = .ok result ↔ ∃ value, outcome = .ok value ∧ change value = result := by
  cases outcome <;> simp [Except.map]

theorem exists_map_eq_ok_iff :
    (∃ result, outcome.map change = .ok result) ↔ ∃ value, outcome = .ok value := by
  cases outcome <;> simp [Except.map]

/-- The outcome is a failure under a condition, and otherwise a value with a property. -/
structure FailsOn (outcome : Except Failure Value) (bad : Prop) (good : Value → Prop) : Prop where
  fails : bad → ∃ failure, outcome = .error failure
  succeeds : ¬bad → ∃ value, outcome = .ok value ∧ good value

namespace FailsOn

variable {outcome : Except Failure Value} {bad badNext : Prop} {good : Value → Prop}
  {goodNext : Result → Prop}

theorem pure {value : Value} (isGood : good value) :
    FailsOn (Pure.pure value : Except Failure Value) False good :=
  ⟨False.elim, fun _ => ⟨value, rfl, isGood⟩⟩

theorem bind {next : Value → Except Failure Result} (first : FailsOn outcome bad good)
    (rest : ∀ value, good value → FailsOn (next value) badNext goodNext) :
    FailsOn (outcome >>= next) (bad ∨ badNext) goodNext := by
  by_cases isBad : bad
  · rcases first.fails isBad with ⟨failure, rfl⟩
    exact ⟨fun _ => ⟨failure, rfl⟩, fun none => absurd (.inl isBad) none⟩
  · rcases first.succeeds isBad with ⟨value, rfl, isGood⟩
    have after := rest value isGood
    refine ⟨fun either => after.fails (either.resolve_left isBad), fun none => ?_⟩
    exact after.succeeds fun isBadNext => none (.inr isBadNext)

theorem congr (outcomes : FailsOn outcome bad good) (same : badNext ↔ bad) :
    FailsOn outcome badNext good :=
  ⟨fun isBad => outcomes.fails (same.mp isBad),
    fun notBad => outcomes.succeeds fun isBad => notBad (same.mpr isBad)⟩

end FailsOn

end ServerFoundation
