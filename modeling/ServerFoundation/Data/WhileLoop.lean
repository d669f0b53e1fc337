import Mathlib.Logic.Relation
import Mathlib.Tactic.Common

/-!
# While loops

A loop whose rounds are counted, what its rounds preserve, and the simulation of one loop by
another that may take several rounds for one.
-/

namespace ServerFoundation

universe u v

/-- `while (continues(state)) state = body(state)`. -/
structure WhileLoop (State : Type u) where
  continues : State → Bool
  body : State → State

namespace WhileLoop

variable {State : Type u} {Other : Type v} (loop : WhileLoop State)

/-- The state that the loop ends in, if it ends within so many rounds. -/
def run : ℕ → State → Option State
  | 0, state => if loop.continues state then none else some state
  | rounds + 1, state =>
      if loop.continues state then run rounds (loop.body state) else some state

/-- A round of the loop. -/
def Round (before after : State) : Prop := loop.continues before = true ∧ loop.body before = after

/-- Any number of rounds. -/
def Rounds : State → State → Prop := Relation.ReflTransGen loop.Round

variable {loop} {other : WhileLoop Other} {state result : State} {rounds : ℕ}

theorem rounds_of_run (ends : loop.run rounds state = some result) :
    loop.Rounds state result ∧ loop.continues result = false := by
  induction rounds generalizing state with
  | zero =>
      unfold run at ends
      split_ifs at ends with goesOn
      cases ends
      exact ⟨.refl, by simpa using goesOn⟩
  | succ rounds ih =>
      unfold run at ends
      split_ifs at ends with goesOn
      · rcases ih ends with ⟨rest, ended⟩
        exact ⟨.head ⟨goesOn, rfl⟩ rest, ended⟩
      · cases ends
        exact ⟨.refl, by simpa using goesOn⟩

theorem exists_run (remaining : State → ℕ)
    (decreases : ∀ state, loop.continues state = true →
      remaining (loop.body state) < remaining state)
    (enough : remaining state ≤ rounds) : ∃ result, loop.run rounds state = some result := by
  induction rounds generalizing state with
  | zero =>
      have ended : loop.continues state = false := by
        by_contra goesOn
        have less := decreases state (by simpa using goesOn)
        omega
      exact ⟨state, by simp [run, ended]⟩
  | succ rounds ih =>
      cases goesOn : loop.continues state with
      | false => exact ⟨state, by simp [run, goesOn]⟩
      | true =>
          have less := decreases state goesOn
          have enoughLeft : remaining (loop.body state) ≤ rounds := by omega
          rcases ih enoughLeft with ⟨result, ends⟩
          exact ⟨result, by simp [run, goesOn, ends]⟩

theorem Rounds.invariant {Invariant : State → Prop} (ran : loop.Rounds state result)
    (holds : Invariant state) (preserved : ∀ state, loop.continues state = true →
      Invariant state → Invariant (loop.body state)) : Invariant result := by
  induction ran with
  | refl => exact holds
  | tail _ round ih =>
      rcases round with ⟨goesOn, rfl⟩
      exact preserved _ goesOn ih

theorem Rounds.unique {first : State} (ran : loop.Rounds state first)
    (ended : loop.continues first = false) (also : loop.Rounds state result)
    (endedToo : loop.continues result = false) : first = result := by
  induction ran using Relation.ReflTransGen.head_induction_on with
  | refl =>
      rcases also.cases_head with same | ⟨_, ⟨goesOn, _⟩, _⟩
      · exact same
      · rw [ended] at goesOn
        cases goesOn
  | head round _ ih =>
      rcases also.cases_head with same | ⟨_, ⟨_, next⟩, rest⟩
      · rw [same] at round
        exact absurd (endedToo.symm.trans round.1) Bool.false_ne_true
      · rw [← round.2, next] at ih
        exact ih rest

theorem Rounds.simulates {Related : State → Other → Prop}
    (follows : ∀ state partner, Related state partner → loop.continues state = true →
      ∃ next, other.Rounds partner next ∧ Related (loop.body state) next)
    (ran : loop.Rounds state result) {partner : Other} (related : Related state partner) :
    ∃ next, other.Rounds partner next ∧ Related result next := by
  induction ran with
  | refl => exact ⟨partner, .refl, related⟩
  | tail _ round ih =>
      rcases ih with ⟨reached, ranOther, relatedToo⟩
      rcases round with ⟨goesOn, rfl⟩
      rcases follows _ reached relatedToo goesOn with ⟨next, more, relatedNext⟩
      exact ⟨next, ranOther.trans more, relatedNext⟩

end WhileLoop

end ServerFoundation
