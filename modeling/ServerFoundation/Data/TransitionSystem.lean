import Mathlib.Data.List.Basic

/-!
# Transition systems and their runs

A labelled transition system with initial states, the runs that start there and
the induction that turns a step argument into a statement about every run. A
condition on steps is imposed by restricting the system, so that "in every run
whose steps all meet the condition" is reachability in the restricted system.
-/

namespace ServerFoundation

universe u v

/-- States, initial states and labelled steps. -/
structure TransitionSystem (State : Type u) (Label : Type v) where
  Init : State → Prop
  Step : State → Label → State → Prop

namespace TransitionSystem

variable {State : Type u} {Label : Type v} (system : TransitionSystem State Label) {state : State}

/-- A finite run from an initial state, with the labels of its steps in order. -/
inductive Run : List Label → State → Prop where
  | start {state : State} (initial : system.Init state) : Run [] state
  | step {labels : List Label} {label : Label} {before after : State}
      (run : Run labels before) (taken : system.Step before label after) :
      Run (labels ++ [label]) after

/-- A state at the end of some run. -/
def Reachable (state : State) : Prop := ∃ labels, system.Run labels state

/-- The system that only takes the steps allowed in the state before them. -/
def restrict (allowed : State → Label → Prop) : TransitionSystem State Label where
  Init := system.Init
  Step before label after := allowed before label ∧ system.Step before label after

/-- The same steps, from a given state on. -/
def startingAt (state : State) : TransitionSystem State Label where
  Init := (· = state)
  Step := system.Step

variable {system}

theorem Reachable.start (initial : system.Init state) : system.Reachable state :=
  ⟨[], .start initial⟩

theorem Reachable.step {before after : State} {label : Label}
    (reachable : system.Reachable before) (taken : system.Step before label after) :
    system.Reachable after := by
  obtain ⟨labels, run⟩ := reachable
  exact ⟨labels ++ [label], run.step taken⟩

/-- A property of initial states that every step from a reachable state keeps holds in
every reachable state. -/
theorem Reachable.invariant (Invariant : State → Prop)
    (initially : ∀ state, system.Init state → Invariant state)
    (preserved : ∀ before label after, system.Reachable before → Invariant before →
      system.Step before label after → Invariant after) (reachable : system.Reachable state) :
    Invariant state := by
  obtain ⟨labels, run⟩ := reachable
  induction run with
  | start initial => exact initially _ initial
  | step run taken ih => exact preserved _ _ _ ⟨_, run⟩ ih taken

theorem Run.of_restrict {allowed : State → Label → Prop} {labels : List Label}
    (run : (system.restrict allowed).Run labels state) : system.Run labels state := by
  induction run with
  | start initial => exact .start initial
  | step _ taken ih => exact ih.step taken.2

theorem Reachable.of_restrict {allowed : State → Label → Prop}
    (reachable : (system.restrict allowed).Reachable state) : system.Reachable state := by
  obtain ⟨labels, run⟩ := reachable
  exact ⟨labels, run.of_restrict⟩

section Following

variable (step : State → Label → State) (guard : State → Label → Prop) {labels : List Label}

/-- Every label of a list is allowed where a step function takes it. -/
def Follows : State → List Label → Prop
  | _, [] => True
  | state, label :: rest => guard state label ∧ Follows (step state label) rest

instance Follows.decidable [DecidableRel guard] : DecidableRel (Follows step guard)
  | _, [] => isTrue trivial
  | state, label :: rest =>
      have := Follows.decidable (step state label) rest
      inferInstanceAs (Decidable (guard state label ∧ Follows step guard (step state label) rest))

theorem Run.follow {state : State} {earlier : List Label} (run : system.Run earlier state)
    (sound : ∀ before label, guard before label → system.Step before label (step before label))
    (follows : Follows step guard state labels) :
    system.Run (earlier ++ labels) (labels.foldl step state) := by
  induction labels generalizing earlier state with
  | nil =>
      rw [List.append_nil]
      exact run
  | cons label rest ih =>
      rcases follows with ⟨permitted, followsRest⟩
      have continued := ih (run.step (sound state label permitted)) followsRest
      rw [List.append_assoc] at continued
      exact continued

theorem Reachable.follow {state : State} (reachable : system.Reachable state)
    (sound : ∀ before label, guard before label → system.Step before label (step before label))
    (follows : Follows step guard state labels) : system.Reachable (labels.foldl step state) := by
  obtain ⟨earlier, run⟩ := reachable
  exact ⟨earlier ++ labels, run.follow step guard sound follows⟩

theorem Reachable.followM {attempt : State → Label → Option State} {state after : State}
    (reachable : system.Reachable state)
    (sound : ∀ before label after, attempt before label = some after →
      system.Step before label after) (finished : labels.foldlM attempt state = some after) :
    system.Reachable after := by
  induction labels generalizing state with
  | nil =>
      cases finished
      exact reachable
  | cons label rest ih =>
      rw [List.foldlM_cons] at finished
      rcases Option.bind_eq_some_iff.mp finished with ⟨between, taken, finishedRest⟩
      exact ih (reachable.step (sound _ _ _ taken)) finishedRest

end Following

section Histories

variable {Fact : Type u} (because : List Fact → Fact → Prop)

/-- Every fact of a history, the newest one first, is justified by the facts before it. -/
def Justified : List Fact → Prop
  | [] => True
  | fact :: earlier => because earlier fact ∧ Justified earlier

instance Justified.decidable [DecidableRel because] : DecidablePred (Justified because)
  | [] => isTrue trivial
  | fact :: earlier =>
      have := Justified.decidable earlier
      inferInstanceAs (Decidable (because earlier fact ∧ Justified because earlier))

end Histories

end TransitionSystem

theorem foldl_invariant {Item : Type u} {State : Type v} (body : State → Item → State)
    (Invariant : State → Prop)
    (turn : ∀ item state, Invariant state → Invariant (body state item))
    (items : List Item) {state : State} (initially : Invariant state) :
    Invariant (items.foldl body state) := by
  induction items generalizing state with
  | nil => exact initially
  | cons item rest ih => exact ih (turn item state initially)

/-- A loop over a list that may throw: what holds of the items to come and the state is kept by
every turn, and so holds at the end. -/
theorem foldlM_invariant {Item : Type u} {State : Type v} {body : State → Item → Option State}
    (Invariant : List Item → State → Prop)
    (turn : ∀ item rest before after, Invariant (item :: rest) before →
      body before item = some after → Invariant rest after)
    {items : List Item} {before after : State} (initially : Invariant items before)
    (finished : items.foldlM body before = some after) : Invariant [] after := by
  induction items generalizing before with
  | nil =>
      cases finished
      exact initially
  | cons item rest ih =>
      rw [List.foldlM_cons] at finished
      obtain ⟨between, taken, finishedRest⟩ := Option.bind_eq_some_iff.mp finished
      exact ih (turn item rest before between initially taken) finishedRest

section Turns

variable {Item : Type u} {State : Type v} (body : State → Item → Option State)
  (meets : State → Item → Prop)

/-- Every turn of a loop that may throw meets a condition. -/
def EachTurn : List Item → State → Prop
  | [], _ => True
  | item :: rest, state => meets state item ∧ ∀ next ∈ body state item, EachTurn rest next

instance EachTurn.decidable [DecidableRel meets] : DecidableRel (EachTurn body meets)
  | [], _ => isTrue trivial
  | item :: rest, state =>
      have : DecidablePred (EachTurn body meets rest) := EachTurn.decidable rest
      inferInstanceAs (Decidable (meets state item ∧
        ∀ next ∈ body state item, EachTurn body meets rest next))

end Turns

end ServerFoundation
