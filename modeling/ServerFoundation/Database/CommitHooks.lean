import Mathlib.Data.Nat.Notation
import Mathlib.Order.Lattice

/-!
# Commit hooks

`CommitHookQueue` holds the callbacks that run before a commit, or after it, in
ascending order of their weights. Callbacks of equal weight run in the order of their
registration. A queue runs once. While it runs, a callback may be registered at the
current weight or above, and a savepoint rollback may replace the registered callbacks,
but a callback that has run does not run again.
-/

namespace ServerFoundation.Database

/-- `CommitHook`, with the registration that made it. -/
structure CommitHook (Weight : Type) where
  registration : ℕ
  weight : Weight
deriving DecidableEq, Repr

/-- What has become of a hook. -/
inductive HookState where
  | pending
  | running
  | finished
deriving DecidableEq, Repr

/-- `CommitHookQueue`, with the set of executed hooks that `run` keeps. -/
structure CommitHookQueue (Weight : Type) where
  hooks : List (CommitHook Weight)
  state : HookState
  currentWeight : Option Weight
  executed : List ℕ
  registrations : ℕ
deriving DecidableEq, Repr

namespace CommitHookQueue

variable {Weight : Type}

/-- A queue that nothing has been registered with. -/
def new : CommitHookQueue Weight := ⟨[], .pending, none, [], 0⟩

variable (queue : CommitHookQueue Weight)

/-- `checkpoint`. -/
def checkpoint : List (CommitHook Weight) := queue.hooks

/-- `restore`. -/
def restore (hooks : List (CommitHook Weight)) : CommitHookQueue Weight := { queue with hooks }

/-- The queue while a hook runs. -/
def start (hook : CommitHook Weight) : CommitHookQueue Weight :=
  { queue with
    currentWeight := some hook.weight
    executed := hook.registration :: queue.executed }

variable [LinearOrder Weight]

/-- A weight below the one that is running. -/
def below (weight : Weight) : Bool :=
  match queue.currentWeight with
  | some current => weight < current
  | none => false

/-- `add`, which throws once the queue has finished and below the current weight. -/
def add (weight : Weight) : Option (CommitHookQueue Weight) :=
  if queue.state = .finished then none
  else if queue.below weight then none
  else some { queue with
    hooks := queue.hooks ++ [⟨queue.registrations, weight⟩]
    registrations := queue.registrations + 1 }

/-- One turn of the loop of `next`. -/
def lighter (executed : List ℕ) (next : Option (CommitHook Weight)) (hook : CommitHook Weight) :
    Option (CommitHook Weight) :=
  if hook.registration ∈ executed then next
  else match next with
    | none => some hook
    | some chosen => if hook.weight < chosen.weight then some hook else some chosen

/-- `next`. -/
def next : Option (CommitHook Weight) :=
  queue.hooks.foldl (lighter queue.executed) none

/-- `run` settles the session before it goes on to a higher weight. -/
def settlesBefore (hook : CommitHook Weight) : Bool :=
  match queue.currentWeight with
  | some current => current < hook.weight
  | none => false

end CommitHookQueue

end ServerFoundation.Database
