import ServerFoundation.Data.OrderedMap
import ServerFoundation.Data.TransitionSystem
import ServerFoundation.Database.CommitHooks

/-!
# Runs of commit hooks

`CommitHookQueue.run` between the points at which it waits, with the calls that other code makes
in the meantime: registrations, savepoints and rollbacks. Every call takes effect at one moment,
and no callback throws. A rollback only takes hooks away, since a savepoint that is still live
keeps a part of what is registered now; this is what keeps the weights in order.
-/

namespace ServerFoundation.Database

/-- What `run` waits for. -/
inductive HookWait where
  | settle
  | callback
deriving DecidableEq

/-- What happens to the hooks of a queue. -/
inductive HookEvent (Weight : Type) where
  | added (hook : CommitHook Weight)
  | removed (hook : CommitHook Weight)
  | executed (hook : CommitHook Weight)
  | settled

/-- A queue, the settle step of its run, what the run waits for, and what has happened so far. -/
structure HookRun (Weight : Type) where
  queue : CommitHookQueue Weight
  settles : Bool
  waitsFor : Option HookWait
  events : List (HookEvent Weight)

namespace HookRun

variable {Weight : Type}

/-- A run that has not begun. -/
def new (settles : Bool) : HookRun Weight := ⟨.new, settles, none, []⟩

variable (run : HookRun Weight)

/-- A rollback to a savepoint with these hooks. -/
def restore (hooks : List (CommitHook Weight)) : HookRun Weight :=
  { run with
    queue := run.queue.restore hooks
    events := run.events ++ (run.queue.hooks.filter fun hook =>
      hook.registration ∉ hooks.map CommitHook.registration).map .removed }

variable [LinearOrder Weight]

/-- A hook is registered while the run goes on. -/
def add (weight : Weight) : Option (HookRun Weight) :=
  (run.queue.add weight).map fun queue =>
    { run with
      queue
      events := run.events ++ [.added ⟨run.queue.registrations, weight⟩] }

/-- The end of a turn: the next hook starts, or the run has finished. -/
def proceed : HookRun Weight :=
  match run.queue.next with
  | none => { run with queue := { run.queue with state := .finished }, waitsFor := none }
  | some hook =>
      { run with
        queue := run.queue.start hook
        waitsFor := some .callback
        events := run.events ++ [.executed hook] }

/-- The next hook is heavier, or there is none. -/
def endsWeight : Bool :=
  match run.queue.next with
  | none => true
  | some hook => run.queue.settlesBefore hook

/-- One turn of the loop of `run`, up to where it waits. -/
def turn : HookRun Weight :=
  if run.settles ∧ run.endsWeight then { run with waitsFor := some .settle } else run.proceed

/-- `run` is called. -/
def begin : Option (HookRun Weight) :=
  if run.queue.state = .pending then
    some (turn { run with queue := { run.queue with state := .running } })
  else none

/-- The settle step is over. -/
def settle : Option (HookRun Weight) :=
  if run.waitsFor = some .settle then
    some (proceed { run with events := run.events ++ [.settled] })
  else none

/-- The callback returns. -/
def callbackReturns : Option (HookRun Weight) :=
  if run.waitsFor = some .callback then some run.turn else none

end HookRun

/-- The two queues of hooks of a transaction. -/
inductive HookPhase where
  | preCommit
  | postCommit
deriving DecidableEq

/-- What a savepoint keeps of the hooks. -/
structure SavedHooks (Weight : Type) where
  sequence : ℕ
  hooks : HookPhase → List (CommitHook Weight)

/-- What the hooks of a session depend on. -/
structure HookSession (Weight : Type) where
  runs : HookPhase → HookRun Weight
  savepointCheckpoints : OrderedMap String (SavedHooks Weight)
  nextSavepointSequence : ℕ

/-- A call of a session that concerns its hooks. -/
inductive HookCall (Weight : Type) where
  | addHook (phase : HookPhase) (weight : Weight)
  | savepoint (name : String)
  | rollbackToSavepoint (name : String)
  | begin (phase : HookPhase)
  | settle (phase : HookPhase)
  | callbackReturns (phase : HookPhase)

namespace HookSession

variable {Weight : Type} [LinearOrder Weight]

/-- Only the hooks before the commit are run with a settle step. -/
def new : HookSession Weight := ⟨fun phase => .new (phase = .preCommit), .empty, 1⟩

variable (session : HookSession Weight)

/-- A change of one run, if it is possible. -/
def change (phase : HookPhase) (changed : Option (HookRun Weight)) :
    Option (HookSession Weight) :=
  changed.map fun run => { session with runs := Function.update session.runs phase run }

/-- `savepoint`. -/
def savepoint (name : String) : HookSession Weight :=
  { session with
    savepointCheckpoints := session.savepointCheckpoints.set name
      ⟨session.nextSavepointSequence, fun phase => (session.runs phase).queue.checkpoint⟩
    nextSavepointSequence := session.nextSavepointSequence + 1 }

/-- `rollbackToSavepoint`. -/
def rollbackToSavepoint (name : String) : Option (HookSession Weight) :=
  (session.savepointCheckpoints.get? name).map fun checkpoint =>
    { session with
      runs := fun phase => (session.runs phase).restore (checkpoint.hooks phase)
      savepointCheckpoints := session.savepointCheckpoints.filter fun candidate =>
        candidate.sequence ≤ checkpoint.sequence }

/-- One call, unless it throws. -/
def call : HookCall Weight → Option (HookSession Weight)
  | .addHook phase weight => session.change phase ((session.runs phase).add weight)
  | .savepoint name => some (session.savepoint name)
  | .rollbackToSavepoint name => session.rollbackToSavepoint name
  | .begin phase => session.change phase (session.runs phase).begin
  | .settle phase => session.change phase (session.runs phase).settle
  | .callbackReturns phase => session.change phase (session.runs phase).callbackReturns

/-- The sessions with hooks and their calls. -/
def system (Weight : Type) [LinearOrder Weight] :
    TransitionSystem (HookSession Weight) (HookCall Weight) where
  Init := (· = new)
  Step before call after := before.call call = some after

end HookSession

end ServerFoundation.Database
