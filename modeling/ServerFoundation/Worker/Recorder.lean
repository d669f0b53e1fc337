import Mathlib.Logic.Function.Basic
import ServerFoundation.Data.OrderedMap
import ServerFoundation.Data.TransitionSystem

/-!
# The recorder of worker jobs

`WorkerRecorderService` with a database, on any number of nodes that share a Redis and a
`_jobs` table. A node observes a queue while it leads it; a terminal job that an event or a
drain reports is read, recorded and removed by a task, of which a node has one for each
job. Every `await` of a task and of a drain ends a step.

BullMQ is left to its surroundings: which queue names it accepts is a parameter, and it
gives every job an id of its own.
-/

namespace ServerFoundation.Worker

/-- `TerminalJobStatus`. -/
inductive TerminalJobStatus where
  | completed
  | failed
deriving DecidableEq, Repr

/-- A job of a queue. -/
@[ext]
structure JobKey where
  queue : String
  id : String
deriving DecidableEq, Repr

/-- A terminal job in Redis, with its place in the order in which jobs became terminal. -/
structure TerminalJob where
  attemptsMade : ℕ
  status : TerminalJobStatus
  recordToDatabase : Bool
  finishedAt : ℕ
deriving DecidableEq, Repr

/-- `job.attemptsMade || 1`. -/
def TerminalJob.attempt (job : TerminalJob) : ℕ :=
  if job.attemptsMade = 0 then 1 else job.attemptsMade

/-- A row of the table. -/
structure JobRow where
  id : String
  queue : String
  queueId : String
  attempt : ℕ
  status : TerminalJobStatus
deriving DecidableEq, Repr

/-- The id of a record. -/
def recordId (key : JobKey) (attempt : ℕ) : String :=
  key.queue ++ ":" ++ key.id ++ ":" ++ Nat.repr attempt

/-- The row that `record` writes. -/
def recordOf (key : JobKey) (job : TerminalJob) (status : TerminalJobStatus) : JobRow :=
  ⟨recordId key job.attempt, key.queue, key.id, job.attempt, status⟩

/-- `insertRecord`: a row with the same id stays as it is. Ids are compared exactly, which a
collation that ignores case does not do. -/
def insertRecord (rows : List JobRow) (row : JobRow) : List JobRow :=
  if row.id ∈ rows.map JobRow.id then rows else rows ++ [row]

/-- Where `recordTerminalBullMqJob` waits: for the job, which is read again once, for the record,
or for the removal. -/
inductive TaskStage where
  | reading (retried : Bool)
  | recording (job : TerminalJob)
  | removing (job : TerminalJob)
deriving DecidableEq, Repr

/-- An entry of `terminalJobTasks`. -/
structure Task where
  status : TerminalJobStatus
  observer : ℕ
  stage : TaskStage
deriving DecidableEq, Repr

/-- Where `drainTerminalBullMqJobs` is: waiting for a page, between two jobs of a page, or waiting
for the task of a job. -/
inductive DrainStage where
  | reading (status : TerminalJobStatus)
  | processing (status : TerminalJobStatus) (page : List JobKey)
  | awaiting (key : JobKey) (status : TerminalJobStatus) (page : List JobKey)
deriving DecidableEq, Repr

/-- A drain, with the number of jobs that were terminal when its round began. -/
structure Drain (Node : Type) where
  node : Node
  queue : String
  observer : ℕ
  foundJobs : Bool
  stage : DrainStage
  roundStart : ℕ

/-- A drain that ended because a round found no jobs, and what was in Redis then. -/
structure Drained where
  queue : String
  roundStart : ℕ
  remaining : List (JobKey × TerminalJob)

/-- The nodes, Redis and the table, with the jobs that became terminal, those that were removed
and the drains that ended. -/
structure State (Node : Type) where
  observers : Node → String → Option ℕ
  nextObserver : ℕ
  tasks : Node → JobKey → Option Task
  drains : ℕ → Option (Drain Node)
  nextDrain : ℕ
  jobs : OrderedMap JobKey TerminalJob
  rows : List JobRow
  finished : List (JobKey × TerminalJob)
  removed : List (JobKey × TerminalJob)
  drained : List Drained

/-- `TERMINAL_DRAIN_BATCH_SIZE`. -/
def terminalDrainBatchSize : ℕ := 100

/-- What can happen. The last argument of `recordFails` and of `removeFails` tells whether the
operation took place before its error. -/
inductive Label (Node : Type) where
  | finish (key : JobKey) (attemptsMade : ℕ) (status : TerminalJobStatus) (recordToDatabase : Bool)
  | startObserver (node : Node) (queue : String)
  | stop (node : Node) (queue : String)
  | abandonObserver (node : Node) (queue : String) (observer : ℕ)
  | event (node : Node) (observer : ℕ) (key : JobKey) (status : TerminalJobStatus)
  | readJob (node : Node) (key : JobKey)
  | readFails (node : Node) (key : JobKey) (connectionClosed : Bool)
  | record (node : Node) (key : JobKey)
  | recordFails (node : Node) (key : JobKey) (inserted : Bool)
  | remove (node : Node) (key : JobKey)
  | removeFails (node : Node) (key : JobKey) (removed : Bool)
  | drain (node : Node) (queue : String)
  | drainPage (drain : ℕ)
  | drainFails (drain : ℕ)
  | drainNext (drain : ℕ)

namespace State

variable {Node : Type} [DecidableEq Node] (state : State Node)

/-- Nothing has happened. -/
def initial : State Node :=
  ⟨fun _ _ => none, 0, fun _ _ => none, fun _ => none, 0, .empty, [], [], [], []⟩

/-- Sets the observer of a queue. -/
def setObserver (node : Node) (queue : String) (observer : Option ℕ) : State Node :=
  { state with
    observers := Function.update state.observers node
      (Function.update (state.observers node) queue observer) }

/-- Sets the task of a job. -/
def setTask (node : Node) (key : JobKey) (task : Option Task) : State Node :=
  { state with
    tasks := Function.update state.tasks node (Function.update (state.tasks node) key task) }

/-- Sets a drain. -/
def setDrain (id : ℕ) (drain : Option (Drain Node)) : State Node :=
  { state with drains := Function.update state.drains id drain }

/-- A drain goes on, or fails, when the task it waits for has settled. -/
def resumeDrain (node : Node) (key : JobKey) (succeeded : Bool) (drain : Drain Node) :
    Option (Drain Node) :=
  match drain.stage with
  | .awaiting waited status page =>
      if drain.node = node ∧ waited = key then
        if succeeded then some { drain with stage := .processing status page } else none
      else some drain
  | _ => some drain

/-- A task settles. -/
def settle (node : Node) (key : JobKey) (succeeded : Bool) : State Node :=
  { state.setTask node key none with
    drains := fun id => (state.drains id).bind (resumeDrain node key succeeded) }

/-- A job is no longer in Redis. -/
def removeJob (key : JobKey) : State Node :=
  { state with
    jobs := state.jobs.erase key
    removed := state.removed ++ ((state.jobs.get? key).map fun job => (key, job)).toList }

/-- `queueTerminalBullMqJob` up to its first `await`. -/
def queueTerminalBullMqJob (node : Node) (observer : ℕ) (key : JobKey)
    (status : TerminalJobStatus) : State Node :=
  if (state.tasks node key).isSome ∨ state.observers node key.queue ≠ some observer then state
  else state.setTask node key (some ⟨status, observer, .reading false⟩)

/-- The oldest terminal jobs of a queue with a status. -/
def page (queue : String) (status : TerminalJobStatus) : List JobKey :=
  ((state.jobs.entries.filter fun entry =>
    entry.1.queue = queue ∧ entry.2.status = status).take terminalDrainBatchSize).map Prod.fst

/-- The terminal jobs of a queue. -/
def remaining (queue : String) : List (JobKey × TerminalJob) :=
  state.jobs.entries.filter fun entry => entry.1.queue = queue

/-- Whether a drain's observer still leads its queue. -/
def leads (drain : Drain Node) : Bool :=
  state.observers drain.node drain.queue = some drain.observer

/-- A drain goes on with the next job of its page, the next status or the next round. -/
def drainNext (id : ℕ) (drain : Drain Node) : State Node :=
  match drain.stage with
  | .processing status (key :: page) =>
      if state.leads drain then
        (state.queueTerminalBullMqJob drain.node drain.observer key status).setDrain id
          (some { drain with stage := .awaiting key status page })
      else state.setDrain id none
  | .processing .completed [] =>
      state.setDrain id
        (if state.leads drain then some { drain with stage := .reading .failed } else none)
  | .processing .failed [] =>
      if drain.foundJobs then
        state.setDrain id
          (if state.leads drain then
            some { drain with
              stage := .reading .completed, foundJobs := false
              roundStart := state.finished.length }
          else none)
      else
        { state.setDrain id none with
          drained := state.drained ++
            [⟨drain.queue, drain.roundStart, state.remaining drain.queue⟩] }
  | _ => state

/-- One step. -/
def step : Label Node → State Node
  | .finish key attemptsMade status recordToDatabase =>
      let job := ⟨attemptsMade, status, recordToDatabase, state.finished.length⟩
      { state with
        jobs := state.jobs.set key job
        finished := state.finished ++ [(key, job)] }
  | .startObserver node queue =>
      if (state.observers node queue).isSome then state
      else { state.setObserver node queue (some state.nextObserver) with
        nextObserver := state.nextObserver + 1 }
  | .stop node queue => state.setObserver node queue none
  | .abandonObserver node queue observer =>
      if state.observers node queue = some observer then state.setObserver node queue none
      else state
  | .event node observer key status => state.queueTerminalBullMqJob node observer key status
  | .readJob node key =>
      match state.tasks node key with
      | some ⟨status, observer, .reading _⟩ =>
          match state.jobs.get? key with
          | some job => state.setTask node key (some ⟨status, observer, .recording job⟩)
          | none => state.settle node key true
      | _ => state
  | .readFails node key connectionClosed =>
      match state.tasks node key with
      | some ⟨status, observer, .reading retried⟩ =>
          if connectionClosed ∧ ¬retried ∧ state.observers node key.queue = some observer then
            state.setTask node key (some ⟨status, observer, .reading true⟩)
          else state.settle node key false
      | _ => state
  | .record node key =>
      match state.tasks node key with
      | some ⟨status, observer, .recording job⟩ =>
          { state.setTask node key (some ⟨status, observer, .removing job⟩) with
            rows := if job.recordToDatabase then insertRecord state.rows (recordOf key job status)
              else state.rows }
      | _ => state
  | .recordFails node key inserted =>
      match state.tasks node key with
      | some ⟨status, _, .recording job⟩ =>
          { state.settle node key false with
            rows := if job.recordToDatabase ∧ inserted then
                insertRecord state.rows (recordOf key job status)
              else state.rows }
      | _ => state
  | .remove node key =>
      match state.tasks node key with
      | some ⟨_, _, .removing _⟩ => (state.removeJob key).settle node key true
      | _ => state
  | .removeFails node key removed =>
      match state.tasks node key with
      | some ⟨_, _, .removing _⟩ =>
          (if removed then state.removeJob key else state).settle node key false
      | _ => state
  | .drain node queue =>
      match state.observers node queue with
      | some observer =>
          { state.setDrain state.nextDrain (some
              ⟨node, queue, observer, false, .reading .completed, state.finished.length⟩) with
            nextDrain := state.nextDrain + 1 }
      | none => state
  | .drainPage id =>
      match state.drains id with
      | some drain =>
          match drain.stage with
          | .reading status =>
              let page := state.page drain.queue status
              state.setDrain id (some { drain with
                stage := .processing status page, foundJobs := drain.foundJobs || !page.isEmpty })
          | _ => state
      | none => state
  | .drainFails id => state.setDrain id none
  | .drainNext id =>
      match state.drains id with
      | some drain => state.drainNext id drain
      | none => state

end State

section Runs

variable {Node : Type} [DecidableEq Node] (acceptsQueueName : String → Bool)

/-- What BullMQ promises: a job is in a queue that was accepted, and has an id of its own. -/
def Allowed (state : State Node) : Label Node → Prop
  | .finish key _ _ _ => acceptsQueueName key.queue ∧ key ∉ state.finished.map Prod.fst
  | _ => True

instance Allowed.decidable : DecidableRel (@Allowed Node acceptsQueueName)
  | _, .finish _ _ _ _ => inferInstanceAs (Decidable (_ ∧ _))
  | _, .startObserver _ _ | _, .stop _ _ | _, .abandonObserver _ _ _ | _, .event _ _ _ _
  | _, .readJob _ _ | _, .readFails _ _ _ | _, .record _ _ | _, .recordFails _ _ _
  | _, .remove _ _ | _, .removeFails _ _ _ | _, .drain _ _ | _, .drainPage _ | _, .drainFails _
  | _, .drainNext _ => isTrue trivial

/-- The runs of the recorders. -/
def system : TransitionSystem (State Node) (Label Node) where
  Init state := state = .initial
  Step before label after := Allowed acceptsQueueName before label ∧ after = before.step label

end Runs

end ServerFoundation.Worker
