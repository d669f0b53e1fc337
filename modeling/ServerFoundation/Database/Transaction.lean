import ServerFoundation.Data.OrderedMap
import ServerFoundation.Data.TransitionSystem
import ServerFoundation.Database.CommitHooks

/-!
# A database transaction

`BaseDatabase.transaction` begins a transaction on a connection of its own, runs a worker,
drains the tracked operations and flushes the session, runs the pre-commit hooks and the
mutation interceptors, drains and flushes again, and commits. Whatever is thrown on the way
rolls it back.

The function is a sequence of awaits. A state holds the await that it has reached, the tracked
operations that have not settled and what has been sent on the connection. Between two steps of
the function everything that holds the session may take steps of its own: start a tracked
operation, let one send a statement or settle, register a hook, make a savepoint or go back to
it.
-/

namespace ServerFoundation.Database

/-- What is sent on the connection of the transaction. -/
inductive Command where
  | begin
  | trackedStatement (operation : ℕ)
  | statement
  | commit
  | rollback
  | release
deriving DecidableEq, Repr

/-- The three places that call `waitForPendingOperations` and then `flush`. -/
inductive Round where
  | afterWorker
  | betweenHooks
  | beforeCommit
deriving DecidableEq, Repr

/-- Where the transaction function waits. While it drains, it waits for the operations that
`Promise.allSettled` was given. -/
inductive Phase where
  | beginning
  | working
  | draining (round : Round) (awaited : List ℕ)
  | drained (round : Round)
  | flushing (round : Round)
  | inHook
  | drainingAfterHook (awaited : List ℕ)
  | intercepting
  | committing
  | afterCommit
  | failing
  | rollingBack
  | releasing
  | finished
deriving DecidableEq, Repr

/-- What a savepoint keeps of the state here: the hooks and the number of errors. -/
structure HookCheckpoint (Weight : Type) where
  preCommitHooks : List (CommitHook Weight)
  pendingOperationErrorCount : ℕ
deriving DecidableEq, Repr

/-- The transaction function, and the session as far as it decides what is sent. -/
structure Transaction (Weight : Type) where
  phase : Phase
  transactionStarted : Bool
  committed : Bool
  pendingOperations : List ℕ
  pendingOperationErrors : ℕ
  operations : ℕ
  preCommitHooks : CommitHookQueue Weight
  savepointCheckpoints : OrderedMap String (HookCheckpoint Weight)
  commands : List Command

/-- A step of code that holds the session, or of the transaction function when what it waits for
completes or throws. -/
inductive TransactionEvent (Weight : Type) where
  | trackOperation
  | operationSends (operation : ℕ)
  | operationSettles (operation : ℕ) (rejected : Bool)
  | statement
  | addPreCommitHook (weight : Weight)
  | runPreCommitHooks
  | savepoint (name : String)
  | rollbackToSavepoint (name : String)
  | completes
  | throws
deriving DecidableEq, Repr

namespace Transaction

variable {Weight : Type}

/-- The transaction function waits for `begin`. -/
def start : Transaction Weight where
  phase := .beginning
  transactionStarted := false
  committed := false
  pendingOperations := []
  pendingOperationErrors := 0
  operations := 0
  preCommitHooks := .new
  savepointCheckpoints := .empty
  commands := [.begin]

variable (transaction : Transaction Weight)

/-- Issue a command and wait for it. -/
def issue (command : Command) (phase : Phase) : Transaction Weight :=
  { transaction with commands := transaction.commands ++ [command], phase }

/-- The loop of `settlePendingOperations` tests for pending operations. -/
def settle (settled : Phase) (waiting : List ℕ → Phase) : Transaction Weight :=
  { transaction with
    phase := if transaction.pendingOperations = [] then settled
      else waiting transaction.pendingOperations }

/-- `waitForPendingOperations` is called. -/
def waitForPendingOperations (round : Round) : Transaction Weight :=
  transaction.settle (.drained round) (.draining round)

/-- `runPreCommitHooks` catches an error and drains before it throws it again. -/
def hooksFailed : Transaction Weight :=
  { transaction with
    preCommitHooks := { transaction.preCommitHooks with state := .finished } }.settle
      .failing .drainingAfterHook

/-- An error leaves `waitForPendingOperations` or `flush`. -/
def roundFailed : Round → Transaction Weight
  | .betweenHooks => transaction.hooksFailed
  | .afterWorker | .beforeCommit => { transaction with phase := .failing }

/-- The pre-commit hooks call a callback. -/
def runHook (hook : CommitHook Weight) : Transaction Weight :=
  { transaction with
    preCommitHooks := transaction.preCommitHooks.start hook
    phase := .inHook }

/-- What the transaction function waits for throws. -/
def throw : Option (Transaction Weight) :=
  match transaction.phase with
  | .beginning | .working | .intercepting | .committing | .afterCommit =>
      some { transaction with phase := .failing }
  | .flushing round => some (transaction.roundFailed round)
  | .inHook => some transaction.hooksFailed
  | .rollingBack => some (transaction.issue .release .releasing)
  | .releasing => some { transaction with phase := .finished }
  | .draining _ _ | .drained _ | .drainingAfterHook _ | .failing | .finished => none

variable [LinearOrder Weight]

/-- The head of the loop of `CommitHookQueue.run`. -/
def selectHook : Transaction Weight :=
  match transaction.preCommitHooks.next with
  | none => transaction.waitForPendingOperations .betweenHooks
  | some hook =>
      if transaction.preCommitHooks.settlesBefore hook then
        transaction.waitForPendingOperations .betweenHooks
      else transaction.runHook hook

/-- The loop of `CommitHookQueue.run` after the session has been settled. -/
def selectSettledHook : Transaction Weight :=
  match transaction.preCommitHooks.next with
  | none =>
      { transaction with
        preCommitHooks := { transaction.preCommitHooks with state := .finished }
        phase := .intercepting }
  | some hook => transaction.runHook hook

/-- `runPreCommitHooks`, which throws when the hooks have already been started. -/
def startHooks : Transaction Weight :=
  if transaction.preCommitHooks.state = .pending then
    { transaction with
      preCommitHooks := { transaction.preCommitHooks with state := .running } }.selectHook
  else { transaction with phase := .failing }

/-- What the transaction function waits for completes. -/
def complete : Option (Transaction Weight) :=
  match transaction.phase with
  | .beginning => some { transaction with transactionStarted := true, phase := .working }
  | .working => some (transaction.waitForPendingOperations .afterWorker)
  | .draining round awaited =>
      if awaited.all (· ∉ transaction.pendingOperations) then
        some (transaction.waitForPendingOperations round)
      else none
  | .drained round =>
      if transaction.pendingOperationErrors = 0 then
        some { transaction with phase := .flushing round }
      else some ({ transaction with pendingOperationErrors := 0 }.roundFailed round)
  | .flushing .afterWorker => some transaction.startHooks
  | .flushing .betweenHooks => some transaction.selectSettledHook
  | .flushing .beforeCommit => some (transaction.issue .commit .committing)
  | .inHook => some transaction.selectHook
  | .drainingAfterHook awaited =>
      if awaited.all (· ∉ transaction.pendingOperations) then
        some (transaction.settle .failing .drainingAfterHook)
      else none
  | .intercepting => some (transaction.waitForPendingOperations .beforeCommit)
  | .committing => some { transaction with committed := true, phase := .afterCommit }
  | .failing =>
      if transaction.transactionStarted ∧ ¬transaction.committed then
        some (transaction.issue .rollback .rollingBack)
      else some (transaction.issue .release .releasing)
  | .afterCommit | .rollingBack => some (transaction.issue .release .releasing)
  | .releasing => some { transaction with phase := .finished }
  | .finished => none

/-- One step, when it can be taken. The worker is the first to be given the session. -/
def step (event : TransactionEvent Weight) : Option (Transaction Weight) :=
  match event with
  | .completes => transaction.complete
  | .throws => transaction.throw
  | _ => if transaction.phase = .beginning then none else
    match event with
    | .trackOperation => some { transaction with
        pendingOperations := transaction.pendingOperations ++ [transaction.operations]
        operations := transaction.operations + 1 }
    | .operationSends operation =>
        if operation ∈ transaction.pendingOperations then
          some { transaction with
            commands := transaction.commands ++ [.trackedStatement operation] }
        else none
    | .operationSettles operation rejected =>
        if operation ∈ transaction.pendingOperations then
          some { transaction with
            pendingOperations := transaction.pendingOperations.filter (· ≠ operation)
            pendingOperationErrors :=
              transaction.pendingOperationErrors + if rejected then 1 else 0 }
        else none
    | .statement =>
        some { transaction with commands := transaction.commands ++ [.statement] }
    | .addPreCommitHook weight =>
        (transaction.preCommitHooks.add weight).map fun preCommitHooks =>
          { transaction with preCommitHooks }
    | .runPreCommitHooks =>
        if transaction.preCommitHooks.state = .pending then
          some { transaction with
            preCommitHooks := { transaction.preCommitHooks with state := .running } }
        else none
    | .savepoint name => some { transaction with
        savepointCheckpoints := transaction.savepointCheckpoints.set name
          ⟨transaction.preCommitHooks.checkpoint, transaction.pendingOperationErrors⟩ }
    | .rollbackToSavepoint name =>
        (transaction.savepointCheckpoints.get? name).map fun checkpoint =>
          { transaction with
            preCommitHooks := transaction.preCommitHooks.restore checkpoint.preCommitHooks
            pendingOperationErrors := checkpoint.pendingOperationErrorCount }
    | .completes | .throws => none

end Transaction

/-- The transaction function among everything that holds its session. -/
def transactionSystem (Weight : Type) [LinearOrder Weight] :
    TransitionSystem (Transaction Weight) (TransactionEvent Weight) where
  Init transaction := transaction = .start
  Step before event after := before.step event = some after

end ServerFoundation.Database
