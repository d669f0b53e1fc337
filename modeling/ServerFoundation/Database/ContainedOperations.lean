import Mathlib.Data.Int.Order.Basic
import ServerFoundation.Database.Transaction

/-!
# Tracked work stays inside its transaction

An operation that is still pending may send further statements, so none may be pending
once COMMIT or ROLLBACK has been sent. The transaction function drains before it
commits, and a failed pre-commit hook drains before it rolls back, but the `catch`
block of the transaction does not. A pending operation therefore outlives the rollback
when the worker, a flush or an interceptor throws, and the commit when it is started
after the last drain. In all other runs no operation does.
-/

namespace ServerFoundation.Database

namespace Command

/-- The commands that end a transaction on its connection. -/
def ends : Command → Bool
  | .commit | .rollback | .release => true
  | .begin | .trackedStatement _ | .statement => false

/-- Whether a command is sent by a tracked operation. -/
def tracked : Command → Bool
  | .trackedStatement _ => true
  | _ => false

end Command

/-- No tracked operation has sent a statement after the end of the transaction. -/
def Contained (commands : List Command) : Prop :=
  commands.Pairwise fun earlier later => ¬(earlier.ends ∧ later.tracked)

instance (commands : List Command) : Decidable (Contained commands) :=
  inferInstanceAs (Decidable (commands.Pairwise _))

/-- The transaction function has a drain ahead, whatever happens but an error that leaves it. -/
def Phase.drainsAhead : Phase → Bool
  | .working | .draining _ _ | .inHook | .drainingAfterHook _ | .intercepting => true
  | .drained round | .flushing round => round ≠ .beforeCommit
  | .beginning | .committing | .afterCommit | .failing | .rollingBack | .releasing
  | .finished => false

namespace Transaction

variable {Weight : Type} (transaction : Transaction Weight) {after : Transaction Weight}
  {phase : Phase}

/-- The step throws into the `catch` block of the transaction, past no drain. -/
def raises (event : TransactionEvent Weight) : Bool :=
  match transaction.phase, event with
  | .working, .throws | .intercepting, .throws => true
  | .flushing round, .throws => round ≠ .betweenHooks
  | .drained round, .completes => round ≠ .betweenHooks ∧ transaction.pendingOperationErrors ≠ 0
  | .flushing .afterWorker, .completes => transaction.preCommitHooks.state ≠ .pending
  | _, _ => false

/-- An operation is only started while a drain is ahead, and an error only leaves for the `catch`
block while none is pending. -/
def Drains (event : TransactionEvent Weight) : Prop :=
  (event = .trackOperation → transaction.phase.drainsAhead) ∧
    (transaction.raises event → transaction.pendingOperations = [])

instance [DecidableEq Weight] :
    DecidableRel (Drains : Transaction Weight → TransactionEvent Weight → Prop) :=
  fun transaction event => inferInstanceAs (Decidable
    ((event = .trackOperation → transaction.phase.drainsAhead) ∧
      (transaction.raises event → transaction.pendingOperations = [])))

/-- Nothing has ended the transaction on its connection. -/
def Ongoing : Prop := ∀ command ∈ transaction.commands, ¬command.ends

/-- While a drain is ahead the transaction goes on, and afterwards nothing is pending. -/
structure Safe : Prop where
  contained : Contained transaction.commands
  ongoing : transaction.phase.drainsAhead ∨ transaction.phase = .beginning → transaction.Ongoing
  settled : ¬transaction.phase.drainsAhead → transaction.pendingOperations = []

variable {transaction}

section

variable (ongoing : transaction.Ongoing)
include ongoing

theorem Ongoing.contained : Contained transaction.commands := by
  refine List.Pairwise.imp_of_mem ?_
    (List.pairwise_of_forall (R := fun _ _ => True) fun _ _ => trivial)
  rintro earlier later member - - ⟨ends, -⟩
  exact ongoing earlier member ends

theorem Ongoing.safe
    (settled : ¬transaction.phase.drainsAhead → transaction.pendingOperations = []) :
    transaction.Safe :=
  ⟨ongoing.contained, fun _ => ongoing, settled⟩

theorem Ongoing.settle {settled : Phase} {waiting : List ℕ → Phase}
    (drains : ∀ awaited, (waiting awaited).drainsAhead) :
    (transaction.settle settled waiting).Safe := by
  refine Ongoing.safe ongoing ?_
  intro closed
  by_contra pending
  have waits : transaction.pendingOperations ≠ [] := pending
  apply closed
  simp only [Transaction.settle, if_neg waits]
  exact drains _

theorem Ongoing.waitForPendingOperations (round : Round) :
    (transaction.waitForPendingOperations round).Safe :=
  ongoing.settle fun _ => rfl

theorem Ongoing.hooksFailed : transaction.hooksFailed.Safe := by
  unfold Transaction.hooksFailed
  apply Ongoing.settle
  · exact ongoing
  · exact fun _ => rfl

end

theorem Safe.ongoing_of (safe : transaction.Safe) (reached : transaction.phase = phase)
    (drains : phase.drainsAhead = true) : transaction.Ongoing :=
  safe.ongoing (.inl (reached ▸ drains))

theorem Safe.settled_of (safe : transaction.Safe) (reached : transaction.phase = phase)
    (closed : phase.drainsAhead = false) : transaction.pendingOperations = [] :=
  safe.settled (by rw [reached, closed]; exact Bool.false_ne_true)

theorem Safe.leave (safe : transaction.Safe) (sameCommands : after.commands = transaction.commands)
    (settled : after.pendingOperations = []) (closed : after.phase.drainsAhead = false)
    (begun : after.phase ≠ .beginning) : after.Safe := by
  refine ⟨sameCommands ▸ safe.contained, ?_, fun _ => settled⟩
  rintro (drains | beginning)
  · rw [closed] at drains
    cases drains
  · exact absurd beginning begun

theorem Safe.roundFailed (safe : transaction.Safe) {round : Round}
    (ongoing : round = .betweenHooks → transaction.Ongoing)
    (settled : round ≠ .betweenHooks → transaction.pendingOperations = []) :
    (transaction.roundFailed round).Safe := by
  cases round with
  | betweenHooks => exact (ongoing rfl).hooksFailed
  | afterWorker =>
    exact safe.leave rfl (settled (by decide)) rfl (by simp [Transaction.roundFailed])
  | beforeCommit =>
    exact safe.leave rfl (settled (by decide)) rfl (by simp [Transaction.roundFailed])

theorem Ongoing.runHook (ongoing : transaction.Ongoing) (hook : CommitHook Weight) :
    (transaction.runHook hook).Safe :=
  Ongoing.safe ongoing fun closed => absurd rfl closed

theorem Safe.issue (safe : transaction.Safe) (settled : transaction.pendingOperations = [])
    {command : Command} (untracked : command.tracked = false) (closed : phase.drainsAhead = false)
    (begun : phase ≠ .beginning) : (transaction.issue command phase).Safe := by
  have contained : Contained (transaction.issue command phase).commands := by
    refine List.pairwise_append.mpr ⟨safe.contained, List.pairwise_singleton _ _, ?_⟩
    rintro earlier - last lastMem ⟨-, tracked⟩
    rw [List.mem_singleton.mp lastMem, untracked] at tracked
    cases tracked
  refine ⟨contained, ?_, fun _ => settled⟩
  rintro (drains | beginning)
  · exact absurd (closed.symm.trans drains) Bool.false_ne_true
  · exact absurd beginning begun

theorem Safe.send (safe : transaction.Safe) {command : Command} (goesOn : command.ends = false)
    (pending : command.tracked → transaction.pendingOperations ≠ []) :
    { transaction with commands := transaction.commands ++ [command] }.Safe := by
  constructor
  case contained =>
    refine List.pairwise_append.mpr ⟨safe.contained, List.pairwise_singleton _ _, ?_⟩
    rintro earlier member last lastMem ⟨ends, tracked⟩
    rw [List.mem_singleton.mp lastMem] at tracked
    have drains : transaction.phase.drainsAhead := by
      by_contra closed
      exact pending tracked (safe.settled closed)
    exact safe.ongoing (.inl drains) earlier member ends
  case ongoing =>
    intro open_ sent member
    rcases List.mem_append.mp member with old | new
    · exact safe.ongoing open_ sent old
    · rw [List.mem_singleton.mp new, goesOn]
      exact Bool.false_ne_true
  case settled => exact safe.settled

variable [LinearOrder Weight]

theorem Ongoing.selectHook (ongoing : transaction.Ongoing) : transaction.selectHook.Safe := by
  unfold Transaction.selectHook
  split
  · exact ongoing.waitForPendingOperations _
  · split
    · exact ongoing.waitForPendingOperations _
    · exact ongoing.runHook _

theorem Ongoing.selectSettledHook (ongoing : transaction.Ongoing) :
    transaction.selectSettledHook.Safe := by
  unfold Transaction.selectSettledHook
  split
  · exact Ongoing.safe ongoing fun closed => absurd rfl closed
  · exact ongoing.runHook _

theorem Ongoing.startHooks (ongoing : transaction.Ongoing)
    (settled : transaction.preCommitHooks.state ≠ .pending → transaction.pendingOperations = []) :
    transaction.startHooks.Safe := by
  unfold Transaction.startHooks
  split
  · exact Ongoing.selectHook ongoing
  · rename_i started
    exact Ongoing.safe ongoing fun _ => settled started

theorem Safe.complete (safe : transaction.Safe) (drains : transaction.Drains .completes)
    (completed : transaction.complete = some after) : after.Safe := by
  have raised := drains.2
  cases phase : transaction.phase with
  | beginning =>
      simp only [Transaction.complete, phase, Option.some.injEq] at completed
      subst completed
      exact Ongoing.safe (safe.ongoing (.inr phase)) fun closed => absurd rfl closed
  | working =>
      simp only [Transaction.complete, phase, Option.some.injEq] at completed
      subst completed
      exact Ongoing.waitForPendingOperations (safe.ongoing_of phase rfl) _
  | draining round awaited =>
      simp only [Transaction.complete, phase] at completed
      split at completed
      · obtain rfl := Option.some.inj completed
        exact Ongoing.waitForPendingOperations (safe.ongoing_of phase rfl) _
      · cases completed
  | drained round =>
      simp only [Transaction.complete, phase] at completed
      simp only [raises, phase, decide_eq_true_eq] at raised
      split at completed
      · obtain rfl := Option.some.inj completed
        refine ⟨safe.contained, ?_, ?_⟩
        · rintro (drainsAhead | impossible)
          · exact safe.ongoing_of phase drainsAhead
          · cases impossible
        · exact fun closed => safe.settled_of phase (Bool.not_eq_true _ ▸ closed)
      · rename_i errors
        obtain rfl := Option.some.inj completed
        have cleared : { transaction with pendingOperationErrors := 0 }.Safe :=
          ⟨safe.contained, safe.ongoing, safe.settled⟩
        refine cleared.roundFailed ?_ ?_
        · rintro rfl
          exact safe.ongoing_of phase rfl
        · intro outside
          exact raised ⟨outside, errors⟩
  | flushing round =>
      cases round with
      | afterWorker =>
          simp only [Transaction.complete, phase, Option.some.injEq] at completed
          simp only [raises, phase, decide_eq_true_eq] at raised
          subst completed
          exact Ongoing.startHooks (safe.ongoing_of phase rfl) raised
      | betweenHooks =>
          simp only [Transaction.complete, phase, Option.some.injEq] at completed
          subst completed
          exact Ongoing.selectSettledHook (safe.ongoing_of phase rfl)
      | beforeCommit =>
          simp only [Transaction.complete, phase, Option.some.injEq] at completed
          subst completed
          exact safe.issue (safe.settled_of phase rfl) rfl rfl (by decide)
  | inHook =>
      simp only [Transaction.complete, phase, Option.some.injEq] at completed
      subst completed
      exact Ongoing.selectHook (safe.ongoing_of phase rfl)
  | drainingAfterHook awaited =>
      simp only [Transaction.complete, phase] at completed
      split at completed
      · obtain rfl := Option.some.inj completed
        exact Ongoing.settle (safe.ongoing_of phase rfl) fun _ => rfl
      · cases completed
  | intercepting =>
      simp only [Transaction.complete, phase, Option.some.injEq] at completed
      subst completed
      exact Ongoing.waitForPendingOperations (safe.ongoing_of phase rfl) _
  | committing =>
      simp only [Transaction.complete, phase, Option.some.injEq] at completed
      subst completed
      exact safe.leave rfl (safe.settled_of phase rfl) rfl (by simp)
  | failing =>
      simp only [Transaction.complete, phase] at completed
      have none : transaction.pendingOperations = [] := safe.settled_of phase rfl
      split at completed
      · obtain rfl := Option.some.inj completed
        exact safe.issue none rfl rfl (by decide)
      · obtain rfl := Option.some.inj completed
        exact safe.issue none rfl rfl (by decide)
  | afterCommit =>
      simp only [Transaction.complete, phase, Option.some.injEq] at completed
      subst completed
      exact safe.issue (safe.settled_of phase rfl) rfl rfl (by decide)
  | rollingBack =>
      simp only [Transaction.complete, phase, Option.some.injEq] at completed
      subst completed
      exact safe.issue (safe.settled_of phase rfl) rfl rfl (by decide)
  | releasing =>
      simp only [Transaction.complete, phase, Option.some.injEq] at completed
      subst completed
      exact safe.leave rfl (safe.settled_of phase rfl) rfl (by simp)
  | finished =>
      simp only [Transaction.complete, phase] at completed
      cases completed

omit [LinearOrder Weight] in
theorem Safe.throw (safe : transaction.Safe) (drains : transaction.Drains .throws)
    (thrown : transaction.throw = some after) : after.Safe := by
  have raised := drains.2
  cases phase : transaction.phase with
  | beginning | committing | afterCommit =>
      simp only [Transaction.throw, phase, Option.some.injEq] at thrown
      subst thrown
      exact safe.leave rfl (safe.settled_of phase rfl) rfl (by simp)
  | working | intercepting =>
      simp only [Transaction.throw, phase, Option.some.injEq] at thrown
      simp only [raises, phase, true_imp_iff] at raised
      subst thrown
      exact safe.leave rfl raised rfl (by simp)
  | flushing round =>
      simp only [Transaction.throw, phase, Option.some.injEq] at thrown
      simp only [raises, phase, decide_eq_true_eq] at raised
      subst thrown
      refine safe.roundFailed ?_ raised
      rintro rfl
      exact safe.ongoing_of phase rfl
  | inHook =>
      simp only [Transaction.throw, phase, Option.some.injEq] at thrown
      subst thrown
      exact (safe.ongoing_of phase rfl).hooksFailed
  | rollingBack =>
      simp only [Transaction.throw, phase, Option.some.injEq] at thrown
      subst thrown
      exact safe.issue (safe.settled_of phase rfl) rfl rfl (by decide)
  | releasing =>
      simp only [Transaction.throw, phase, Option.some.injEq] at thrown
      subst thrown
      exact safe.leave rfl (safe.settled_of phase rfl) rfl (by simp)
  | draining _ _ | drained _ | drainingAfterHook _ | failing | finished =>
      simp only [Transaction.throw, phase] at thrown
      cases thrown

theorem Safe.step {event : TransactionEvent Weight} (safe : transaction.Safe)
    (drains : transaction.Drains event) (taken : transaction.step event = some after) :
    after.Safe := by
  cases event with
  | completes => exact safe.complete drains taken
  | throws => exact safe.throw drains taken
  | trackOperation =>
      simp only [Transaction.step] at taken
      split at taken
      · cases taken
      obtain rfl := Option.some.inj taken
      exact ⟨safe.contained, safe.ongoing, fun closed => absurd (drains.1 rfl) closed⟩
  | operationSends operation =>
      simp only [Transaction.step] at taken
      split at taken
      · cases taken
      split at taken
      · rename_i pending
        obtain rfl := Option.some.inj taken
        exact safe.send rfl fun _ => List.ne_nil_of_mem pending
      · cases taken
  | operationSettles operation rejected =>
      simp only [Transaction.step] at taken
      split at taken
      · cases taken
      split at taken
      · obtain rfl := Option.some.inj taken
        refine ⟨safe.contained, safe.ongoing, ?_⟩
        intro closed
        simp [safe.settled closed]
      · cases taken
  | statement =>
      simp only [Transaction.step] at taken
      split at taken
      · cases taken
      obtain rfl := Option.some.inj taken
      exact safe.send rfl fun tracked => absurd tracked Bool.false_ne_true
  | addPreCommitHook weight =>
      simp only [Transaction.step] at taken
      split at taken
      · cases taken
      obtain ⟨preCommitHooks, -, rfl⟩ := Option.map_eq_some_iff.mp taken
      exact ⟨safe.contained, safe.ongoing, safe.settled⟩
  | runPreCommitHooks =>
      simp only [Transaction.step] at taken
      split at taken
      · cases taken
      split at taken
      · obtain rfl := Option.some.inj taken
        exact ⟨safe.contained, safe.ongoing, safe.settled⟩
      · cases taken
  | savepoint name =>
      simp only [Transaction.step] at taken
      split at taken
      · cases taken
      obtain rfl := Option.some.inj taken
      exact ⟨safe.contained, safe.ongoing, safe.settled⟩
  | rollbackToSavepoint name =>
      simp only [Transaction.step] at taken
      split at taken
      · cases taken
      obtain ⟨checkpoint, -, rfl⟩ := Option.map_eq_some_iff.mp taken
      exact ⟨safe.contained, safe.ongoing, safe.settled⟩

theorem safe_of_reachable
    (reachable : ((transactionSystem Weight).restrict Drains).Reachable transaction) :
    transaction.Safe := by
  refine reachable.invariant Safe ?_ ?_
  · rintro initial rfl
    refine Ongoing.safe ?_ fun _ => rfl
    simp [Ongoing, start, Command.ends]
  · rintro before event after - safe ⟨drains, taken⟩
    exact safe.step drains taken

/-- In every run whose steps start operations only while a drain is ahead and leave for the `catch`
block only while none is pending, every operation has settled before the end. -/
theorem operations_settle_before_end
    (reachable : ((transactionSystem Weight).restrict Drains).Reachable transaction) :
    Contained transaction.commands ∧
      ((∃ command ∈ transaction.commands, command.ends) → transaction.pendingOperations = []) := by
  have safe := safe_of_reachable reachable
  refine ⟨safe.contained, ?_⟩
  rintro ⟨command, sent, ends⟩
  apply safe.settled
  intro drains
  exact safe.ongoing (.inl drains) command sent ends

section Runs

/-- The state after a step. -/
def apply (before : Transaction Weight) (event : TransactionEvent Weight) : Transaction Weight :=
  (before.step event).getD before

theorem step_apply {before : Transaction Weight} {event : TransactionEvent Weight}
    (enabled : (before.step event).isSome) : before.step event = some (before.apply event) := by
  obtain ⟨after, taken⟩ := Option.isSome_iff_exists.mp enabled
  rw [apply, taken]
  rfl

/-- An operation outlives the worker, and another one the failing hook that started it. -/
def failingHookRun : List (TransactionEvent ℤ) :=
  [.completes, .trackOperation, .operationSends 0, .addPreCommitHook 0, .completes,
    .operationSends 0, .operationSettles 0 false, .completes, .completes, .completes,
    .trackOperation, .throws, .operationSends 1, .operationSettles 1 true, .completes, .completes,
    .completes, .completes]

theorem operations_settle_before_end_hook :
    ((failingHookRun.foldl apply start).phase = .finished ∧
      (failingHookRun.foldl apply start).commands =
        [.begin, .trackedStatement 0, .trackedStatement 0, .trackedStatement 1, .rollback,
          .release]) ∧
      Contained (failingHookRun.foldl apply start).commands := by
  refine ⟨by decide +kernel, (operations_settle_before_end ?_).1⟩
  refine (TransitionSystem.Reachable.start rfl).follow apply
    (fun before event => before.Drains event ∧ (before.step event).isSome) ?_ ?_
  · rintro before event ⟨drains, enabled⟩
    exact ⟨drains, step_apply enabled⟩
  · decide +kernel

/-- The worker throws while an operation that it has not awaited is between two statements. -/
def failingWorkerRun : List (TransactionEvent ℤ) :=
  [.completes, .trackOperation, .operationSends 0, .throws, .completes, .operationSends 0]

theorem operation_outlives_rollback :
    ∃ transaction, (transactionSystem ℤ).Reachable transaction ∧
      transaction.commands =
        [.begin, .trackedStatement 0, .rollback, .trackedStatement 0] ∧
      ¬Contained transaction.commands := by
  refine ⟨failingWorkerRun.foldl apply start, ?_, by decide +kernel, by decide +kernel⟩
  refine (TransitionSystem.Reachable.start rfl).follow apply
    (fun before event => (before.step event).isSome) ?_ ?_
  · exact fun before event enabled => step_apply enabled
  · decide +kernel

end Runs

end Transaction

end ServerFoundation.Database
