import ServerFoundation.Data.TransitionSystem

/-!
# Redis mutexes

One call of `redisMutexExec` between two `await`s at a time: the attempts to acquire the lock,
`runWithRedisLock` with its callback and its renewals, and the release in the `finally` block.
The replies, the abort of the caller's signal and the end of the callback come in any order. The
signal is asked once more between the reply to ACQUIRE and the `try` block.
-/

namespace ServerFoundation.Mutex.RedisMutex

/-- Why the returned promise is rejected. -/
inductive Failure where
  | aborted
  | notAcquired
  | command
  | callback
  | keyMissing
  | renewal
  | releaseMismatch
deriving DecidableEq, Repr

/-- The promise of the callback, which begins in a microtask of its own. -/
inductive Callback where
  | scheduled
  | running
  | settled (failure : Option Failure)
deriving DecidableEq, Repr

/-- The await that an execution has reached. -/
inductive Phase where
  | acquiring (attempt : ℕ)
  | sleeping (attempt : ℕ)
  /-- The reply 1 has arrived, and `runWithRedisLock` is called next. -/
  | acquired
  /-- `Promise.race` of the callback and the failure of the lock. -/
  | racing (callback : Callback) (lockFailure : Option Failure)
  /-- The lock has failed, and the callback is waited for. -/
  | draining (callback : Callback) (lockFailure : Failure)
  | unwinding (errorToThrow : Option Failure) (lockFailed : Bool)
  | releasing (errorToThrow : Option Failure) (lockFailed : Bool)
  | settled (outcome : Option Failure)
deriving DecidableEq, Repr

/-- What has happened, as far as the lock is concerned. -/
inductive Fact where
  | acquired (key lockId : String)
  | callbackStarted
  | callbackSettled
  | releaseInvoked (key lockId : String)
  | settled
deriving DecidableEq, Repr

/-- A call, with what has happened in it, the newest fact first. -/
structure Execution where
  redisKey : String
  lockId : String
  maxAttempts : ℕ
  signalAborted : Bool
  phase : Phase
  history : List Fact
deriving DecidableEq, Repr

/-- What the surroundings do. -/
inductive Event where
  | abort
  | acquireReplies (acquisition : Bool)
  | acquireFails (connectionClosed : Bool)
  | wakes
  | entersLock
  | callbackBegins
  | callbackSettles (failed : Bool)
  | lockFails (failure : Failure)
  | raceSettles (byLock : Bool)
  | drained
  | invokesRelease
  | releaseReplies (reply : Option Bool)
deriving DecidableEq, Repr

namespace Execution

/-- The promise settles. -/
def settle (execution : Execution) (outcome : Option Failure) : Execution :=
  { execution with phase := .settled outcome, history := .settled :: execution.history }

/-- The head of the loop over the attempts. -/
def attempt (execution : Execution) (attempts : ℕ) : Execution :=
  if execution.maxAttempts < attempts then execution.settle (some .notAcquired)
  else if execution.signalAborted then execution.settle (some .aborted)
  else { execution with phase := .acquiring attempts }

/-- A new call, whose signal may have fired already. -/
def call (redisKey lockId : String) (retryCount : ℕ) (signalAborted : Bool) : Execution :=
  attempt ⟨redisKey, lockId, max 1 retryCount, signalAborted, .acquiring 0, []⟩ 1

/-- `sleepOrAbort` before the next attempt. -/
def sleep (execution : Execution) (attempts : ℕ) : Execution :=
  if execution.signalAborted then execution.settle (some .aborted)
  else { execution with phase := .sleeping attempts }

/-- `failLock`, which also runs when the caller's signal fires while the lock is held. -/
def failLock (execution : Execution) (failure : Failure) : Execution :=
  match execution.phase with
  | .racing callback none => { execution with phase := .racing callback (some failure) }
  | .unwinding errorToThrow _ => { execution with phase := .unwinding errorToThrow true }
  | .releasing errorToThrow _ => { execution with phase := .releasing errorToThrow true }
  | _ => execution

/-- The caller's signal fires. Its listener is removed when the `finally` block begins. -/
def abort (execution : Execution) : Execution :=
  let aborted := { execution with signalAborted := true }
  match execution.phase with
  | .sleeping _ => aborted.settle (some .aborted)
  | .racing _ _ => aborted.failLock .aborted
  | _ => aborted

/-- The microtask of the callback, which starts it unless the lock has failed. -/
def beginCallback (execution : Execution) : Option Execution :=
  match execution.phase with
  | .racing .scheduled none =>
      some { execution with
        phase := .racing .running none, history := .callbackStarted :: execution.history }
  | .racing .scheduled (some failure) =>
      some { execution with phase := .racing (.settled (some failure)) (some failure) }
  | .draining .scheduled failure =>
      some { execution with phase := .draining (.settled (some failure)) failure }
  | _ => none

/-- The promise of the callback settles. -/
def settleCallback (execution : Execution) (failure : Option Failure) : Option Execution :=
  let history := .callbackSettled :: execution.history
  match execution.phase with
  | .racing .running lockFailure =>
      some { execution with phase := .racing (.settled failure) lockFailure, history := history }
  | .draining .running lockFailure =>
      some { execution with phase := .draining (.settled failure) lockFailure, history := history }
  | _ => none

/-- The race is won by the failure of the lock or by the callback. -/
def settleRace (execution : Execution) (byLock : Bool) : Option Execution :=
  match execution.phase, byLock with
  | .racing callback (some failure), true =>
      some { execution with phase := .draining callback failure }
  | .racing (.settled failure) lockFailure, false =>
      some { execution with phase := .unwinding failure lockFailure.isSome }
  | _, _ => none

/-- The outcome after the reply to RELEASE, which is missing if the command failed. -/
def outcome (errorToThrow : Option Failure) (lockFailed : Bool) (reply : Option Bool) :
    Option Failure :=
  if reply = some false ∧ lockFailed = false ∧ errorToThrow = none then some .releaseMismatch
  else errorToThrow

/-- What an event does to an execution. -/
def step (execution : Execution) : Event → Option Execution
  | .abort => some execution.abort
  | .acquireReplies acquisition =>
      match execution.phase with
      | .acquiring attempts =>
          some (
            if acquisition then
              { execution with
                phase := .acquired
                history := .acquired execution.redisKey execution.lockId :: execution.history }
            else if attempts < execution.maxAttempts then execution.sleep attempts
            else execution.attempt (attempts + 1))
      | _ => none
  | .acquireFails connectionClosed =>
      match execution.phase with
      | .acquiring attempts =>
          some (
            if connectionClosed = false ∨ attempts = execution.maxAttempts then
              execution.settle (some .command)
            else execution.sleep attempts)
      | _ => none
  | .wakes =>
      match execution.phase with
      | .sleeping attempts => some (execution.attempt (attempts + 1))
      | _ => none
  | .entersLock =>
      match execution.phase with
      | .acquired =>
          some (
            -- `throwIfSignalAborted` stands before the `try` block.
            if execution.signalAborted then execution.settle (some .aborted)
            else { execution with phase := .racing .scheduled none })
      | _ => none
  | .callbackBegins => execution.beginCallback
  | .callbackSettles failed =>
      execution.settleCallback (if failed then some .callback else none)
  | .lockFails failure => some (execution.failLock failure)
  | .raceSettles byLock => execution.settleRace byLock
  | .drained =>
      match execution.phase with
      | .draining (.settled _) failure =>
          some { execution with phase := .unwinding (some failure) true }
      | _ => none
  | .invokesRelease =>
      match execution.phase with
      | .unwinding errorToThrow lockFailed =>
          some { execution with
            phase := .releasing errorToThrow lockFailed
            history := .releaseInvoked execution.redisKey execution.lockId :: execution.history }
      | _ => none
  | .releaseReplies reply =>
      match execution.phase with
      | .releasing errorToThrow lockFailed =>
          some (execution.settle (outcome errorToThrow lockFailed reply))
      | _ => none

end Execution

/-- A promise that settles has released what was acquired, and a release comes with the key and the
id of the acquisition, and after the end of a callback that was started. -/
def ReleasesFirst (earlier : List Fact) : Fact → Prop
  | .settled => ∀ key lockId, .acquired key lockId ∈ earlier → .releaseInvoked key lockId ∈ earlier
  | .releaseInvoked key lockId =>
      .acquired key lockId ∈ earlier ∧ (.callbackStarted ∈ earlier → .callbackSettled ∈ earlier)
  | _ => True

/-- The signal has not fired when `runWithRedisLock` is called. -/
def EntersUnaborted (execution : Execution) : Event → Prop
  | .entersLock => execution.phase = .acquired → execution.signalAborted = false
  | _ => True

instance : DecidableRel EntersUnaborted := fun execution event => by
  unfold EntersUnaborted
  split <;> infer_instance

end ServerFoundation.Mutex.RedisMutex
