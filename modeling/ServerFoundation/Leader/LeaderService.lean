import ServerFoundation.Data.TransitionSystem

/-!
# The leader service

One step is what the service does between two `await`s: a call of `start` or `stop`, the
reply to a command, the end of the became-leader callback, or the turn of a timer. Timers
are kept beside the handles that the service remembers, so that a timer whose handle was
overwritten would still be there. A `randomUUID()` is the next number.
-/

namespace ServerFoundation.Leader

/-- What the service has done and learned about locks. -/
inductive Fact where
  | acquireSent (lockId : ℕ)
  | obtained (lockId : ℕ)
  | renewSent (lockId : ℕ)
  /-- A reply to RENEW has ended the leadership. -/
  | lost (lockId : ℕ)
  | releaseSent (lockId : ℕ)
deriving DecidableEq, Repr

/-- The service, its timers, the commands and callbacks that have not settled, and what has
happened, the newest fact first. -/
structure LeaderService where
  retryOnCallbackError : Bool
  lockId : ℕ
  isLeader : Bool
  running : Bool
  renewTimer : Option ℕ
  retryTimer : Option ℕ
  nextTimer : ℕ
  /-- The timeouts of `tryAcquire`. -/
  timeouts : List ℕ
  /-- The intervals of renewals, with the id they were started for. -/
  intervals : List (ℕ × ℕ)
  acquires : List ℕ
  renews : List ℕ
  callbacks : List ℕ
  history : List Fact
deriving DecidableEq, Repr

/-- A call, a timer, or the end of what was awaited. -/
inductive Event where
  | start
  | stop
  /-- A reply to ACQUIRE; there is none if the command failed. -/
  | acquireReplies (lockId : ℕ) (result : Option Bool)
  | retryFires (timer : ℕ)
  | renewalTicks (timer : ℕ)
  | renewReplies (lockId : ℕ) (result : Option Bool)
  | callbackSettles (lockId : ℕ) (failed : Bool)
deriving DecidableEq, Repr

namespace LeaderService

/-- A service that has not been started. -/
def create (retryOnCallbackError : Bool) : LeaderService where
  retryOnCallbackError := retryOnCallbackError
  lockId := 0
  isLeader := false
  running := false
  renewTimer := none
  retryTimer := none
  nextTimer := 0
  timeouts := []
  intervals := []
  acquires := []
  renews := []
  callbacks := []
  history := []

/-- A fact is remembered. -/
def record (service : LeaderService) (fact : Fact) : LeaderService :=
  { service with history := fact :: service.history }

/-- `clearInterval(this.renewTimer)`. -/
def clearRenewTimer (service : LeaderService) : LeaderService :=
  match service.renewTimer with
  | none => service
  | some timer =>
      { service with
        renewTimer := none, intervals := service.intervals.filter fun entry => entry.1 ≠ timer }

/-- `clearTimeout(this.retryTimer)`. -/
def clearRetryTimer (service : LeaderService) : LeaderService :=
  match service.retryTimer with
  | none => service
  | some timer =>
      { service with
        retryTimer := none, timeouts := service.timeouts.filter fun armed => armed ≠ timer }

/-- `setTimeout(() => this.tryAcquire(), this.retryDelayMs)`. -/
def armRetryTimer (service : LeaderService) : LeaderService :=
  { service with
    retryTimer := some service.nextTimer
    timeouts := service.nextTimer :: service.timeouts
    nextTimer := service.nextTimer + 1 }

/-- `startRenewal`. -/
def startRenewal (service : LeaderService) : LeaderService :=
  { service with
    renewTimer := some service.nextTimer
    intervals := (service.nextTimer, service.lockId) :: service.intervals
    nextTimer := service.nextTimer + 1 }

/-- `tryAcquire` up to the reply. -/
def tryAcquire (service : LeaderService) : LeaderService :=
  if service.running = false then service
  else
    { service.record (.acquireSent service.lockId) with
      acquires := service.lockId :: service.acquires }

/-- `start`. -/
def start (service : LeaderService) : LeaderService :=
  -- A second `start` throws.
  if service.running then service else { service with running := true }.tryAcquire

/-- `stop`. -/
def stop (service : LeaderService) : LeaderService :=
  let stopped := { service with
    running := false, isLeader := false, lockId := service.lockId + 1 }
  let cleared := stopped.clearRenewTimer.clearRetryTimer
  if service.isLeader then cleared.record (.releaseSent service.lockId) else cleared

/-- `handleLostLeadership`. -/
def handleLostLeadership (service : LeaderService) : LeaderService :=
  if service.isLeader = false then service
  else
    let lost := { { service with isLeader := false }.clearRenewTimer with
      lockId := service.lockId + 1 }
    if service.running then lost.armRetryTimer else lost

/-- The end of `tryAcquire`. -/
def retryLater (service : LeaderService) (lockId : ℕ) : LeaderService :=
  if service.running = true ∧ service.lockId = lockId then service.armRetryTimer else service

/-- `tryAcquire` from the reply to the call of the callback. -/
def acquireReplied (service : LeaderService) (lockId : ℕ) : Option Bool → LeaderService
  | some true =>
      let obtained := service.record (.obtained lockId)
      if service.running = false ∨ service.lockId ≠ lockId then
        obtained.record (.releaseSent lockId)
      else
        { { obtained with isLeader := true }.startRenewal with
          callbacks := lockId :: service.callbacks }
  | some false => service.retryLater lockId
  | none => if service.lockId ≠ lockId then service else service.retryLater lockId

/-- The turn of an interval. -/
def renewalTicks (service : LeaderService) (lockId : ℕ) : LeaderService :=
  if service.running = false ∨ service.isLeader = false ∨ service.lockId ≠ lockId then service
  else { service.record (.renewSent lockId) with renews := lockId :: service.renews }

/-- The reply to a renewal arrives. -/
def renewReplied (service : LeaderService) (lockId : ℕ) (result : Option Bool) : LeaderService :=
  if result = some true ∨ service.lockId ≠ lockId then service
  else (service.record (.lost lockId)).handleLostLeadership

/-- `tryAcquire` from the end of the callback. -/
def callbackSettled (service : LeaderService) (lockId : ℕ) (failed : Bool) : LeaderService :=
  if failed = true ∧ service.retryOnCallbackError = true ∧ service.isLeader = true ∧
      service.lockId = lockId then
    service.handleLostLeadership.record (.releaseSent lockId)
  else service

/-- What an event does to the service. -/
def step (service : LeaderService) : Event → Option LeaderService
  | .start => some service.start
  | .stop => some service.stop
  | .acquireReplies lockId result =>
      if lockId ∈ service.acquires then
        some ({ service with acquires := service.acquires.erase lockId }.acquireReplied lockId
          result)
      else none
  | .retryFires timer =>
      if timer ∈ service.timeouts then
        some { service with timeouts := service.timeouts.erase timer }.tryAcquire
      else none
  | .renewalTicks timer => (service.intervals.lookup timer).map service.renewalTicks
  | .renewReplies lockId result =>
      if lockId ∈ service.renews then
        some ({ service with renews := service.renews.erase lockId }.renewReplied lockId result)
      else none
  | .callbackSettles lockId failed =>
      if lockId ∈ service.callbacks then
        some ({ service with
          callbacks := service.callbacks.erase lockId }.callbackSettled lockId failed)
      else none

end LeaderService

/-- A service from its construction on. -/
def leaderSystem : TransitionSystem LeaderService Event where
  Init service := ∃ retryOnCallbackError, service = .create retryOnCallbackError
  Step before event after := before.step event = some after

end ServerFoundation.Leader
