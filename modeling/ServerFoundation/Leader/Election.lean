import ServerFoundation.Leader.LeaderService

/-!
# One election at a time

A running service waits for one reply to ACQUIRE, or for one timeout, or is the leader with
one interval. Replies of earlier generations find another lock id and change nothing of
this. Every lock that was obtained is the current one, was lost, or has been released.
-/

namespace ServerFoundation.Leader

/-- Every lock that was obtained is the current one, was lost, or has been released since. -/
def Settled (current : Option ℕ) (history : List Fact) : Prop :=
  ∀ later lockId earlier, history = later ++ .obtained lockId :: earlier →
    current = some lockId ∨ .lost lockId ∈ later ∨ .releaseSent lockId ∈ later

namespace Settled

variable {current next : Option ℕ} {history : List Fact}

theorem mono (settled : Settled current history)
    (stays : ∀ lockId, current = some lockId → next = some lockId) : Settled next history :=
  fun later lockId earlier split => (settled later lockId earlier split).imp_left (stays lockId)

theorem split_cons {fact : Fact} {later earlier : List Fact} {lockId : ℕ}
    (split : fact :: history = later ++ .obtained lockId :: earlier) :
    (later = [] ∧ fact = .obtained lockId) ∨
      ∃ rest, later = fact :: rest ∧ history = rest ++ .obtained lockId :: earlier := by
  rcases later with _ | ⟨first, rest⟩
  · rw [List.nil_append, List.cons.injEq] at split
    exact .inl ⟨rfl, split.1⟩
  · rw [List.cons_append, List.cons.injEq] at split
    exact .inr ⟨rest, by rw [split.1], split.2⟩

theorem cons (settled : Settled current history) {fact : Fact}
    (other : ∀ lockId, fact ≠ .obtained lockId)
    (stays : ∀ lockId, current = some lockId →
      next = some lockId ∨ fact = .lost lockId ∨ fact = .releaseSent lockId) :
    Settled next (fact :: history) := by
  intro later lockId earlier split
  rcases split_cons split with ⟨-, isObtained⟩ | ⟨rest, rfl, inHistory⟩
  · exact absurd isObtained (other lockId)
  · rcases settled rest lockId earlier inHistory with isCurrent | lost | released
    · rcases stays lockId isCurrent with isNext | rfl | rfl
      · exact .inl isNext
      · exact .inr (.inl List.mem_cons_self)
      · exact .inr (.inr List.mem_cons_self)
    · exact .inr (.inl (List.mem_cons_of_mem _ lost))
    · exact .inr (.inr (List.mem_cons_of_mem _ released))

theorem obtained (settled : Settled none history) (lockId : ℕ) :
    Settled (some lockId) (.obtained lockId :: history) := by
  intro later stored earlier split
  rcases split_cons split with ⟨-, isObtained⟩ | ⟨rest, rfl, inHistory⟩
  · rw [Fact.obtained.injEq] at isObtained
    exact .inl (by rw [isObtained])
  · rcases settled rest stored earlier inHistory with isCurrent | lost | released
    · cases isCurrent
    · exact .inr (.inl (List.mem_cons_of_mem _ lost))
    · exact .inr (.inr (List.mem_cons_of_mem _ released))

theorem refused (settled : Settled current history) (lockId : ℕ) :
    Settled current (.releaseSent lockId :: .obtained lockId :: history) := by
  intro later stored earlier split
  rcases split_cons split with ⟨-, isObtained⟩ | ⟨rest, rfl, inRest⟩
  · cases isObtained
  · rcases split_cons inRest with ⟨rfl, isObtained⟩ | ⟨rest', rfl, inHistory⟩
    · rw [Fact.obtained.injEq] at isObtained
      exact .inr (.inr (by rw [isObtained]; exact List.mem_cons_self))
    · rcases settled rest' stored earlier inHistory with isCurrent | lost | released
      · exact .inl isCurrent
      · exact .inr (.inl (List.mem_cons_of_mem _ (List.mem_cons_of_mem _ lost)))
      · exact .inr (.inr (List.mem_cons_of_mem _ (List.mem_cons_of_mem _ released)))

end Settled

namespace LeaderService

/-- What a service waits for, in terms of its current lock id. -/
inductive Phase (service : LeaderService) : Prop
  | stopped (isStopped : service.running = false) (notLeader : service.isLeader = false)
      (noAcquire : service.lockId ∉ service.acquires) (noTimeout : service.timeouts = [])
      (noInterval : service.intervals = [])
  | acquiring (isRunning : service.running = true) (notLeader : service.isLeader = false)
      (oneAcquire : service.acquires.count service.lockId = 1) (noTimeout : service.timeouts = [])
      (noInterval : service.intervals = [])
  | waiting (timer : ℕ) (isRunning : service.running = true) (notLeader : service.isLeader = false)
      (noAcquire : service.lockId ∉ service.acquires) (oneTimeout : service.timeouts = [timer])
      (remembered : service.retryTimer = some timer) (noInterval : service.intervals = [])
  | leading (timer : ℕ) (isRunning : service.running = true) (leads : service.isLeader = true)
      (noAcquire : service.lockId ∉ service.acquires) (noTimeout : service.timeouts = [])
      (oneInterval : service.intervals = [(timer, service.lockId)])
      (remembered : service.renewTimer = some timer)

/-- The lock that the service leads with. -/
def heldLock (service : LeaderService) : Option ℕ :=
  if service.isLeader then some service.lockId else none

/-- The lock ids of acquisitions are not from the future. -/
structure Sound (service : LeaderService) : Prop where
  phase : service.Phase
  acquires_le : ∀ lockId ∈ service.acquires, lockId ≤ service.lockId
  settled : Settled service.heldLock service.history

section Operations

variable {service : LeaderService}

theorem not_mem_acquires_succ (acquires_le : ∀ lockId ∈ service.acquires, lockId ≤ service.lockId) :
    service.lockId + 1 ∉ service.acquires := fun member => by
  have atMost := acquires_le _ member
  omega

theorem Sound.create (retryOnCallbackError : Bool) : (create retryOnCallbackError).Sound where
  phase := .stopped rfl rfl List.not_mem_nil rfl rfl
  acquires_le _ member := absurd member List.not_mem_nil
  settled later lockId earlier split := by simp [LeaderService.create] at split

theorem Sound.tryAcquire (isRunning : service.running = true) (notLeader : service.isLeader = false)
    (noAcquire : service.lockId ∉ service.acquires) (noTimeout : service.timeouts = [])
    (noInterval : service.intervals = [])
    (acquires_le : ∀ lockId ∈ service.acquires, lockId ≤ service.lockId)
    (settled : Settled service.heldLock service.history) : service.tryAcquire.Sound := by
  have taken : service.tryAcquire =
      { service.record (.acquireSent service.lockId) with
        acquires := service.lockId :: service.acquires } := by
    simp [LeaderService.tryAcquire, isRunning]
  rw [taken]
  refine ⟨.acquiring isRunning notLeader ?_ noTimeout noInterval, ?_, ?_⟩
  · change (service.lockId :: service.acquires).count service.lockId = 1
    rw [List.count_cons_self, List.count_eq_zero_of_not_mem noAcquire]
  · exact List.forall_mem_cons.mpr ⟨Nat.le_refl _, acquires_le⟩
  · refine settled.cons (fun _ same => nomatch same) fun lockId isHeld => .inl isHeld

theorem Sound.start (sound : service.Sound) : service.start.Sound := by
  by_cases isRunning : service.running = true
  · rwa [LeaderService.start, if_pos isRunning]
  · rw [LeaderService.start, if_neg isRunning]
    cases sound.phase with
    | stopped isStopped notLeader noAcquire noTimeout noInterval =>
        exact .tryAcquire rfl notLeader noAcquire noTimeout noInterval sound.acquires_le
          sound.settled
    | acquiring running => exact absurd running isRunning
    | waiting timer running => exact absurd running isRunning
    | leading timer running => exact absurd running isRunning

theorem Phase.renewTimer_eq (phase : service.Phase) :
    ∀ entry ∈ service.intervals, service.renewTimer = some entry.1 := by
  intro entry member
  cases phase with
  | leading timer _ _ _ _ oneInterval remembered =>
      rw [oneInterval, List.mem_singleton] at member
      rw [remembered, member]
  | stopped _ _ _ _ noInterval => simp [noInterval] at member
  | acquiring _ _ _ _ noInterval => simp [noInterval] at member
  | waiting _ _ _ _ _ _ noInterval => simp [noInterval] at member

theorem Phase.retryTimer_eq (phase : service.Phase) :
    ∀ timer ∈ service.timeouts, service.retryTimer = some timer := by
  intro timer member
  cases phase with
  | waiting armed _ _ _ oneTimeout remembered =>
      rw [oneTimeout, List.mem_singleton] at member
      rw [remembered, member]
  | stopped _ _ _ noTimeout => simp [noTimeout] at member
  | acquiring _ _ _ noTimeout => simp [noTimeout] at member
  | leading _ _ _ _ noTimeout => simp [noTimeout] at member

theorem armed_cleared {Armed : Type} {id : Armed → ℕ} {armed : List Armed} {remembered : Option ℕ}
    (all : ∀ item ∈ armed, remembered = some (id item)) :
    (match remembered with
      | none => armed
      | some timer => armed.filter fun item => id item ≠ timer) = [] := by
  cases remembered with
  | none =>
      exact List.eq_nil_iff_forall_not_mem.mpr fun item member => nomatch all item member
  | some timer =>
      refine List.filter_eq_nil_iff.mpr fun item member => ?_
      simp [Option.some.inj (all item member)]

theorem clearRenewTimer_eq (all : ∀ entry ∈ service.intervals, service.renewTimer = some entry.1) :
    service.clearRenewTimer = { service with renewTimer := none, intervals := [] } := by
  have cleared := armed_cleared all
  unfold clearRenewTimer
  cases remembered : service.renewTimer with
  | none =>
      rw [remembered] at cleared
      have noInterval : service.intervals = [] := cleared
      simp only
      rw [← noInterval, ← remembered]
  | some timer =>
      rw [remembered] at cleared
      simp only [cleared]

theorem clearRetryTimer_eq (all : ∀ timer ∈ service.timeouts, service.retryTimer = some timer) :
    service.clearRetryTimer = { service with retryTimer := none, timeouts := [] } := by
  have cleared := armed_cleared all
  unfold clearRetryTimer
  cases remembered : service.retryTimer with
  | none =>
      rw [remembered] at cleared
      have noTimeout : service.timeouts = [] := cleared
      simp only
      rw [← noTimeout, ← remembered]
  | some timer =>
      rw [remembered] at cleared
      simp only [cleared]

theorem Sound.stop (sound : service.Sound) : service.stop.Sound := by
  have cleared : LeaderService.clearRetryTimer (LeaderService.clearRenewTimer { service with
      running := false, isLeader := false, lockId := service.lockId + 1 }) =
        { service with
          running := false, isLeader := false, lockId := service.lockId + 1
          renewTimer := none, intervals := [], retryTimer := none, timeouts := [] } := by
    rw [clearRenewTimer_eq, clearRetryTimer_eq]
    · exact sound.phase.retryTimer_eq
    · exact sound.phase.renewTimer_eq
  unfold LeaderService.stop
  simp only [cleared]
  have fresh := not_mem_acquires_succ sound.acquires_le
  have older : ∀ lockId ∈ service.acquires, lockId ≤ service.lockId + 1 := fun lockId member =>
    Nat.le_succ_of_le (sound.acquires_le lockId member)
  by_cases leads : service.isLeader = true
  · rw [if_pos leads]
    refine ⟨.stopped rfl rfl fresh rfl rfl, older, ?_⟩
    refine sound.settled.cons (fun _ same => nomatch same) fun lockId isHeld => ?_
    simp only [heldLock, leads, if_true, Option.some.injEq] at isHeld
    exact .inr (.inr (by rw [isHeld]))
  · rw [if_neg leads]
    refine ⟨.stopped rfl rfl fresh rfl rfl, older, sound.settled.mono fun lockId isHeld => ?_⟩
    simp [heldLock, leads] at isHeld

theorem handleLostLeadership_eq (phase : service.Phase) (leads : service.isLeader = true) :
    service.handleLostLeadership =
      { service with
        isLeader := false, lockId := service.lockId + 1, renewTimer := none, intervals := []
        retryTimer := some service.nextTimer, timeouts := [service.nextTimer]
        nextTimer := service.nextTimer + 1 } := by
  cases phase with
  | leading timer isRunning _ _ noTimeout oneInterval remembered =>
      have cleared : LeaderService.clearRenewTimer { service with isLeader := false } =
          { service with isLeader := false, renewTimer := none, intervals := [] } := by
        rw [clearRenewTimer_eq]
        intro entry member
        rw [oneInterval, List.mem_singleton] at member
        rw [remembered, member]
      unfold handleLostLeadership
      rw [if_neg (by rw [leads]; exact Bool.noConfusion), cleared]
      simp only [isRunning, armRetryTimer, noTimeout, if_true]
  | stopped _ notLeader => rw [notLeader] at leads; cases leads
  | acquiring _ notLeader => rw [notLeader] at leads; cases leads
  | waiting _ _ notLeader => rw [notLeader] at leads; cases leads

theorem Phase.isRunning (phase : service.Phase) (leads : service.isLeader = true) :
    service.running = true := by
  cases phase with
  | leading timer isRunning => exact isRunning
  | stopped _ notLeader => rw [notLeader] at leads; cases leads
  | acquiring _ notLeader => rw [notLeader] at leads; cases leads
  | waiting _ _ notLeader => rw [notLeader] at leads; cases leads

theorem Sound.relinquish (sound : service.Sound) (leads : service.isLeader = true) {fact : Fact}
    (settles : fact = .lost service.lockId ∨ fact = .releaseSent service.lockId) :
    (service.handleLostLeadership.record fact).Sound := by
  rw [handleLostLeadership_eq sound.phase leads]
  refine ⟨.waiting service.nextTimer (sound.phase.isRunning leads) rfl
    (not_mem_acquires_succ sound.acquires_le) rfl rfl
    (by simp [LeaderService.record]), ?_, ?_⟩
  · exact fun lockId member => Nat.le_succ_of_le (sound.acquires_le lockId member)
  · have notObtained : ∀ lockId, fact ≠ .obtained lockId := by
      rintro lockId rfl
      rcases settles with same | same <;> cases same
    refine sound.settled.cons notObtained fun lockId isHeld => ?_
    simp only [heldLock, leads, if_true, Option.some.injEq] at isHeld
    rw [← isHeld]
    exact .inr settles

theorem handleLostLeadership_record (fact : Fact) :
    (service.record fact).handleLostLeadership = service.handleLostLeadership.record fact := by
  unfold handleLostLeadership clearRenewTimer record armRetryTimer
  rcases service with ⟨_, _, _ | _, _ | _, _ | _, _⟩ <;> rfl

theorem Phase.keep (phase : service.Phase) (renews callbacks : List ℕ) (history : List Fact) :
    Phase { service with renews := renews, callbacks := callbacks, history := history } := by
  cases phase with
  | stopped isStopped notLeader noAcquire noTimeout noInterval =>
      exact .stopped isStopped notLeader noAcquire noTimeout noInterval
  | acquiring isRunning notLeader oneAcquire noTimeout noInterval =>
      exact .acquiring isRunning notLeader oneAcquire noTimeout noInterval
  | waiting timer isRunning notLeader noAcquire oneTimeout remembered noInterval =>
      exact .waiting timer isRunning notLeader noAcquire oneTimeout remembered noInterval
  | leading timer isRunning leads noAcquire noTimeout oneInterval remembered =>
      exact .leading timer isRunning leads noAcquire noTimeout oneInterval remembered

theorem Sound.keep (sound : service.Sound) (renews callbacks : List ℕ) :
    Sound { service with renews := renews, callbacks := callbacks } where
  phase := sound.phase.keep renews callbacks service.history
  acquires_le := sound.acquires_le
  settled := sound.settled

theorem Sound.record (sound : service.Sound) {fact : Fact}
    (other : ∀ lockId, fact ≠ .obtained lockId) : (service.record fact).Sound where
  phase := sound.phase.keep _ _ _
  acquires_le := sound.acquires_le
  settled := sound.settled.cons other fun _ isHeld => .inl isHeld

theorem Sound.renewReplied (sound : service.Sound) (lockId : ℕ) (result : Option Bool) :
    (service.renewReplied lockId result).Sound := by
  unfold LeaderService.renewReplied
  split
  · exact sound
  · rename_i failed
    rw [not_or, not_not] at failed
    rw [handleLostLeadership_record]
    by_cases leads : service.isLeader = true
    · exact sound.relinquish leads (.inl (by rw [failed.2]))
    · have unchanged : service.handleLostLeadership = service :=
        if_pos (Bool.eq_false_iff.mpr leads)
      rw [unchanged]
      exact sound.record fun _ same => nomatch same

theorem Sound.callbackSettled (sound : service.Sound) (lockId : ℕ) (failed : Bool) :
    (service.callbackSettled lockId failed).Sound := by
  unfold LeaderService.callbackSettled
  split
  · rename_i relinquishes
    exact sound.relinquish relinquishes.2.2.1 (.inr (by rw [relinquishes.2.2.2]))
  · exact sound

end Operations

section Replies

variable {service : LeaderService} {lockId : ℕ}

theorem Phase.erase_stale (phase : service.Phase) (stale : service.lockId ≠ lockId) :
    Phase { service with acquires := service.acquires.erase lockId } := by
  have notInErased : service.lockId ∉ service.acquires →
      service.lockId ∉ service.acquires.erase lockId := mt List.mem_of_mem_erase
  cases phase with
  | stopped isStopped notLeader noAcquire noTimeout noInterval =>
      exact .stopped isStopped notLeader (notInErased noAcquire) noTimeout noInterval
  | acquiring isRunning notLeader oneAcquire noTimeout noInterval =>
      refine .acquiring isRunning notLeader ?_ noTimeout noInterval
      exact (List.count_erase_of_ne stale).trans oneAcquire
  | waiting timer isRunning notLeader noAcquire oneTimeout remembered noInterval =>
      exact .waiting timer isRunning notLeader (notInErased noAcquire) oneTimeout remembered
        noInterval
  | leading timer isRunning leads noAcquire noTimeout oneInterval remembered =>
      exact .leading timer isRunning leads (notInErased noAcquire) noTimeout oneInterval remembered

theorem Sound.erase_stale (sound : service.Sound) (stale : service.lockId ≠ lockId) :
    Sound { service with acquires := service.acquires.erase lockId } where
  phase := sound.phase.erase_stale stale
  acquires_le other member := sound.acquires_le other (List.mem_of_mem_erase member)
  settled := sound.settled

theorem Phase.of_mem_acquires (phase : service.Phase)
    (inFlight : service.lockId ∈ service.acquires) :
    service.running = true ∧ service.isLeader = false ∧
      service.lockId ∉ service.acquires.erase service.lockId ∧ service.timeouts = [] ∧
      service.intervals = [] := by
  cases phase with
  | stopped _ _ noAcquire => exact absurd inFlight noAcquire
  | acquiring isRunning notLeader oneAcquire noTimeout noInterval =>
      refine ⟨isRunning, notLeader, ?_, noTimeout, noInterval⟩
      rw [← List.count_eq_zero, List.count_erase_self, oneAcquire]
  | waiting _ _ _ noAcquire => exact absurd inFlight noAcquire
  | leading _ _ _ noAcquire => exact absurd inFlight noAcquire

theorem Sound.retryLater (isRunning : service.running = true) (notLeader : service.isLeader = false)
    (noAcquire : service.lockId ∉ service.acquires) (noTimeout : service.timeouts = [])
    (noInterval : service.intervals = [])
    (acquires_le : ∀ lockId ∈ service.acquires, lockId ≤ service.lockId)
    (settled : Settled service.heldLock service.history) :
    (service.retryLater service.lockId).Sound := by
  rw [LeaderService.retryLater, if_pos ⟨isRunning, rfl⟩]
  have oneTimeout : service.armRetryTimer.timeouts = [service.nextTimer] := by
    rw [armRetryTimer, noTimeout]
  exact ⟨.waiting service.nextTimer isRunning notLeader noAcquire oneTimeout rfl noInterval,
    acquires_le, settled⟩

theorem Sound.acquireReplied_current (sound : service.Sound)
    (inFlight : service.lockId ∈ service.acquires) (result : Option Bool) :
    (LeaderService.acquireReplied
      { service with acquires := service.acquires.erase service.lockId } service.lockId
      result).Sound := by
  rcases sound.phase.of_mem_acquires inFlight with
    ⟨isRunning, notLeader, noAcquire, noTimeout, noInterval⟩
  have acquires_le : ∀ lockId ∈ service.acquires.erase service.lockId, lockId ≤ service.lockId :=
    fun lockId member => sound.acquires_le lockId (List.mem_of_mem_erase member)
  rcases result with _ | _ | _
  · rw [LeaderService.acquireReplied, if_neg (not_not.mpr rfl)]
    exact .retryLater isRunning notLeader noAcquire noTimeout noInterval acquires_le sound.settled
  · rw [LeaderService.acquireReplied]
    exact .retryLater isRunning notLeader noAcquire noTimeout noInterval acquires_le sound.settled
  · have wanted : ¬(service.running = false ∨ service.lockId ≠ service.lockId) := by
      simp [isRunning]
    simp only [LeaderService.acquireReplied, LeaderService.record]
    rw [if_neg wanted]
    have oneInterval : (service.nextTimer, service.lockId) :: service.intervals =
        [(service.nextTimer, service.lockId)] := by rw [noInterval]
    have settled := sound.settled
    simp only [heldLock, notLeader, Bool.false_eq_true, if_false] at settled
    exact ⟨.leading service.nextTimer isRunning rfl noAcquire noTimeout oneInterval rfl,
      acquires_le, settled.obtained service.lockId⟩

theorem Sound.acquireReplied (sound : service.Sound) (inFlight : lockId ∈ service.acquires)
    (result : Option Bool) :
    (LeaderService.acquireReplied { service with acquires := service.acquires.erase lockId } lockId
      result).Sound := by
  by_cases current : service.lockId = lockId
  · subst current
    exact sound.acquireReplied_current inFlight result
  · have erased := sound.erase_stale current
    rcases result with _ | _ | _
    · rw [LeaderService.acquireReplied, if_pos current]
      exact erased
    · rw [LeaderService.acquireReplied, LeaderService.retryLater, if_neg fun both => current both.2]
      exact erased
    · simp only [LeaderService.acquireReplied]
      rw [if_pos (.inr current)]
      exact ⟨erased.phase.keep _ _ _, erased.acquires_le, erased.settled.refused lockId⟩

theorem Sound.retryFires (sound : service.Sound) {timer : ℕ} (armed : timer ∈ service.timeouts) :
    (LeaderService.tryAcquire { service with timeouts := service.timeouts.erase timer }).Sound := by
  cases sound.phase with
  | waiting only isRunning notLeader noAcquire oneTimeout remembered noInterval =>
      have isOnly : timer = only := by simpa [oneTimeout] using armed
      have noTimeout : service.timeouts.erase timer = [] := by simp [oneTimeout, isOnly]
      exact .tryAcquire isRunning notLeader noAcquire noTimeout noInterval sound.acquires_le
        sound.settled
  | stopped _ _ _ noTimeout => simp [noTimeout] at armed
  | acquiring _ _ _ noTimeout => simp [noTimeout] at armed
  | leading _ _ _ _ noTimeout => simp [noTimeout] at armed

theorem Sound.renewalTicks (sound : service.Sound) (lockId : ℕ) :
    (service.renewalTicks lockId).Sound := by
  unfold LeaderService.renewalTicks
  split
  · exact sound
  · have recorded : (service.record (.renewSent lockId)).Sound :=
      sound.record fun _ same => nomatch same
    exact recorded.keep (lockId :: service.renews) service.callbacks

end Replies

theorem Sound.step {service after : LeaderService} (sound : service.Sound) {event : Event}
    (stepped : service.step event = some after) : after.Sound := by
  cases event with
  | start =>
      cases stepped
      exact sound.start
  | stop =>
      cases stepped
      exact sound.stop
  | acquireReplies lockId result =>
      rw [LeaderService.step, Option.ite_none_right_eq_some] at stepped
      rcases stepped with ⟨inFlight, same⟩
      cases same
      exact sound.acquireReplied inFlight result
  | retryFires timer =>
      rw [LeaderService.step, Option.ite_none_right_eq_some] at stepped
      rcases stepped with ⟨armed, same⟩
      cases same
      exact sound.retryFires armed
  | renewalTicks timer =>
      rcases Option.map_eq_some_iff.mp stepped with ⟨lockId, -, same⟩
      subst same
      exact sound.renewalTicks lockId
  | renewReplies lockId result =>
      rw [LeaderService.step, Option.ite_none_right_eq_some] at stepped
      rcases stepped with ⟨inFlight, same⟩
      cases same
      exact (sound.keep (service.renews.erase lockId) service.callbacks).renewReplied lockId result
  | callbackSettles lockId failed =>
      rw [LeaderService.step, Option.ite_none_right_eq_some] at stepped
      rcases stepped with ⟨inFlight, same⟩
      cases same
      exact (sound.keep service.renews (service.callbacks.erase lockId)).callbackSettled lockId
        failed

theorem sound_of_reachable {service : LeaderService} (reachable : leaderSystem.Reachable service) :
    service.Sound := by
  refine reachable.invariant Sound ?_ fun before event after _ sound stepped => sound.step stepped
  rintro service ⟨retryOnCallbackError, rfl⟩
  exact .create retryOnCallbackError

/-- One attempt for the current lock id is in flight. -/
def Acquires (service : LeaderService) : Prop := service.acquires.count service.lockId = 1

/-- One timeout is armed. -/
def Waits (service : LeaderService) : Prop := ∃ timer, service.timeouts = [timer]

/-- The service leads, with one interval for the current lock id. -/
def Leads (service : LeaderService) : Prop :=
  service.isLeader = true ∧ ∃ timer, service.intervals = [(timer, service.lockId)]

/-- No attempt for the current lock id, no timeout, no leadership and no interval. -/
structure Idle (service : LeaderService) : Prop where
  acquires : service.acquires.count service.lockId = 0
  timeouts : service.timeouts = []
  isLeader : service.isLeader = false
  intervals : service.intervals = []

/-- A running service keeps exactly one activity alive and a stopped one none, and a lock that is
neither held nor lost has been released. -/
theorem oneActivity {service : LeaderService} (reachable : leaderSystem.Reachable service) :
    (service.running = true →
      (service.Acquires ∧ service.timeouts = [] ∧ service.isLeader = false ∧
        service.intervals = []) ∨
      (service.Waits ∧ service.acquires.count service.lockId = 0 ∧ service.isLeader = false ∧
        service.intervals = []) ∨
      (service.Leads ∧ service.acquires.count service.lockId = 0 ∧ service.timeouts = [])) ∧
      (service.running = false → service.Idle) ∧
      ∀ later lockId earlier, service.history = later ++ .obtained lockId :: earlier →
        ¬(service.isLeader = true ∧ service.lockId = lockId) → .lost lockId ∉ later →
          .releaseSent lockId ∈ later := by
  have sound := sound_of_reachable reachable
  refine ⟨fun running => ?_, fun stopped => ?_, ?_⟩
  · cases sound.phase with
    | stopped isStopped => rw [running] at isStopped; cases isStopped
    | acquiring _ notLeader oneAcquire noTimeout noInterval =>
        exact .inl ⟨oneAcquire, noTimeout, notLeader, noInterval⟩
    | waiting timer _ notLeader noAcquire oneTimeout _ noInterval =>
        exact .inr (.inl ⟨⟨timer, oneTimeout⟩, List.count_eq_zero_of_not_mem noAcquire, notLeader,
          noInterval⟩)
    | leading timer _ leads noAcquire noTimeout oneInterval =>
        exact .inr (.inr ⟨⟨leads, timer, oneInterval⟩, List.count_eq_zero_of_not_mem noAcquire,
          noTimeout⟩)
  · cases sound.phase with
    | stopped _ notLeader noAcquire noTimeout noInterval =>
        exact ⟨List.count_eq_zero_of_not_mem noAcquire, noTimeout, notLeader, noInterval⟩
    | acquiring isRunning => rw [stopped] at isRunning; cases isRunning
    | waiting timer isRunning => rw [stopped] at isRunning; cases isRunning
    | leading timer isRunning => rw [stopped] at isRunning; cases isRunning
  · intro later lockId earlier split notHeld notLost
    rcases sound.settled later lockId earlier split with held | lost | released
    · unfold heldLock at held
      split at held
      · rename_i leads
        exact absurd ⟨leads, Option.some.inj held⟩ notHeld
      · cases held
    · exact absurd lost notLost
    · exact released

/-- A restart overtakes the reply of the first attempt, whose lock is released. -/
theorem oneActivity_restart :
    ∃ service : LeaderService,
      [Event.start, .stop, .start, .acquireReplies 0 (some true)].foldlM LeaderService.step
        (.create true) = some service ∧
      .releaseSent 0 ∈ service.history ∧
        (service.Acquires ∨ service.Waits ∨ service.Leads) := by
  have created : leaderSystem.Reachable (.create true) := .start ⟨true, rfl⟩
  refine ⟨_, rfl, ?_⟩
  have reachable := created.followM (fun _ _ _ taken => taken)
    (rfl : [Event.start, .stop, .start, .acquireReplies 0 (some true)].foldlM LeaderService.step
      (.create true) = some _)
  rcases oneActivity reachable with ⟨whileRunning, -, released⟩
  have release : .releaseSent 0 ∈ [Fact.releaseSent 0] := by
    apply released [.releaseSent 0] 0 _ rfl
    · rintro ⟨leads, -⟩
      cases leads
    · decide
  refine ⟨List.mem_append_left _ release, ?_⟩
  rcases whileRunning rfl with one | one | one
  · exact .inl one.1
  · exact .inr (.inl one.1)
  · exact .inr (.inr one.1)

end LeaderService

end ServerFoundation.Leader
