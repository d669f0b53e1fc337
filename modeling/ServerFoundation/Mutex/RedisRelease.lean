import ServerFoundation.Mutex.RedisMutex

/-!
# When an acquired Redis mutex is released

Before the call of `runWithRedisLock` nothing but the acquisition can have happened, and
from then on every way out leads through the `finally` block. What remains is the check of
the signal in between: a run releases what it acquired exactly if the signal has not fired
by then.
-/

namespace ServerFoundation.Mutex.RedisMutex

namespace Execution

/-- What has happened when the callback has not begun to run, or has come to its end. -/
def AtRest (execution : Execution) (history : List Fact) : Prop :=
  history = [.acquired execution.redisKey execution.lockId] ∨
    history = [.callbackSettled, .callbackStarted,
      .acquired execution.redisKey execution.lockId]

/-- What has happened while the lock is held. -/
def Holding (execution : Execution) : Callback → Prop
  | .scheduled => execution.history = [.acquired execution.redisKey execution.lockId]
  | .running =>
      execution.history = [.callbackStarted, .acquired execution.redisKey execution.lockId]
  | .settled _ => execution.AtRest execution.history

/-- What has happened in each phase. -/
def Sound (execution : Execution) : Prop :=
  match execution.phase with
  | .acquiring _ | .sleeping _ => execution.history = []
  | .acquired => execution.history = [.acquired execution.redisKey execution.lockId]
  | .racing callback _ | .draining callback _ => execution.Holding callback
  | .unwinding _ _ => execution.AtRest execution.history
  | .releasing _ _ =>
      ∃ earlier, execution.AtRest earlier ∧
        execution.history = .releaseInvoked execution.redisKey execution.lockId :: earlier
  | .settled _ => True

/-- A step adds at most one fact, which is in order exactly if the step is. -/
structure Extends (before : Execution) (inOrder : Prop) (after : Execution) : Prop where
  sound : after.Sound
  adds : (after.history = before.history ∧ inOrder) ∨
    ∃ fact, after.history = fact :: before.history ∧ (ReleasesFirst before.history fact ↔ inOrder)

variable {before after : Execution}

theorem Extends.quiet (sound : after.Sound) (same : after.history = before.history) :
    Extends before True after :=
  ⟨sound, .inl ⟨same, trivial⟩⟩

theorem extends_settle (nothing : before.history = []) (outcome : Option Failure) :
    Extends before True (before.settle outcome) := by
  refine ⟨trivial, .inr ⟨.settled, rfl, ?_⟩⟩
  rw [nothing]
  exact iff_of_true nofun trivial

theorem extends_attempt (nothing : before.history = []) (attempts : ℕ) :
    Extends before True (before.attempt attempts) := by
  unfold attempt
  split
  · exact extends_settle nothing _
  · split
    · exact extends_settle nothing _
    · exact .quiet nothing rfl

theorem extends_sleep (nothing : before.history = []) (attempts : ℕ) :
    Extends before True (before.sleep attempts) := by
  unfold sleep
  split
  · exact extends_settle nothing _
  · exact .quiet nothing rfl

section

variable (sound : before.Sound)
include sound

theorem Sound.failLock (failure : Failure) :
    (before.failLock failure).Sound ∧ (before.failLock failure).history = before.history := by
  unfold Sound at sound
  unfold Execution.failLock
  split
  all_goals
    rename_i isPhase
    simp only [isPhase] at sound
  · exact ⟨sound, rfl⟩
  · exact ⟨sound, rfl⟩
  · exact ⟨sound, rfl⟩
  · refine ⟨?_, rfl⟩
    unfold Sound
    exact sound

theorem Sound.abort : Extends before True before.abort := by
  have flagged : { before with signalAborted := true }.Sound := sound
  unfold Execution.abort
  simp only
  split
  · rename_i isPhase
    have nothing : before.history = [] := by
      unfold Sound at sound
      rwa [isPhase] at sound
    have settled := (extends_settle nothing (some .aborted)).adds
    exact ⟨trivial, settled⟩
  · rcases flagged.failLock .aborted with ⟨failed, same⟩
    exact .quiet failed same
  · exact .quiet flagged rfl

theorem Sound.beginCallback (begins : before.beginCallback = some after) :
    Extends before True after := by
  unfold Sound at sound
  unfold Execution.beginCallback at begins
  split at begins
  · rename_i isPhase
    rw [isPhase] at sound
    cases begins
    exact ⟨congrArg (Fact.callbackStarted :: ·) sound,
      .inr ⟨.callbackStarted, rfl, iff_of_true trivial trivial⟩⟩
  · rename_i isPhase
    rw [isPhase] at sound
    cases begins
    exact .quiet (.inl sound) rfl
  · rename_i isPhase
    rw [isPhase] at sound
    cases begins
    exact .quiet (.inl sound) rfl
  · cases begins

theorem Sound.settleCallback {failure : Option Failure}
    (settles : before.settleCallback failure = some after) : Extends before True after := by
  unfold Sound at sound
  unfold Execution.settleCallback at settles
  simp only at settles
  split at settles
  · rename_i isPhase
    rw [isPhase] at sound
    cases settles
    exact ⟨.inr (congrArg (Fact.callbackSettled :: ·) sound),
      .inr ⟨.callbackSettled, rfl, iff_of_true trivial trivial⟩⟩
  · rename_i isPhase
    rw [isPhase] at sound
    cases settles
    exact ⟨.inr (congrArg (Fact.callbackSettled :: ·) sound),
      .inr ⟨.callbackSettled, rfl, iff_of_true trivial trivial⟩⟩
  · cases settles

theorem Sound.settleRace {byLock : Bool} (settles : before.settleRace byLock = some after) :
    Extends before True after := by
  unfold Sound at sound
  unfold Execution.settleRace at settles
  split at settles
  · rename_i isPhase
    rw [isPhase] at sound
    cases settles
    exact .quiet sound rfl
  · rename_i isPhase
    rw [isPhase] at sound
    cases settles
    exact .quiet sound rfl
  · cases settles

theorem Sound.entersLock (enters : before.step .entersLock = some after) :
    Extends before (EntersUnaborted before .entersLock) after := by
  unfold Sound at sound
  unfold step at enters
  simp only at enters
  split at enters
  · rename_i isPhase
    rw [isPhase] at sound
    cases enters
    split
    · rename_i aborted
      refine ⟨trivial, .inr ⟨.settled, rfl, ?_⟩⟩
      refine iff_of_false ?_ ?_
      · intro released
        have inHistory := released before.redisKey before.lockId (by simp [sound])
        simp [sound] at inHistory
      · intro unaborted
        rw [unaborted isPhase] at aborted
        cases aborted
    · rename_i unaborted
      exact ⟨sound, .inl ⟨rfl, fun _ => by simpa using unaborted⟩⟩
  · cases enters

end

theorem AtRest.releases {history : List Fact} (atRest : before.AtRest history) :
    ReleasesFirst history (.releaseInvoked before.redisKey before.lockId) := by
  rcases atRest with rfl | rfl
  · exact ⟨List.mem_cons_self, by simp⟩
  · exact ⟨by simp, by simp⟩

theorem AtRest.settles {history : List Fact} (atRest : before.AtRest history) :
    ReleasesFirst (.releaseInvoked before.redisKey before.lockId :: history) .settled := by
  intro key lockId acquired
  rcases atRest with rfl | rfl
  · simpa using acquired
  · simpa using acquired

theorem Sound.step (sound : before.Sound) {event : Event} (steps : before.step event = some after) :
    Extends before (EntersUnaborted before event) after := by
  cases event with
  | abort =>
      cases steps
      exact sound.abort
  | acquireReplies acquisition =>
      unfold Sound at sound
      simp only [Execution.step] at steps
      split at steps
      · rename_i isPhase
        rw [isPhase] at sound
        cases steps
        split
        · exact ⟨congrArg (Fact.acquired before.redisKey before.lockId :: ·) sound,
            .inr ⟨_, rfl, iff_of_true trivial trivial⟩⟩
        · split
          · exact extends_sleep sound _
          · exact extends_attempt sound _
      · cases steps
  | acquireFails connectionClosed =>
      unfold Sound at sound
      simp only [Execution.step] at steps
      split at steps
      · rename_i isPhase
        rw [isPhase] at sound
        cases steps
        split
        · exact extends_settle sound _
        · exact extends_sleep sound _
      · cases steps
  | wakes =>
      unfold Sound at sound
      simp only [Execution.step] at steps
      split at steps
      · rename_i isPhase
        rw [isPhase] at sound
        cases steps
        exact extends_attempt sound _
      · cases steps
  | entersLock => exact sound.entersLock steps
  | callbackBegins => exact sound.beginCallback steps
  | callbackSettles failed => exact sound.settleCallback steps
  | lockFails failure =>
      cases steps
      rcases sound.failLock failure with ⟨failed, same⟩
      exact .quiet failed same
  | raceSettles byLock => exact sound.settleRace steps
  | drained =>
      unfold Sound at sound
      simp only [Execution.step] at steps
      split at steps
      · rename_i isPhase
        rw [isPhase] at sound
        cases steps
        exact .quiet sound rfl
      · cases steps
  | invokesRelease =>
      unfold Sound at sound
      simp only [Execution.step] at steps
      split at steps
      · rename_i isPhase
        rw [isPhase] at sound
        cases steps
        exact ⟨⟨before.history, sound, rfl⟩,
          .inr ⟨_, rfl, iff_of_true (AtRest.releases sound) trivial⟩⟩
      · cases steps
  | releaseReplies reply =>
      unfold Sound at sound
      simp only [Execution.step] at steps
      split at steps
      · rename_i isPhase
        rw [isPhase] at sound
        cases steps
        rcases sound with ⟨earlier, atRest, isHistory⟩
        refine ⟨trivial, .inr ⟨.settled, rfl, iff_of_true ?_ trivial⟩⟩
        rw [isHistory]
        exact atRest.settles
      · cases steps

theorem sound_call (redisKey lockId : String) (retryCount : ℕ) (signalAborted : Bool) :
    (call redisKey lockId retryCount signalAborted).Sound ∧
      TransitionSystem.Justified ReleasesFirst
        (call redisKey lockId retryCount signalAborted).history := by
  unfold call attempt
  split
  · exact ⟨trivial, nofun, trivial⟩
  · split
    · exact ⟨trivial, nofun, trivial⟩
    · exact ⟨rfl, trivial⟩

theorem Sound.justified_iff (sound : before.Sound) {events : List Event}
    (run : events.foldlM Execution.step before = some after) :
    TransitionSystem.Justified ReleasesFirst after.history ↔
      TransitionSystem.Justified ReleasesFirst before.history ∧
        EachTurn Execution.step EntersUnaborted events before := by
  induction events generalizing before with
  | nil =>
      cases run
      exact (and_iff_left trivial).symm
  | cons event events ih =>
      rw [List.foldlM_cons] at run
      rcases Option.bind_eq_some_iff.mp run with ⟨between, taken, rest⟩
      have extended := sound.step taken
      have first : TransitionSystem.Justified ReleasesFirst between.history ↔
          TransitionSystem.Justified ReleasesFirst before.history ∧
            EntersUnaborted before event := by
        rcases extended.adds with ⟨same, inOrder⟩ | ⟨fact, same, fact_iff⟩
        · rw [same]
          exact (and_iff_left inOrder).symm
        · rw [same, ← fact_iff]
          exact And.comm
      rw [ih extended.sound rest, first, and_assoc]
      refine and_congr_right fun _ => and_congr_right fun _ => ?_
      constructor
      · intro each next isNext
        cases taken.symm.trans isNext
        exact each
      · intro each
        exact each between taken

end Execution

/-- A run releases what it acquired, after the end of the callback and before it settles, exactly if
the signal has not fired whenever `runWithRedisLock` is called in it. -/
theorem releasesFirst_iff (redisKey lockId : String) (retryCount : ℕ) (signalAborted : Bool)
    {events : List Event} {execution : Execution}
    (run : events.foldlM Execution.step
      (Execution.call redisKey lockId retryCount signalAborted) = some execution) :
    TransitionSystem.Justified ReleasesFirst execution.history ↔
      EachTurn Execution.step EntersUnaborted events
        (Execution.call redisKey lockId retryCount signalAborted) := by
  rcases Execution.sound_call redisKey lockId retryCount signalAborted with ⟨sound, justified⟩
  rw [sound.justified_iff run]
  exact and_iff_right justified

/-- The lock fails while the callback runs, and is released when the callback has ended. -/
def failedRenewal : List Event :=
  [.acquireReplies true, .entersLock, .callbackBegins, .lockFails .keyMissing, .raceSettles true,
    .abort, .callbackSettles false, .drained, .invokesRelease, .releaseReplies (some false)]

theorem releasesFirst_iff_failedRenewal :
    ∃ execution, failedRenewal.foldlM Execution.step (Execution.call "mutex:key" "id" 30 false) =
        some execution ∧
      (TransitionSystem.Justified ReleasesFirst execution.history ↔
        EachTurn Execution.step EntersUnaborted failedRenewal
          (Execution.call "mutex:key" "id" 30 false)) ∧
      TransitionSystem.Justified ReleasesFirst execution.history := by
  have run : failedRenewal.foldlM Execution.step (Execution.call "mutex:key" "id" 30 false) =
      some ⟨"mutex:key", "id", 30, true, .settled (some .keyMissing),
        [.settled, .releaseInvoked "mutex:key" "id", .callbackSettled, .callbackStarted,
          .acquired "mutex:key" "id"]⟩ := by decide
  have exact := releasesFirst_iff "mutex:key" "id" 30 false run
  exact ⟨_, run, exact, exact.mpr (by decide)⟩

/-- The signal fires while ACQUIRE is under way: the promise settles and the lock stays. -/
theorem releasesFirst_fails_on_abort :
    ∃ execution, [Event.abort, .acquireReplies true, .entersLock].foldlM Execution.step
        (Execution.call "mutex:key" "id" 30 false) = some execution ∧
      execution.phase = .settled (some .aborted) ∧
      execution.history = [.settled, .acquired "mutex:key" "id"] ∧
      ¬TransitionSystem.Justified ReleasesFirst execution.history := by
  refine ⟨_, rfl, rfl, rfl, ?_⟩
  rintro ⟨released, -⟩
  have inHistory := released "mutex:key" "id" List.mem_cons_self
  exact absurd inHistory (by decide)

end ServerFoundation.Mutex.RedisMutex
