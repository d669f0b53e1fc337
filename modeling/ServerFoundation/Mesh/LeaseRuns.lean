import Mathlib.Data.List.Perm.Basic
import ServerFoundation.Mesh.LeaseSafety

/-!
# Runs of a mesh

Every step of a cluster keeps it sound, and confirmed heartbeats stay confirmed. So
a service whose lease is safe has not been removed, and is not removed by any
`CLEANUP` that runs before its deadline.
-/

namespace ServerFoundation.Mesh

namespace MeshService

theorem lifecycleRequest_cases {service : MeshService} {metadata : String} {request : MeshRequest}
    (nodeTtlMs : ℤ) (store : MeshStore)
    (sent : service.lifecycleRequest metadata = some request) :
    (request = .incr ∧ service.current = some (.acquiring none)) ∨
      (request = .create service.instanceId ∧
        ∃ startedAt, service.current = some (.creating startedAt false)) ∨
      ((∀ instanceId, request ≠ .create instanceId) ∧
        (∀ startedAt, service.current ≠ some (.creating startedAt false)) ∧
        (service.lifecycleReplied nodeTtlMs metadata store).uncreated = none) := by
  simp only [lifecycleRequest] at sent
  split at sent
  · rename_i current
    exact Or.inl ⟨(Option.some.inj sent).symm, current⟩
  · rename_i startedAt current
    exact Or.inr (Or.inl ⟨(Option.some.inj sent).symm, startedAt, current⟩)
  · rename_i current
    cases sent
    exact Or.inr (Or.inr (by simp [current, lifecycleReplied, uncreated]))
  · rename_i current
    cases sent
    exact Or.inr (Or.inr (by simp [current, lifecycleReplied, uncreated]))
  · rename_i current
    cases sent
    exact Or.inr (Or.inr (by simp [current, lifecycleReplied, uncreated]))
  · cases sent

end MeshService

namespace Cluster

section Steps

variable {nodeTtlMs : ℤ} {metadata : ℕ → String} {cluster : Cluster} {process : ℕ}
  {service : MeshService} {instanceId : InstanceId} {startedAt : ℤ} {event : ClusterEvent}

theorem confirmed_create (fresh : cluster.Fresh instanceId) (past : startedAt ≤ cluster.store.now) :
    (cluster.execute nodeTtlMs (.create instanceId)).Confirmed nodeTtlMs instanceId startedAt := by
  refine ⟨?_, ?_, ?_⟩
  · exact past.trans (cluster.store.execute_now nodeTtlMs _).ge
  · intro score found
    cases (MeshStore.create_fresh fresh.absent).symm.trans found
    exact past
  · intro time removed
    exact absurd removed (fresh.notRemoved time)

theorem confirmed_renew (keys : cluster.KeysSound) (past : startedAt ≤ cluster.store.now) (renewed :
      (cluster.store.heartbeatScript (printId instanceId) .renew nodeTtlMs).2.isSome = true) :
    (cluster.execute nodeTtlMs (.renew instanceId)).Confirmed nodeTtlMs instanceId startedAt := by
  rcases MeshStore.renew_succeeded renewed with ⟨present, written⟩
  refine ⟨?_, ?_, ?_⟩
  · exact past.trans (cluster.store.execute_now nodeTtlMs _).ge
  · intro score found
    cases written.symm.trans found
    exact past
  · intro time removed
    exact absurd (keys.gone _ time removed) present

section

variable (sound : cluster.Sound nodeTtlMs)
include sound

theorem Sound.localStep
    (changed : service.Sound (cluster.Confirmed nodeTtlMs) nodeTtlMs cluster.store.now)
    (kept : ∀ instanceId, service.creations instanceId ≤
      (cluster.services process).creations instanceId) :
    (cluster.update process service).Sound nodeTtlMs :=
  @Sound.update nodeTtlMs cluster process service sound [] changed (by simpa using kept)

theorem Sound.executeLifecycle :
    (cluster.executeLifecycle nodeTtlMs metadata process).Sound nodeTtlMs := by
  simp only [Cluster.executeLifecycle]
  split
  · exact sound
  · rename_i request sent
    have evolved : (cluster.services process).Sound
        ((cluster.execute nodeTtlMs request).Confirmed nodeTtlMs) nodeTtlMs cluster.store.now :=
      (sound.services process).mono (fun _ _ confirmed => confirmed.evolve evolves_execute) le_rfl
    rcases MeshService.lifecycleRequest_cases nodeTtlMs cluster.store sent with
      ⟨rfl, current⟩ | ⟨rfl, startedAt, current⟩ | ⟨notCreate, notCreating, isNone⟩
    · refine sound.executeIncr ?_ (evolved.lifecycleReplied ?_)
      · simp [MeshService.lifecycleReplied, current, MeshService.uncreated, MeshStore.incr]
      · simp [current]
    · have acquired :
          (cluster.services process).uncreated = some (cluster.services process).instanceId := by
        simp [MeshService.uncreated, current]
      have isNone : ((cluster.services process).lifecycleReplied nodeTtlMs (metadata process)
          cluster.store).uncreated = none := by
        simp [MeshService.lifecycleReplied, current, MeshService.uncreated]
      refine sound.executeUpdate ?_ ?_ (evolved.lifecycleReplied ?_)
      · rintro instanceId ⟨⟩
        exact ⟨acquired, isNone⟩
      · intro instanceId
        exact MeshService.creations_le instanceId (Or.inl isNone)
      · intro sentAt creating
        exact confirmed_create (sound.pending.acquired process _ acquired).2
          ((sound.services process).creating sentAt false creating).1
    · refine sound.executeUpdate ?_ ?_ (evolved.lifecycleReplied ?_)
      · intro instanceId created
        exact absurd created (notCreate instanceId)
      · intro instanceId
        exact MeshService.creations_le instanceId (Or.inl isNone)
      · intro sentAt creating
        exact absurd creating (notCreating sentAt)

theorem Sound.executeHeartbeat (index : ℕ) :
    (cluster.executeHeartbeat nodeTtlMs process index).Sound nodeTtlMs := by
  simp only [Cluster.executeHeartbeat]
  split
  · exact sound
  · rename_i call found
    have sent := List.mem_of_getElem? found
    simp only [HeartbeatCall.request]
    cases call.renewed with
    | some _ => exact sound
    | none =>
        have evolved : (cluster.services process).Sound
            ((cluster.execute nodeTtlMs (.renew call.instanceId)).Confirmed nodeTtlMs) nodeTtlMs
            cluster.store.now :=
          (sound.services process).mono (fun _ _ confirmed => confirmed.evolve evolves_execute)
            le_rfl
        refine sound.executeUpdate (by simp) ?_ (evolved.heartbeatReplied sent ?_)
        · intro instanceId
          exact MeshService.creations_of_same instanceId rfl rfl
        · intro renewed
          exact confirmed_renew sound.keys ((sound.services process).heartbeat call sent).1 renewed

theorem Sound.completeHeartbeat (index : ℕ) :
    (cluster.completeHeartbeat nodeTtlMs process index).Sound nodeTtlMs := by
  simp only [Cluster.completeHeartbeat]
  split
  · exact sound
  · rename_i call found
    split
    · exact sound
    · rename_i renewed replied
      refine sound.localStep
        ((sound.services process).heartbeatRenewed index (List.mem_of_getElem? found) replied) ?_
      intro instanceId
      simp only [MeshService.heartbeatRenewed]
      refine (MeshService.creations_endHeartbeat _ instanceId _).trans ?_
      split
      · split
        · exact MeshService.creations_of_same instanceId rfl rfl
        · refine (MeshService.creations_fenceLeaseLoss _ instanceId).trans ?_
          exact MeshService.creations_of_same instanceId rfl rfl
      · split
        · exact MeshService.creations_of_same instanceId rfl rfl
        · exact MeshService.creations_of_same instanceId rfl rfl

theorem Sound.failHeartbeat (index : ℕ) :
    (cluster.failHeartbeat process index).Sound nodeTtlMs := by
  simp only [Cluster.failHeartbeat]
  split
  · exact sound
  · rename_i call found
    refine sound.update ((sound.services process).heartbeatFailed index call) ?_
    intro instanceId
    have noCreation : call.request.toList.count (.create instanceId) = 0 := by
      simp only [HeartbeatCall.request]
      split <;> simp
    rw [noCreation, zero_add]
    simp only [MeshService.heartbeatFailed]
    refine (MeshService.creations_endHeartbeat _ instanceId _).trans ?_
    split
    · refine (MeshService.creations_fenceLeaseLoss _ instanceId).trans ?_
      exact MeshService.creations_of_same instanceId rfl rfl
    · exact MeshService.creations_of_same instanceId rfl rfl

theorem Sound.failLifecycle : (cluster.failLifecycle metadata process).Sound nodeTtlMs := by
  refine sound.update (sound.services process).failLifecycle ?_
  intro instanceId
  have dropped : (cluster.services process).failLifecycle.creations instanceId = 0 := by
    simp [MeshService.creations, MeshService.uncreated_failLifecycle]
  rw [dropped, add_zero]
  exact MeshService.count_lifecycleRequest _ _ _

theorem Sound.crash : (cluster.crash metadata process).Sound nodeTtlMs := by
  refine sound.update MeshService.Sound.initial ?_
  intro instanceId
  have dropped : MeshService.initial.creations instanceId = 0 := by
    simp [MeshService.creations, MeshService.uncreated, MeshService.initial]
  rw [dropped, add_zero]
  exact MeshService.count_requests _ _ _

theorem Sound.eraseStray (index : ℕ) :
    { cluster with stray := cluster.stray.eraseIdx index }.Sound nodeTtlMs := by
  refine ⟨⟨sound.keys.scores, sound.keys.removals, sound.keys.gone, ?_⟩, ⟨?_, ?_, ?_, ?_, ?_⟩, ?_⟩
  · intro instanceId unborn
    exact (sound.keys.unborn instanceId unborn).of_same rfl rfl
  · intro process instanceId isUncreated
    rcases sound.pending.acquired process instanceId isUncreated with ⟨issued, isFresh⟩
    exact ⟨issued, isFresh.of_same rfl rfl⟩
  · exact sound.pending.distinct
  · intro instanceId isStray
    rcases sound.pending.strayFresh instanceId (List.mem_of_mem_eraseIdx isStray) with
      ⟨issued, isFresh⟩
    exact ⟨issued, isFresh.of_same rfl rfl⟩
  · intro process instanceId isUncreated isStray
    exact sound.pending.strayDistinct process instanceId isUncreated
      (List.mem_of_mem_eraseIdx isStray)
  · intro instanceId
    exact ((List.eraseIdx_sublist cluster.stray index).count_le _).trans
      (sound.pending.strayOnce instanceId)
  · intro process
    exact (sound.services process).mono
      (fun _ _ confirmed => confirmed.evolve (Evolves.of_same rfl rfl)) le_rfl

theorem Sound.executeStray (index : ℕ) :
    (cluster.executeStray nodeTtlMs index).Sound nodeTtlMs := by
  simp only [Cluster.executeStray]
  split
  · exact sound
  · rename_i request found
    refine (sound.eraseStray index).execute ?_
    rintro instanceId rfl
    have isStray := List.mem_of_getElem? found
    rcases sound.pending.strayFresh instanceId isStray with ⟨issued, isFresh⟩
    refine ⟨issued, isFresh.of_same rfl rfl, ?_⟩
    rintro (⟨process, isUncreated⟩ | again)
    · exact sound.pending.strayDistinct process instanceId isUncreated isStray
    · have once := sound.pending.strayOnce instanceId
      rcases List.getElem?_eq_some_iff.mp found with ⟨inBounds, same⟩
      have split := (List.getElem_cons_eraseIdx_perm inBounds).count_eq (.create instanceId)
      rw [same, List.count_cons_self] at split
      have positive : 0 < (cluster.stray.eraseIdx index).count (.create instanceId) :=
        List.count_pos_iff.mpr again
      omega

end

theorem evolves_cleanup (batchSize : ℕ) :
    Evolves nodeTtlMs cluster (cluster.cleanup nodeTtlMs batchSize) where
  later := (cluster.store.cleanupScript_now nodeTtlMs batchSize).ge
  score id score found := by
    simp only [Cluster.cleanup, MeshStore.cleanupScript_heartbeat] at found
    split at found
    · cases found
    · exact Or.inl found
  removal id time removed := by
    simp only [Cluster.cleanup, List.mem_append, List.mem_map] at removed
    rcases removed with ⟨_, expired, same⟩ | old
    · cases same
      exact Or.inr ⟨rfl, MeshStore.score_of_expired expired⟩
    · exact Or.inl old

theorem Fresh.cleanup (fresh : cluster.Fresh instanceId) (batchSize : ℕ) :
    (cluster.cleanup nodeTtlMs batchSize).Fresh instanceId where
  absent := by
    simp only [Cluster.cleanup, MeshStore.cleanupScript_heartbeat, fresh.absent, ite_self]
  notRemoved time removed := by
    rcases (evolves_cleanup batchSize).removal _ time removed with old | ⟨_, score, found, _⟩
    · exact fresh.notRemoved time old
    · cases fresh.absent.symm.trans found

theorem KeysSound.cleanup (keys : cluster.KeysSound) (batchSize : ℕ) :
    (cluster.cleanup nodeTtlMs batchSize).KeysSound := by
  have now : (cluster.cleanup nodeTtlMs batchSize).store.now = cluster.store.now :=
    cluster.store.cleanupScript_now nodeTtlMs batchSize
  refine ⟨?_, ?_, ?_, ?_⟩
  · intro id score found
    rw [now]
    rcases (evolves_cleanup batchSize).score id score found with old | current
    · exact keys.scores id score old
    · exact current.le
  · intro id time removed
    rw [now]
    rcases (evolves_cleanup batchSize).removal id time removed with old | ⟨current, _⟩
    · exact keys.removals id time old
    · exact current.le
  · intro id time removed
    simp only [Cluster.cleanup, List.mem_append, List.mem_map] at removed
    simp only [Cluster.cleanup, MeshStore.cleanupScript_heartbeat]
    split
    · rfl
    · rename_i kept
      rcases removed with ⟨_, expired, same⟩ | old
      · cases same
        exact absurd expired kept
      · exact keys.gone id time old
  · intro instanceId unborn
    simp only [Cluster.cleanup, MeshStore.cleanupScript_nextId] at unborn
    exact (keys.unborn instanceId unborn).cleanup batchSize

theorem Sound.cleanup (sound : cluster.Sound nodeTtlMs) (batchSize : ℕ) :
    (cluster.cleanup nodeTtlMs batchSize).Sound nodeTtlMs :=
  sound.keysChange rfl rfl (sound.keys.cleanup batchSize) (evolves_cleanup batchSize)
    (cluster.store.cleanupScript_nextId nodeTtlMs batchSize).ge
    fun _ _ fresh => fresh.cleanup batchSize

theorem evolves_elapse {time : ℤ} (later : cluster.store.now ≤ time) :
    Evolves nodeTtlMs cluster { cluster with store := { cluster.store with now := time } } :=
  ⟨later, fun _ _ => Or.inl, fun _ _ => Or.inl⟩

theorem Sound.elapse (sound : cluster.Sound nodeTtlMs) {time : ℤ}
    (later : cluster.store.now ≤ time) :
    { cluster with store := { cluster.store with now := time } }.Sound nodeTtlMs := by
  refine sound.keysChange rfl rfl ⟨?_, ?_, sound.keys.gone, ?_⟩ (evolves_elapse later) le_rfl ?_
  · intro id score found
    exact (sound.keys.scores id score found).trans later
  · intro id removedAt removed
    exact (sound.keys.removals id removedAt removed).trans later
  · intro instanceId unborn
    exact ⟨(sound.keys.unborn instanceId unborn).absent,
      (sound.keys.unborn instanceId unborn).notRemoved⟩
  · intro instanceId _ fresh
    exact ⟨fresh.absent, fresh.notRemoved⟩

theorem evolves_advance (feasible : cluster.Feasible event) :
    Evolves nodeTtlMs cluster (cluster.advance nodeTtlMs metadata event) := by
  cases event with
  | elapse time => exact evolves_elapse feasible
  | start process => exact Evolves.of_same rfl rfl
  | stop process => exact Evolves.of_same rfl rfl
  | fence process => exact Evolves.of_same rfl rfl
  | assertLeaseSafe process => exact Evolves.of_same rfl rfl
  | leaseSafetyTimer process => exact Evolves.of_same rfl rfl
  | heartbeat process => exact Evolves.of_same rfl rfl
  | beginLifecycle process => exact Evolves.of_same rfl rfl
  | executeLifecycle process =>
      simp only [Cluster.advance, Cluster.executeLifecycle]
      split
      · exact Evolves.refl cluster
      · exact evolves_execute.then_same rfl rfl
  | completeLifecycle process => exact Evolves.of_same rfl rfl
  | failLifecycle process => exact Evolves.of_same rfl rfl
  | executeHeartbeat process index =>
      simp only [Cluster.advance, Cluster.executeHeartbeat]
      split
      · exact Evolves.refl cluster
      · split
        · exact Evolves.refl cluster
        · exact evolves_execute.then_same rfl rfl
  | completeHeartbeat process index =>
      simp only [Cluster.advance, Cluster.completeHeartbeat]
      split
      · exact Evolves.refl cluster
      · split
        · exact Evolves.refl cluster
        · exact Evolves.of_same rfl rfl
  | failHeartbeat process index =>
      simp only [Cluster.advance, Cluster.failHeartbeat]
      split
      · exact Evolves.refl cluster
      · exact Evolves.of_same rfl rfl
  | executeStray index =>
      simp only [Cluster.advance, Cluster.executeStray]
      split
      · exact Evolves.refl cluster
      · exact evolves_execute.then_same rfl rfl
  | crash process => exact Evolves.of_same rfl rfl
  | cleanup batchSize => exact evolves_cleanup batchSize

theorem Sound.advance (sound : cluster.Sound nodeTtlMs) (feasible : cluster.Feasible event) :
    (cluster.advance nodeTtlMs metadata event).Sound nodeTtlMs := by
  cases event with
  | elapse time => exact sound.elapse feasible
  | start process =>
      exact sound.localStep (sound.services process).start
        fun instanceId => MeshService.creations_of_same instanceId rfl rfl
  | stop process =>
      exact sound.localStep (sound.services process).stop
        fun instanceId => MeshService.creations_of_same instanceId rfl rfl
  | fence process =>
      exact sound.localStep (sound.services process).fenceLeaseLoss
        (MeshService.creations_fenceLeaseLoss _)
  | assertLeaseSafe process =>
      refine sound.localStep (sound.services process).assertLeaseSafe fun instanceId => ?_
      simp only [MeshService.assertLeaseSafe]
      split
      · exact le_rfl
      · split
        · exact le_rfl
        · exact MeshService.creations_fenceLeaseLoss _ instanceId
  | leaseSafetyTimer process =>
      refine sound.localStep (sound.services process).leaseSafetyTimer fun instanceId => ?_
      simp only [MeshService.leaseSafetyTimer]
      split
      · exact le_rfl
      · split
        · exact le_rfl
        · exact MeshService.creations_fenceLeaseLoss _ instanceId
  | heartbeat process =>
      refine sound.localStep (sound.services process).doHeartbeat fun instanceId => ?_
      simp only [MeshService.doHeartbeat]
      split
      · exact le_rfl
      · exact MeshService.creations_of_same instanceId rfl rfl
  | beginLifecycle process =>
      exact sound.localStep (sound.services process).beginLifecycle
        (MeshService.creations_beginLifecycle _)
  | executeLifecycle process => exact sound.executeLifecycle
  | completeLifecycle process =>
      exact sound.localStep (sound.services process).completeLifecycle
        fun instanceId => MeshService.creations_completeLifecycle _ instanceId _ _
  | failLifecycle process => exact sound.failLifecycle
  | executeHeartbeat process index => exact sound.executeHeartbeat index
  | completeHeartbeat process index => exact sound.completeHeartbeat index
  | failHeartbeat process index => exact sound.failHeartbeat index
  | executeStray index => exact sound.executeStray index
  | crash process => exact sound.crash
  | cleanup batchSize => exact sound.cleanup batchSize

theorem reachable_sound (reachable : (system nodeTtlMs metadata).Reachable cluster) :
    cluster.Sound nodeTtlMs := by
  refine reachable.invariant (·.Sound nodeTtlMs) ?_ ?_
  · rintro _ ⟨now, rfl⟩
    exact initial_sound nodeTtlMs now
  · rintro before event _ _ sound ⟨feasible, rfl⟩
    exact sound.advance feasible

theorem Confirmed.later {later : Cluster}
    (confirmed : cluster.Confirmed nodeTtlMs instanceId startedAt)
    (reachable : ((system nodeTtlMs metadata).startingAt cluster).Reachable later) :
    later.Confirmed nodeTtlMs instanceId startedAt := by
  refine reachable.invariant (·.Confirmed nodeTtlMs instanceId startedAt) ?_ ?_
  · rintro _ rfl
    exact confirmed
  · rintro before event _ _ isConfirmed ⟨feasible, rfl⟩
    exact isConfirmed.evolve (evolves_advance feasible)

end Steps

section Main

variable (nodeTtlMs : ℤ) (metadata : ℕ → String)

/-- A node whose lease is safe has not been removed, and no later `CLEANUP` removes it before its
deadline. -/
theorem leaseSafe_not_removed (cluster : Cluster) (process : ℕ)
    (reachable : (system nodeTtlMs metadata).Reachable cluster)
    (safe : (cluster.services process).LeaseSafe cluster.store.now) :
    (∀ time, (printId (cluster.services process).instanceId, time) ∉ cluster.removals) ∧
      ∀ later, ((system nodeTtlMs metadata).startingAt cluster).Reachable later →
        ∀ time, (printId (cluster.services process).instanceId, time) ∈ later.removals →
          (cluster.services process).leaseSafeUntil ≤ time := by
  have sound := reachable_sound reachable
  have confirmed := (sound.services process).lease safe.1
  refine ⟨?_, ?_⟩
  · intro time removed
    have bound := confirmed.removal time removed
    have past := sound.keys.removals _ time removed
    have deadline := safe.2.2
    omega
  · intro later reachableLater time removed
    have bound := (confirmed.later reachableLater).removal time removed
    omega

/-- A service starts and renews its heartbeat with a delay, and `CLEANUP` runs just before its
deadline. -/
def renewedRun : List ClusterEvent :=
  [.start 0, .beginLifecycle 0, .executeLifecycle 0, .completeLifecycle 0, .completeLifecycle 0,
    .executeLifecycle 0, .completeLifecycle 0, .executeLifecycle 0, .completeLifecycle 0,
    .elapse 5000, .heartbeat 0, .elapse 9000, .executeHeartbeat 0 0, .completeHeartbeat 0 0,
    .elapse 19999, .cleanup 100]

theorem leaseSafe_not_removed_at_renewal : ∃ cluster : Cluster,
    (system 15000 fun _ => "").Reachable cluster ∧
      (cluster.services 0).LeaseSafe cluster.store.now ∧ (cluster.services 0).instanceId = 1 ∧
      (cluster.services 0).leaseSafeUntil = 20000 ∧ ∀ time, ("1", time) ∉ cluster.removals := by
  have evaluated :
      TransitionSystem.Follows (advance 15000 fun _ => "") Feasible (initial 0) renewedRun ∧
        ((renewedRun.foldl (advance 15000 fun _ => "") (initial 0)).services 0).LeaseSafe
          (renewedRun.foldl (advance 15000 fun _ => "") (initial 0)).store.now ∧
        ((renewedRun.foldl (advance 15000 fun _ => "") (initial 0)).services 0).instanceId = 1 ∧
        ((renewedRun.foldl (advance 15000 fun _ => "") (initial 0)).services 0).leaseSafeUntil =
          20000 := by decide +kernel
  rcases evaluated with ⟨follows, safe, instanceId, leaseSafeUntil⟩
  have started : (system 15000 fun _ => "").Reachable (initial 0) := .start ⟨0, rfl⟩
  have reached := started.follow _ _ (fun _ _ feasible => ⟨feasible, rfl⟩) follows
  have notRemoved := (leaseSafe_not_removed 15000 (fun _ => "") _ 0 reached safe).1
  rw [instanceId] at notRemoved
  exact ⟨_, reached, safe, instanceId, leaseSafeUntil, notRemoved⟩

end Main

end Cluster

end ServerFoundation.Mesh
