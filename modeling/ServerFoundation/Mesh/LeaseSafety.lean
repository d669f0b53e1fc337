import ServerFoundation.Mesh.Membership

/-!
# Safety of the membership lease

The local deadline of a service is the time at which its last successful heartbeat was sent,
plus the TTL. The heartbeat was executed no earlier than that, and its score only grows, so
`CLEANUP` cannot remove the id before the deadline.

A heartbeat that was sent at some time is confirmed when the id has a score of at least that
time, or none, and was removed no earlier than a TTL after it. What a service believes about
itself is confirmed, because heartbeats of an earlier generation are ignored, and because an id
is created only once.
-/

namespace ServerFoundation.Mesh

theorem printId_injective {first second : InstanceId} (same : printId first = printId second) :
    first = second := by
  have digits : Nat.toDigits 10 first = Nat.toDigits 10 second := by
    simpa [printId, Nat.repr] using congrArg String.toList same
  rw [← Nat.ofDigitChars_ten_toDigits (n := first), digits, Nat.ofDigitChars_ten_toDigits]

namespace MeshStore

variable (nodeTtlMs : ℤ) (store : MeshStore)

theorem execute_now (request : MeshRequest) :
    (store.execute nodeTtlMs request).now = store.now := by
  have beats : ∀ id mode, (store.heartbeatScript id mode nodeTtlMs).1.now = store.now := by
    intro id mode
    rcases store.heartbeatScript_cases id mode nodeTtlMs with same | ⟨_, same, _⟩ | ⟨written, _⟩
    · rw [same]
    · rw [same]
    · rw [written]
  cases request with
  | incr => rfl
  | create instanceId => exact beats _ _
  | renew instanceId => exact beats _ _
  | updateMetadata instanceId metadata =>
      simp only [execute, updateMetadataScript]
      split <;> rfl
  | deregister instanceId => rfl

theorem execute_nextId (request : MeshRequest) :
    (store.execute nodeTtlMs request).nextId =
      if request = .incr then store.nextId + 1 else store.nextId := by
  have beats : ∀ id mode, (store.heartbeatScript id mode nodeTtlMs).1.nextId = store.nextId := by
    intro id mode
    rcases store.heartbeatScript_cases id mode nodeTtlMs with same | ⟨_, same, _⟩ | ⟨written, _⟩
    · rw [same]
    · rw [same]
    · rw [written]
  cases request with
  | incr => rfl
  | create instanceId => exact beats _ _
  | renew instanceId => exact beats _ _
  | updateMetadata instanceId metadata =>
      simp only [execute, updateMetadataScript, reduceCtorEq, if_false]
      split <;> rfl
  | deregister instanceId => rfl

variable {nodeTtlMs store}

theorem execute_score {request : MeshRequest} {id : String} {score : ℤ}
    (found : (store.execute nodeTtlMs request).heartbeats.get? id = some score) :
    store.heartbeats.get? id = some score ∨
      (score = store.now ∧ (store.heartbeats.get? id ≠ none ∨
        ∃ instanceId, request = .create instanceId ∧ printId instanceId = id)) := by
  have beats : ∀ instanceId mode,
      (store.heartbeatScript (printId instanceId) mode nodeTtlMs).1.heartbeats.get? id =
        some score →
      store.heartbeats.get? id = some score ∨
        (score = store.now ∧ (store.heartbeats.get? id ≠ none ∨
          (mode = .create ∧ printId instanceId = id))) := by
    intro instanceId mode found
    rcases store.heartbeatScript_cases (printId instanceId) mode nodeTtlMs with
      same | ⟨_, same, _⟩ | ⟨written, existed⟩
    · rw [same] at found
      exact Or.inl found
    · rw [same] at found
      exact Or.inl found
    · rw [written] at found
      simp only [OrderedMap.get?_set] at found
      split at found
      · rename_i same
        rw [Option.some.injEq] at found
        refine Or.inr ⟨found.symm, ?_⟩
        cases mode with
        | create => exact Or.inr ⟨rfl, same.symm⟩
        | renew =>
            rcases existed rfl with ⟨stored, present⟩
            rw [same, present]
            exact Or.inl (Option.some_ne_none stored)
      · exact Or.inl found
  cases request with
  | incr => exact Or.inl found
  | create instanceId =>
      rcases beats instanceId .create found with old | ⟨current, present | ⟨_, same⟩⟩
      · exact Or.inl old
      · exact Or.inr ⟨current, Or.inl present⟩
      · exact Or.inr ⟨current, Or.inr ⟨instanceId, rfl, same⟩⟩
  | renew instanceId =>
      rcases beats instanceId .renew found with old | ⟨current, present | ⟨isCreate, _⟩⟩
      · exact Or.inl old
      · exact Or.inr ⟨current, Or.inl present⟩
      · cases isCreate
  | updateMetadata instanceId metadata =>
      simp only [execute, updateMetadataScript] at found
      split at found
      · exact Or.inl found
      · exact Or.inl found
  | deregister instanceId =>
      simp only [execute, deregisterScript, OrderedMap.get?_erase] at found
      split at found
      · cases found
      · exact Or.inl found

theorem renew_succeeded {instanceId : InstanceId}
    (renewed :
      (store.heartbeatScript (printId instanceId) .renew nodeTtlMs).2.isSome = true) :
    store.heartbeats.get? (printId instanceId) ≠ none ∧
      (store.execute nodeTtlMs (.renew instanceId)).heartbeats.get? (printId instanceId) =
        some store.now := by
  simp only [execute]
  rcases store.heartbeatScript_cases (printId instanceId) .renew nodeTtlMs with
    same | ⟨_, _, isCreate⟩ | ⟨written, existed⟩
  · rw [same] at renewed
    cases renewed
  · cases isCreate
  · rcases existed rfl with ⟨score, found⟩
    rw [written, found]
    simp

theorem create_fresh {instanceId : InstanceId}
    (absent : store.heartbeats.get? (printId instanceId) = none) :
    (store.execute nodeTtlMs (.create instanceId)).heartbeats.get? (printId instanceId) =
      some store.now := by
  simp [execute, heartbeatScript, absent]

end MeshStore

namespace MeshService

/-- The id that a starting service has acquired and not yet created. -/
def uncreated (service : MeshService) : Option InstanceId :=
  match service.current with
  | some (.acquiring acquired) => acquired
  | some .subscribing => some service.instanceId
  | some (.creating _ false) => some service.instanceId
  | _ => none

/-- How often a service can still create an id. -/
def creations (service : MeshService) (instanceId : InstanceId) : ℕ :=
  if service.uncreated = some instanceId then 1 else 0

section Creations

variable {service after : MeshService} (metadata : String) (instanceId : InstanceId)

theorem creations_le (kept : after.uncreated = none ∨ after.uncreated = service.uncreated) :
    after.creations instanceId ≤ service.creations instanceId := by
  rcases kept with none | same
  · simp [creations, none]
  · simp [creations, same]

theorem creations_of_same (current : after.current = service.current)
    (instance' : after.instanceId = service.instanceId) :
    after.creations instanceId ≤ service.creations instanceId := by
  refine creations_le instanceId (Or.inr ?_)
  simp only [uncreated, current, instance']

variable (service)

theorem creations_fenceLeaseLoss :
    service.fenceLeaseLoss.creations instanceId ≤ service.creations instanceId := by
  simp only [fenceLeaseLoss]
  split
  · exact le_rfl
  · exact creations_of_same instanceId rfl rfl

theorem creations_endHeartbeat (generation : ℕ) :
    (service.endHeartbeat generation).creations instanceId ≤ service.creations instanceId := by
  simp only [endHeartbeat]
  split
  · exact creations_of_same instanceId rfl rfl
  · exact le_rfl

theorem creations_beginLifecycle :
    service.beginLifecycle.creations instanceId ≤ service.creations instanceId := by
  simp only [beginLifecycle]
  split
  · split
    · exact creations_of_same instanceId rfl rfl
    · exact creations_le instanceId (Or.inl rfl)
  · exact creations_le instanceId (Or.inl rfl)
  · exact le_rfl

theorem uncreated_startFailed : service.startFailed.uncreated = none := by
  simp only [uncreated, startFailed]
  split <;> simp_all

theorem creations_completeLifecycle (nodeTtlMs now : ℤ) :
    (service.completeLifecycle nodeTtlMs now).creations instanceId ≤
      service.creations instanceId := by
  refine creations_le instanceId ?_
  simp only [completeLifecycle]
  split
  · rename_i current
    exact Or.inr (by simp [uncreated, current])
  · rename_i current
    exact Or.inr (by simp [uncreated, current])
  · exact Or.inl rfl
  · simp only [startSucceeded]
    split
    · exact Or.inl (uncreated_startFailed _)
    · exact Or.inl rfl
  · exact Or.inl (uncreated_startFailed _)
  · exact Or.inl rfl
  · left
    simp only [uncreated]
    split <;> simp_all
  · exact Or.inl rfl
  · exact Or.inr rfl

theorem uncreated_failLifecycle : service.failLifecycle.uncreated = none := by
  simp only [failLifecycle]
  split
  · rfl
  · exact uncreated_startFailed _
  · exact uncreated_startFailed _
  · exact uncreated_startFailed _
  · rfl
  · rfl
  · rename_i current
    simp [uncreated, current]
  · rename_i current
    simp [uncreated, current]

theorem count_lifecycleRequest :
    (service.lifecycleRequest metadata).toList.count (.create instanceId) ≤
      service.creations instanceId := by
  simp only [lifecycleRequest, creations, uncreated]
  split <;> simp_all [List.count_singleton]

theorem count_requests : (service.requests metadata).count (.create instanceId) ≤
    service.creations instanceId := by
  have renewals :
      MeshRequest.create instanceId ∉ service.heartbeats.filterMap HeartbeatCall.request := by
    intro mem
    rcases List.mem_filterMap.mp mem with ⟨call, _, request⟩
    simp only [HeartbeatCall.request] at request
    split at request <;> cases request
  rw [requests, List.count_append, List.count_eq_zero.mpr renewals]
  exact service.count_lifecycleRequest metadata instanceId

end Creations

/-- `startImpl` is under way. -/
def Starting (service : MeshService) : Prop :=
  match service.current with
  | some (.acquiring _) => True
  | some .subscribing => True
  | some (.creating _ _) => True
  | some (.registering _ _) => True
  | _ => False

/-- What a service knows about its heartbeats, in terms of what is confirmed. -/
structure Sound (confirmed : InstanceId → ℤ → Prop) (nodeTtlMs now : ℤ) (service : MeshService) :
    Prop where
  idle : service.running = true → service.current = none
  lease : service.running = true →
    confirmed service.instanceId (service.leaseSafeUntil - nodeTtlMs)
  creating : ∀ startedAt executed, service.current = some (.creating startedAt executed) →
    startedAt ≤ now ∧ (executed = true → confirmed service.instanceId startedAt)
  registering : ∀ startedAt written, service.current = some (.registering startedAt written) →
    confirmed service.instanceId startedAt
  heartbeat : ∀ call ∈ service.heartbeats, call.heartbeatStartedAt ≤ now ∧
    (call.renewed = some true → confirmed call.instanceId call.heartbeatStartedAt)
  generation : ∀ call ∈ service.heartbeats, call.generation ≤ service.generation
  starting : service.Starting → ∀ call ∈ service.heartbeats, call.generation < service.generation
  matching : service.running = true → ∀ call ∈ service.heartbeats,
    call.generation = service.generation → call.instanceId = service.instanceId

namespace Sound

variable {confirmed : InstanceId → ℤ → Prop} {nodeTtlMs now : ℤ} {service after : MeshService}

theorem initial : MeshService.initial.Sound confirmed nodeTtlMs now where
  idle running := by cases running
  lease running := by cases running
  creating _ _ phase := by cases phase
  registering _ _ phase := by cases phase
  heartbeat _ mem := by cases mem
  generation _ mem := by cases mem
  starting _ _ mem := by cases mem
  matching running := by cases running

section

variable (sound : service.Sound confirmed nodeTtlMs now)
include sound

theorem mono {confirmed' : InstanceId → ℤ → Prop} {now' : ℤ}
    (kept : ∀ instanceId startedAt, confirmed instanceId startedAt →
      confirmed' instanceId startedAt) (later : now ≤ now') :
    service.Sound confirmed' nodeTtlMs now' where
  idle := sound.idle
  lease running := kept _ _ (sound.lease running)
  creating startedAt executed phase := by
    rcases sound.creating startedAt executed phase with ⟨past, known⟩
    exact ⟨past.trans later, fun isExecuted => kept _ _ (known isExecuted)⟩
  registering startedAt written phase := kept _ _ (sound.registering startedAt written phase)
  heartbeat call mem := by
    rcases sound.heartbeat call mem with ⟨past, known⟩
    exact ⟨past.trans later, fun renewed => kept _ _ (known renewed)⟩
  generation := sound.generation
  starting := sound.starting
  matching := sound.matching

theorem frame (current : after.current = service.current)
    (instanceId : after.instanceId = service.instanceId)
    (generation : after.generation = service.generation)
    (heartbeats : ∀ call ∈ after.heartbeats, call ∈ service.heartbeats)
    (running : after.running = true →
      service.running = true ∧ after.leaseSafeUntil = service.leaseSafeUntil) :
    after.Sound confirmed nodeTtlMs now where
  idle isRunning := by
    rw [current]
    exact sound.idle (running isRunning).1
  lease isRunning := by
    rw [instanceId, (running isRunning).2]
    exact sound.lease (running isRunning).1
  creating startedAt executed phase := by
    rw [current] at phase
    rw [instanceId]
    exact sound.creating startedAt executed phase
  registering startedAt written phase := by
    rw [current] at phase
    rw [instanceId]
    exact sound.registering startedAt written phase
  heartbeat call mem := sound.heartbeat call (heartbeats call mem)
  generation call mem := by
    rw [generation]
    exact sound.generation call (heartbeats call mem)
  starting isStarting call mem := by
    rw [generation]
    simp only [Starting, current] at isStarting
    exact sound.starting isStarting call (heartbeats call mem)
  matching isRunning call mem same := by
    rw [generation] at same
    rw [instanceId]
    exact sound.matching (running isRunning).1 call (heartbeats call mem) same

theorem start : service.start.Sound confirmed nodeTtlMs now :=
  sound.frame rfl rfl rfl (fun _ mem => mem) fun running => ⟨running, rfl⟩

theorem stop : service.stop.Sound confirmed nodeTtlMs now :=
  sound.frame rfl rfl rfl (fun _ mem => mem) fun running => by cases running

theorem fenceLeaseLoss : service.fenceLeaseLoss.Sound confirmed nodeTtlMs now := by
  simp only [MeshService.fenceLeaseLoss]
  split
  · exact sound
  · exact sound.frame rfl rfl rfl (fun _ mem => mem) fun running => by cases running

theorem assertLeaseSafe : (service.assertLeaseSafe now).Sound confirmed nodeTtlMs now := by
  simp only [MeshService.assertLeaseSafe]
  split
  · exact sound
  · split
    · exact sound
    · exact sound.fenceLeaseLoss

theorem leaseSafetyTimer : (service.leaseSafetyTimer now).Sound confirmed nodeTtlMs now := by
  simp only [MeshService.leaseSafetyTimer]
  split
  · exact sound
  · split
    · exact sound
    · exact sound.fenceLeaseLoss

theorem endHeartbeat (generation : ℕ) :
    (service.endHeartbeat generation).Sound confirmed nodeTtlMs now := by
  simp only [MeshService.endHeartbeat]
  split
  · exact sound.frame rfl rfl rfl (fun _ mem => mem) fun running => ⟨running, rfl⟩
  · exact sound

theorem doHeartbeat : (service.doHeartbeat now).Sound confirmed nodeTtlMs now := by
  simp only [MeshService.doHeartbeat]
  split
  · exact sound
  · rename_i ready
    have running : service.running = true := by
      by_contra notRunning
      exact ready (Or.inl (by simpa using notRunning))
    refine ⟨sound.idle, sound.lease, sound.creating, sound.registering, ?_, ?_, ?_, ?_⟩
    · intro call mem
      rcases List.mem_append.mp mem with old | new
      · exact sound.heartbeat call old
      · cases List.mem_singleton.mp new
        exact ⟨le_rfl, fun renewed => by cases renewed⟩
    · intro call mem
      rcases List.mem_append.mp mem with old | new
      · exact sound.generation call old
      · cases List.mem_singleton.mp new
        exact le_rfl
    · intro isStarting
      simp [Starting, sound.idle running] at isStarting
    · intro _ call mem same
      rcases List.mem_append.mp mem with old | new
      · exact sound.matching running call old same
      · cases List.mem_singleton.mp new
        rfl

theorem eraseHeartbeat (index : ℕ) :
    { service with heartbeats := service.heartbeats.eraseIdx index }.Sound confirmed nodeTtlMs
      now :=
  sound.frame rfl rfl rfl (fun _ mem => List.mem_of_mem_eraseIdx mem) fun running => ⟨running, rfl⟩

theorem heartbeatRenewed (index : ℕ) {call : HeartbeatCall} {renewed : Bool}
    (sent : call ∈ service.heartbeats) (replied : call.renewed = some renewed) :
    ({ service with heartbeats := service.heartbeats.eraseIdx index }.heartbeatRenewed nodeTtlMs
      call renewed).Sound confirmed nodeTtlMs now := by
  have erased := sound.eraseHeartbeat index
  simp only [MeshService.heartbeatRenewed]
  refine endHeartbeat ?_ _
  split
  · split
    · exact erased
    · exact erased.fenceLeaseLoss
  · rename_i isRenewed
    split
    · exact erased
    · rename_i current
      simp only [not_or, not_not, Bool.not_eq_false] at current isRenewed
      have known := (sound.heartbeat call sent).2 (by rw [replied, isRenewed])
      rw [sound.matching current.2 call sent current.1] at known
      refine ⟨erased.idle, ?_, erased.creating, erased.registering, erased.heartbeat,
        erased.generation, erased.starting, erased.matching⟩
      intro _
      rw [add_sub_cancel_right]
      exact known

theorem heartbeatFailed (index : ℕ) (call : HeartbeatCall) :
    ({ service with heartbeats := service.heartbeats.eraseIdx index }.heartbeatFailed now
      call).Sound confirmed nodeTtlMs now := by
  have erased := sound.eraseHeartbeat index
  simp only [MeshService.heartbeatFailed]
  refine endHeartbeat ?_ _
  split
  · exact erased.fenceLeaseLoss
  · exact erased

theorem of_stopped (heartbeats : after.heartbeats = service.heartbeats)
    (generation : service.generation ≤ after.generation) (stopped : after.running = false)
    (settled : ¬after.Starting) : after.Sound confirmed nodeTtlMs now where
  idle running := by
    rw [stopped] at running
    cases running
  lease running := by
    rw [stopped] at running
    cases running
  creating _ _ phase := by simp [Starting, phase] at settled
  registering _ _ phase := by simp [Starting, phase] at settled
  heartbeat := by
    rw [heartbeats]
    exact sound.heartbeat
  generation call mem := by
    rw [heartbeats] at mem
    exact (sound.generation call mem).trans generation
  starting isStarting := absurd isStarting settled
  matching running := by
    rw [stopped] at running
    cases running

theorem beginLifecycle : service.beginLifecycle.Sound confirmed nodeTtlMs now := by
  simp only [MeshService.beginLifecycle]
  split
  · split
    · exact sound.frame rfl rfl rfl (fun _ mem => mem) fun running => ⟨running, rfl⟩
    · rename_i notRunning
      have stopped : service.running = false := by simpa using notRunning
      refine ⟨?_, ?_, ?_, ?_, sound.heartbeat, ?_, ?_, ?_⟩
      · intro running
        cases stopped.symm.trans running
      · intro running
        cases stopped.symm.trans running
      · intro _ _ phase
        cases phase
      · intro _ _ phase
        cases phase
      · intro call mem
        exact (sound.generation call mem).trans (Nat.le_succ _)
      · intro _ call mem
        exact Nat.lt_succ_of_le (sound.generation call mem)
      · intro running
        cases stopped.symm.trans running
  · exact sound.of_stopped rfl (Nat.le_succ _) rfl (by simp [Starting])
  · exact sound

theorem notRunning {phase : LifecycleCall} (current : service.current = some phase) :
    service.running = false := by
  by_contra running
  have idle := sound.idle (by simpa using running)
  cases current.symm.trans idle

theorem startFailed (stopped : service.running = false) :
    service.startFailed.Sound confirmed nodeTtlMs now := by
  refine sound.of_stopped rfl le_rfl stopped ?_
  simp only [Starting, MeshService.startFailed]
  split <;> simp_all

theorem startSucceeded {startedAt : ℤ} {written : Option Bool}
    (current : service.current = some (.registering startedAt written)) :
    (service.startSucceeded nodeTtlMs now startedAt).Sound confirmed nodeTtlMs now := by
  have stopped := sound.notRunning current
  have isStarting : service.Starting := by simp [Starting, current]
  simp only [MeshService.startSucceeded]
  split
  · refine startFailed ?_ stopped
    exact sound.frame rfl rfl rfl (fun _ mem => mem) fun running => by
      cases stopped.symm.trans running
  · refine ⟨fun _ => rfl, ?_, ?_, ?_, sound.heartbeat, sound.generation, ?_, ?_⟩
    · intro _
      simp only [add_sub_cancel_right]
      exact sound.registering startedAt written current
    · intro _ _ phase
      cases phase
    · intro _ _ phase
      cases phase
    · intro impossible
      cases impossible
    · intro _ call mem same
      exact absurd same (sound.starting isStarting call mem).ne

theorem proceed (isStarting : service.Starting) {instanceId : InstanceId} {phase : LifecycleCall}
    (creating : ∀ startedAt executed, phase = .creating startedAt executed →
      startedAt ≤ now ∧ (executed = true → confirmed instanceId startedAt))
    (registering : ∀ startedAt written, phase = .registering startedAt written →
      confirmed instanceId startedAt) :
    { service with instanceId, current := some phase }.Sound confirmed nodeTtlMs now := by
  have stopped : service.running = false := by
    cases current : service.current with
    | none => simp [Starting, current] at isStarting
    | some phase => exact sound.notRunning current
  refine ⟨?_, ?_, ?_, ?_, sound.heartbeat, sound.generation, ?_, ?_⟩
  · intro running
    cases stopped.symm.trans running
  · intro running
    cases stopped.symm.trans running
  · intro startedAt executed same
    exact creating startedAt executed (Option.some.inj same)
  · intro startedAt written same
    exact registering startedAt written (Option.some.inj same)
  · intro _
    exact sound.starting isStarting
  · intro running
    cases stopped.symm.trans running

theorem completeLifecycle :
    (service.completeLifecycle nodeTtlMs now).Sound confirmed nodeTtlMs now := by
  simp only [MeshService.completeLifecycle]
  split
  · rename_i current
    refine sound.proceed (by simp [Starting, current]) ?_ ?_ <;> simp
  · rename_i current
    refine sound.proceed (by simp [Starting, current]) ?_ ?_ <;> simp
  · rename_i startedAt current
    refine sound.proceed (by simp [Starting, current]) ?_ ?_
    · simp
    · rintro _ _ ⟨⟩
      exact (sound.creating startedAt true current).2 rfl
  · rename_i current
    exact sound.startSucceeded current
  · rename_i current
    exact sound.startFailed (sound.notRunning current)
  · rename_i current
    exact sound.of_stopped rfl le_rfl (sound.notRunning current) (by simp [Starting])
  · rename_i current
    refine sound.of_stopped rfl le_rfl (sound.notRunning current) ?_
    simp only [Starting]
    split <;> simp_all
  · rename_i current
    exact sound.of_stopped rfl le_rfl (sound.notRunning current) (by simp [Starting])
  · exact sound

theorem failLifecycle : service.failLifecycle.Sound confirmed nodeTtlMs now := by
  simp only [MeshService.failLifecycle]
  split
  · rename_i current
    exact sound.of_stopped rfl le_rfl (sound.notRunning current) (by simp [Starting])
  · rename_i current
    exact sound.startFailed (sound.notRunning current)
  · rename_i current
    exact sound.startFailed (sound.notRunning current)
  · rename_i current
    exact sound.startFailed (sound.notRunning current)
  · rename_i current
    exact sound.of_stopped rfl le_rfl (sound.notRunning current) (by simp [Starting])
  · rename_i current
    exact sound.of_stopped rfl le_rfl (sound.notRunning current) (by simp [Starting])
  · exact sound
  · exact sound

theorem lifecycleReplied {metadata : String} {store : MeshStore}
    (created : ∀ startedAt, service.current = some (.creating startedAt false) →
      confirmed service.instanceId startedAt) :
    (service.lifecycleReplied nodeTtlMs metadata store).Sound confirmed nodeTtlMs now := by
  simp only [MeshService.lifecycleReplied]
  split
  · rename_i current
    refine sound.proceed (by simp [Starting, current]) ?_ ?_ <;> simp
  · rename_i startedAt current
    refine sound.proceed (by simp [Starting, current]) ?_ ?_
    · rintro _ _ ⟨⟩
      exact ⟨(sound.creating startedAt false current).1, fun _ => created startedAt current⟩
    · simp
  · rename_i startedAt current
    refine sound.proceed (by simp [Starting, current]) ?_ ?_
    · simp
    · rintro _ _ ⟨⟩
      exact sound.registering startedAt none current
  · rename_i current
    exact sound.of_stopped rfl le_rfl (sound.notRunning current) (by simp [Starting])
  · rename_i current
    exact sound.of_stopped rfl le_rfl (sound.notRunning current) (by simp [Starting])
  · exact sound

theorem heartbeatReplied {store : MeshStore} {index : ℕ} {call : HeartbeatCall}
    (sent : call ∈ service.heartbeats)
    (renewed : (store.heartbeatScript (printId call.instanceId) .renew nodeTtlMs).2.isSome = true →
      confirmed call.instanceId call.heartbeatStartedAt) :
    (service.heartbeatReplied nodeTtlMs store index call).Sound confirmed nodeTtlMs now := by
  refine ⟨sound.idle, sound.lease, sound.creating, sound.registering, ?_, ?_, ?_, ?_⟩
  · intro other mem
    rcases List.mem_or_eq_of_mem_set mem with old | rfl
    · exact sound.heartbeat other old
    · refine ⟨(sound.heartbeat call sent).1, ?_⟩
      intro isRenewed
      exact renewed (Option.some.inj isRenewed)
  · intro other mem
    rcases List.mem_or_eq_of_mem_set mem with old | rfl
    · exact sound.generation other old
    · exact sound.generation call sent
  · intro isStarting other mem
    rcases List.mem_or_eq_of_mem_set mem with old | rfl
    · exact sound.starting isStarting other old
    · exact sound.starting isStarting call sent
  · intro running other mem
    rcases List.mem_or_eq_of_mem_set mem with old | rfl
    · exact sound.matching running other old
    · exact sound.matching running call sent

end

end Sound

end MeshService

namespace Cluster

section Confirmation

variable (nodeTtlMs : ℤ)

/-- The id was alive at some time, and could not be removed within a TTL from then. -/
structure Confirmed (cluster : Cluster) (instanceId : InstanceId) (startedAt : ℤ) : Prop where
  past : startedAt ≤ cluster.store.now
  score : ∀ score, cluster.store.heartbeats.get? (printId instanceId) = some score →
    startedAt ≤ score
  removal : ∀ time, (printId instanceId, time) ∈ cluster.removals → startedAt + nodeTtlMs ≤ time

/-- What a step does to scores and removals: it writes current scores, and removes what is
overdue. -/
structure Evolves (before after : Cluster) : Prop where
  later : before.store.now ≤ after.store.now
  score : ∀ id score, after.store.heartbeats.get? id = some score →
    before.store.heartbeats.get? id = some score ∨ score = before.store.now
  removal : ∀ id time, (id, time) ∈ after.removals →
    (id, time) ∈ before.removals ∨ (time = before.store.now ∧
      ∃ score, before.store.heartbeats.get? id = some score ∧ score ≤ time - nodeTtlMs)

variable {nodeTtlMs} {before after : Cluster} {instanceId : InstanceId} {startedAt : ℤ}

theorem Confirmed.evolve (confirmed : before.Confirmed nodeTtlMs instanceId startedAt)
    (evolves : Evolves nodeTtlMs before after) :
    after.Confirmed nodeTtlMs instanceId startedAt where
  past := confirmed.past.trans evolves.later
  score score found := by
    rcases evolves.score _ score found with old | rfl
    · exact confirmed.score score old
    · exact confirmed.past
  removal time removed := by
    rcases evolves.removal _ time removed with old | ⟨rfl, score, found, overdue⟩
    · exact confirmed.removal time old
    · have bound := confirmed.score score found
      omega

theorem Evolves.refl (cluster : Cluster) : Evolves nodeTtlMs cluster cluster :=
  ⟨le_rfl, fun _ _ => Or.inl, fun _ _ => Or.inl⟩

theorem Evolves.then_same {middle : Cluster} (evolves : Evolves nodeTtlMs before middle)
    (store : after.store = middle.store) (removals : after.removals = middle.removals) :
    Evolves nodeTtlMs before after := by
  refine ⟨?_, ?_, ?_⟩
  · rw [store]
    exact evolves.later
  · rw [store]
    exact evolves.score
  · rw [removals]
    exact evolves.removal

theorem Evolves.of_same (store : after.store = before.store)
    (removals : after.removals = before.removals) : Evolves nodeTtlMs before after :=
  (Evolves.refl before).then_same store removals

end Confirmation

section Soundness

/-- An id that was never a member. -/
structure Fresh (cluster : Cluster) (instanceId : InstanceId) : Prop where
  absent : cluster.store.heartbeats.get? (printId instanceId) = none
  notRemoved : ∀ time, (printId instanceId, time) ∉ cluster.removals

theorem Fresh.of_same {before after : Cluster} {instanceId : InstanceId}
    (fresh : before.Fresh instanceId) (store : after.store = before.store)
    (removals : after.removals = before.removals) : after.Fresh instanceId where
  absent := by
    rw [store]
    exact fresh.absent
  notRemoved := by
    rw [removals]
    exact fresh.notRemoved

/-- Scores and removals lie in the past, a removed id is gone, and the counter has reached every
member. -/
structure KeysSound (cluster : Cluster) : Prop where
  scores : ∀ id score, cluster.store.heartbeats.get? id = some score → score ≤ cluster.store.now
  removals : ∀ id time, (id, time) ∈ cluster.removals → time ≤ cluster.store.now
  gone : ∀ id time, (id, time) ∈ cluster.removals → cluster.store.heartbeats.get? id = none
  unborn : ∀ instanceId, cluster.store.nextId < instanceId → cluster.Fresh instanceId

/-- An acquired id is created at most once: one service or one stray request can still do it. -/
structure PendingSound (cluster : Cluster) : Prop where
  acquired : ∀ process instanceId, (cluster.services process).uncreated = some instanceId →
    instanceId ≤ cluster.store.nextId ∧ cluster.Fresh instanceId
  distinct : ∀ first second instanceId, (cluster.services first).uncreated = some instanceId →
    (cluster.services second).uncreated = some instanceId → first = second
  strayFresh : ∀ instanceId, MeshRequest.create instanceId ∈ cluster.stray →
    instanceId ≤ cluster.store.nextId ∧ cluster.Fresh instanceId
  strayDistinct : ∀ process instanceId, (cluster.services process).uncreated = some instanceId →
    MeshRequest.create instanceId ∉ cluster.stray
  strayOnce : ∀ instanceId, cluster.stray.count (MeshRequest.create instanceId) ≤ 1

/-- What every cluster keeps. -/
structure Sound (nodeTtlMs : ℤ) (cluster : Cluster) : Prop where
  keys : cluster.KeysSound
  pending : cluster.PendingSound
  services : ∀ process, (cluster.services process).Sound (cluster.Confirmed nodeTtlMs) nodeTtlMs
    cluster.store.now

theorem initial_sound (nodeTtlMs now : ℤ) : (initial now).Sound nodeTtlMs where
  keys := ⟨by simp [initial, MeshStore.empty], by simp [initial], by simp [initial],
    fun _ _ => ⟨rfl, by simp [initial]⟩⟩
  pending := ⟨by simp [initial, MeshService.initial, MeshService.uncreated],
    by simp [initial, MeshService.initial, MeshService.uncreated], by simp [initial],
    by simp [initial], by simp [initial]⟩
  services _ := MeshService.Sound.initial

variable {nodeTtlMs : ℤ} {cluster : Cluster} {process : ℕ} {service : MeshService}

theorem PendingSound.update (pending : cluster.PendingSound) {requests : List MeshRequest}
    (handed : ∀ instanceId, requests.count (.create instanceId) + service.creations instanceId ≤
      (cluster.services process).creations instanceId) :
    ((cluster.abandon requests).update process service).PendingSound := by
  have kept : ∀ {instanceId}, service.uncreated = some instanceId →
      (cluster.services process).uncreated = some instanceId ∧
        .create instanceId ∉ requests := by
    intro instanceId isOurs
    have bound := handed instanceId
    simp only [MeshService.creations, isOurs, if_true] at bound
    split at bound
    · rename_i wasOurs
      refine ⟨wasOurs, ?_⟩
      intro given
      have := List.count_pos_iff.mpr given
      omega
    · omega
  have given : ∀ {instanceId}, .create instanceId ∈ requests →
      (cluster.services process).uncreated = some instanceId := by
    intro instanceId isGiven
    have bound := handed instanceId
    have positive := List.count_pos_iff.mpr isGiven
    by_contra notOurs
    simp only [MeshService.creations, notOurs, if_false] at bound
    omega
  have uncreated : ∀ {other instanceId},
      (Function.update cluster.services process service other).uncreated = some instanceId →
      (cluster.services other).uncreated = some instanceId := by
    intro other instanceId isUncreated
    by_cases same : other = process
    · subst same
      rw [Function.update_self] at isUncreated
      exact (kept isUncreated).1
    · rwa [Function.update_of_ne same] at isUncreated
  have known : ∀ {instanceId}, instanceId ≤ cluster.store.nextId ∧ cluster.Fresh instanceId →
      instanceId ≤ ((cluster.abandon requests).update process service).store.nextId ∧
        ((cluster.abandon requests).update process service).Fresh instanceId := by
    rintro instanceId ⟨issued, fresh⟩
    exact ⟨issued, fresh.of_same rfl rfl⟩
  refine ⟨?_, ?_, ?_, ?_, ?_⟩
  · intro other instanceId isUncreated
    exact known (pending.acquired other instanceId (uncreated isUncreated))
  · intro first second instanceId isFirst isSecond
    exact pending.distinct first second instanceId (uncreated isFirst) (uncreated isSecond)
  · intro instanceId isStray
    rcases List.mem_append.mp isStray with isGiven | old
    · exact known (pending.acquired process instanceId (given isGiven))
    · exact known (pending.strayFresh instanceId old)
  · intro other instanceId isUncreated isStray
    rcases List.mem_append.mp isStray with isGiven | old
    · have same : other = process :=
        pending.distinct other process instanceId (uncreated isUncreated) (given isGiven)
      subst same
      simp only [Cluster.update, Function.update_self] at isUncreated
      exact (kept isUncreated).2 isGiven
    · exact pending.strayDistinct other instanceId (uncreated isUncreated) old
  · intro instanceId
    have bound := handed instanceId
    have once := pending.strayOnce instanceId
    simp only [Cluster.update, Cluster.abandon, List.count_append]
    by_cases isGiven : .create instanceId ∈ requests
    · have absent := pending.strayDistinct process instanceId (given isGiven)
      have none := List.count_eq_zero.mpr absent
      simp only [MeshService.creations] at bound
      split at bound <;> split at bound <;> omega
    · have none := List.count_eq_zero.mpr isGiven
      omega

theorem Sound.update (sound : cluster.Sound nodeTtlMs) {requests : List MeshRequest}
    (changed : service.Sound (cluster.Confirmed nodeTtlMs) nodeTtlMs cluster.store.now)
    (handed : ∀ instanceId, requests.count (.create instanceId) + service.creations instanceId ≤
      (cluster.services process).creations instanceId) :
    ((cluster.abandon requests).update process service).Sound nodeTtlMs := by
  refine ⟨⟨sound.keys.scores, sound.keys.removals, sound.keys.gone, ?_⟩,
    sound.pending.update handed, ?_⟩
  · intro instanceId unborn
    exact (sound.keys.unborn instanceId unborn).of_same rfl rfl
  · intro other
    have kept : ∀ {changed : MeshService},
        changed.Sound (cluster.Confirmed nodeTtlMs) nodeTtlMs cluster.store.now →
        changed.Sound (((cluster.abandon requests).update process service).Confirmed nodeTtlMs)
          nodeTtlMs cluster.store.now := fun isSound =>
      isSound.mono (fun _ _ confirmed => confirmed.evolve (Evolves.of_same rfl rfl)) le_rfl
    by_cases same : other = process
    · subst same
      simp only [Cluster.update, Function.update_self]
      exact kept changed
    · simp only [Cluster.update, Function.update_of_ne same]
      exact kept (sound.services other)

/-- Some service or some stray request can still create the id. -/
def Pending (cluster : Cluster) (instanceId : InstanceId) : Prop :=
  (∃ process, (cluster.services process).uncreated = some instanceId) ∨
    .create instanceId ∈ cluster.stray

theorem PendingSound.keysChange {after : Cluster} (pending : cluster.PendingSound)
    (services : after.services = cluster.services) (stray : after.stray = cluster.stray)
    (issued : cluster.store.nextId ≤ after.store.nextId)
    (fresh : ∀ instanceId, cluster.Pending instanceId → cluster.Fresh instanceId →
      after.Fresh instanceId) : after.PendingSound where
  acquired process instanceId isUncreated := by
    rw [services] at isUncreated
    rcases pending.acquired process instanceId isUncreated with ⟨bound, isFresh⟩
    exact ⟨bound.trans issued, fresh instanceId (Or.inl ⟨process, isUncreated⟩) isFresh⟩
  distinct := by
    rw [services]
    exact pending.distinct
  strayFresh instanceId isStray := by
    rw [stray] at isStray
    rcases pending.strayFresh instanceId isStray with ⟨bound, isFresh⟩
    exact ⟨bound.trans issued, fresh instanceId (Or.inr isStray) isFresh⟩
  strayDistinct := by
    rw [services, stray]
    exact pending.strayDistinct
  strayOnce := by
    rw [stray]
    exact pending.strayOnce

theorem Sound.keysChange {after : Cluster} (sound : cluster.Sound nodeTtlMs)
    (services : after.services = cluster.services) (stray : after.stray = cluster.stray)
    (keys : after.KeysSound) (evolves : Evolves nodeTtlMs cluster after)
    (issued : cluster.store.nextId ≤ after.store.nextId)
    (fresh : ∀ instanceId, cluster.Pending instanceId → cluster.Fresh instanceId →
      after.Fresh instanceId) : after.Sound nodeTtlMs where
  keys := keys
  pending := sound.pending.keysChange services stray issued fresh
  services process := by
    rw [services]
    exact (sound.services process).mono (fun _ _ confirmed => confirmed.evolve evolves)
      evolves.later

section Execution

variable {request : MeshRequest}

theorem evolves_execute : Evolves nodeTtlMs cluster (cluster.execute nodeTtlMs request) where
  later := (cluster.store.execute_now nodeTtlMs request).ge
  score id score found := by
    rcases MeshStore.execute_score found with old | ⟨current, _⟩
    · exact Or.inl old
    · exact Or.inr current
  removal _ _ := Or.inl

theorem Fresh.execute {instanceId : InstanceId} (fresh : cluster.Fresh instanceId)
    (other : request ≠ .create instanceId) :
    (cluster.execute nodeTtlMs request).Fresh instanceId where
  absent := by
    by_contra present
    rcases Option.ne_none_iff_exists'.mp present with ⟨score, found⟩
    rcases MeshStore.execute_score found with old | ⟨_, present | ⟨created, rfl, same⟩⟩
    · cases fresh.absent.symm.trans old
    · exact present fresh.absent
    · exact other (by rw [printId_injective same])
  notRemoved := fresh.notRemoved

theorem KeysSound.execute (keys : cluster.KeysSound)
    (creates : ∀ instanceId, request = .create instanceId →
      instanceId ≤ cluster.store.nextId ∧ cluster.Fresh instanceId) :
    (cluster.execute nodeTtlMs request).KeysSound := by
  have now : (cluster.execute nodeTtlMs request).store.now = cluster.store.now :=
    cluster.store.execute_now nodeTtlMs request
  have issued : cluster.store.nextId ≤ (cluster.execute nodeTtlMs request).store.nextId := by
    have next := cluster.store.execute_nextId nodeTtlMs request
    simp only [Cluster.execute, next]
    split <;> omega
  refine ⟨?_, ?_, ?_, ?_⟩
  · intro id score found
    rw [now]
    rcases MeshStore.execute_score found with old | ⟨current, _⟩
    · exact keys.scores id score old
    · exact current.le
  · intro id time removed
    rw [now]
    exact keys.removals id time removed
  · intro id time removed
    by_contra present
    rcases Option.ne_none_iff_exists'.mp present with ⟨score, found⟩
    rcases MeshStore.execute_score found with old | ⟨_, present | ⟨instanceId, created, same⟩⟩
    · cases (keys.gone id time removed).symm.trans old
    · exact present (keys.gone id time removed)
    · rw [← same] at removed
      exact (creates instanceId created).2.notRemoved time removed
  · intro instanceId unborn
    refine (keys.unborn instanceId (issued.trans_lt unborn)).execute ?_
    intro created
    exact (issued.trans_lt unborn).not_ge (creates instanceId created).1

theorem Sound.execute (sound : cluster.Sound nodeTtlMs)
    (creates : ∀ instanceId, request = .create instanceId →
      instanceId ≤ cluster.store.nextId ∧ cluster.Fresh instanceId ∧
        ¬cluster.Pending instanceId) :
    (cluster.execute nodeTtlMs request).Sound nodeTtlMs := by
  refine sound.keysChange rfl rfl ?_ evolves_execute ?_ ?_
  · refine sound.keys.execute ?_
    intro instanceId created
    exact ⟨(creates instanceId created).1, (creates instanceId created).2.1⟩
  · have next := cluster.store.execute_nextId nodeTtlMs request
    simp only [Cluster.execute, next]
    split <;> omega
  · intro instanceId isPending isFresh
    refine isFresh.execute ?_
    intro created
    exact (creates instanceId created).2.2 isPending

theorem Sound.servicesReplied (sound : cluster.Sound nodeTtlMs)
    (changed : service.Sound ((cluster.execute nodeTtlMs request).Confirmed nodeTtlMs) nodeTtlMs
      cluster.store.now) (other : ℕ) :
    (Function.update cluster.services process service other).Sound
      (((cluster.execute nodeTtlMs request).update process service).Confirmed nodeTtlMs) nodeTtlMs
      (cluster.store.execute nodeTtlMs request).now := by
  have now : cluster.store.now ≤ (cluster.store.execute nodeTtlMs request).now :=
    (cluster.store.execute_now nodeTtlMs request).ge
  by_cases same : other = process
  · subst same
    rw [Function.update_self]
    exact changed.mono (fun _ _ confirmed => confirmed.evolve (Evolves.of_same rfl rfl)) now
  · rw [Function.update_of_ne same]
    refine (sound.services other).mono (fun _ _ confirmed => ?_) now
    exact (confirmed.evolve evolves_execute).evolve (Evolves.of_same rfl rfl)

theorem Sound.executeUpdate (sound : cluster.Sound nodeTtlMs)
    (creates : ∀ instanceId, request = .create instanceId →
      (cluster.services process).uncreated = some instanceId ∧ service.uncreated = none)
    (kept : ∀ instanceId, service.creations instanceId ≤
      (cluster.services process).creations instanceId)
    (changed : service.Sound ((cluster.execute nodeTtlMs request).Confirmed nodeTtlMs) nodeTtlMs
      cluster.store.now) :
    ((cluster.execute nodeTtlMs request).update process service).Sound nodeTtlMs := by
  have updated : (cluster.update process service).PendingSound :=
    @PendingSound.update cluster process service sound.pending [] (by simpa using kept)
  refine ⟨?_, ?_, ?_⟩
  · have executed : (cluster.execute nodeTtlMs request).KeysSound := by
      refine sound.keys.execute ?_
      intro instanceId created
      exact sound.pending.acquired process instanceId (creates instanceId created).1
    refine ⟨executed.scores, executed.removals, executed.gone, ?_⟩
    intro instanceId unborn
    exact (executed.unborn instanceId unborn).of_same rfl rfl
  · refine updated.keysChange rfl rfl ?_ ?_
    · have next := cluster.store.execute_nextId nodeTtlMs request
      simp only [Cluster.update, Cluster.execute, next]
      split <;> omega
    · intro instanceId isPending isFresh
      refine isFresh.execute ?_
      intro created
      rcases creates instanceId created with ⟨wasOurs, isNone⟩
      rcases isPending with ⟨other, isUncreated⟩ | isStray
      · by_cases same : other = process
        · subst same
          simp [Cluster.update, isNone] at isUncreated
        · simp only [Cluster.update, Function.update_of_ne same] at isUncreated
          exact same (sound.pending.distinct other process instanceId isUncreated wasOurs)
      · exact sound.pending.strayDistinct process instanceId wasOurs isStray
  · exact sound.servicesReplied changed

theorem Sound.executeIncr (sound : cluster.Sound nodeTtlMs)
    (acquired : service.uncreated = some (cluster.store.nextId + 1))
    (changed : service.Sound ((cluster.execute nodeTtlMs .incr).Confirmed nodeTtlMs) nodeTtlMs
      cluster.store.now) :
    ((cluster.execute nodeTtlMs .incr).update process service).Sound nodeTtlMs := by
  have old : ∀ {other instanceId}, other ≠ process →
      (Function.update cluster.services process service other).uncreated = some instanceId →
      (cluster.services other).uncreated = some instanceId := by
    intro other instanceId differs isUncreated
    rwa [Function.update_of_ne differs] at isUncreated
  have ours : ∀ {instanceId},
      (Function.update cluster.services process service process).uncreated = some instanceId →
      instanceId = cluster.store.nextId + 1 := by
    intro instanceId isUncreated
    rw [Function.update_self, acquired] at isUncreated
    exact (Option.some.inj isUncreated).symm
  have fresh : ∀ {instanceId}, cluster.Fresh instanceId →
      ((cluster.execute nodeTtlMs .incr).update process service).Fresh instanceId := by
    intro instanceId isFresh
    have executed : (cluster.execute nodeTtlMs .incr).Fresh instanceId :=
      isFresh.execute (by simp)
    exact executed.of_same rfl rfl
  have known : ∀ {instanceId},
      instanceId ≤ cluster.store.nextId ∧ cluster.Fresh instanceId →
      instanceId ≤ cluster.store.nextId + 1 ∧
        ((cluster.execute nodeTtlMs .incr).update process service).Fresh instanceId := by
    rintro instanceId ⟨issued, isFresh⟩
    exact ⟨Nat.le_succ_of_le issued, fresh isFresh⟩
  have executed : (cluster.execute nodeTtlMs .incr).KeysSound := sound.keys.execute (by simp)
  refine ⟨⟨executed.scores, executed.removals, executed.gone, ?_⟩, ⟨?_, ?_, ?_, ?_, ?_⟩, ?_⟩
  · intro instanceId unborn
    exact (executed.unborn instanceId unborn).of_same rfl rfl
  · intro other instanceId isUncreated
    by_cases same : other = process
    · subst same
      cases ours isUncreated
      exact ⟨le_rfl, fresh (sound.keys.unborn (cluster.store.nextId + 1) (Nat.lt_succ_self _))⟩
    · exact known (sound.pending.acquired other instanceId (old same isUncreated))
  · intro first second instanceId isFirst isSecond
    have bounded : ∀ {other}, other ≠ process →
        (Function.update cluster.services process service other).uncreated = some instanceId →
        instanceId ≠ cluster.store.nextId + 1 := by
      intro other differs isUncreated
      have bound := (sound.pending.acquired other instanceId (old differs isUncreated)).1
      exact (Nat.lt_succ_of_le bound).ne
    by_cases isOurs : first = process
    · subst isOurs
      by_contra differs
      exact bounded (Ne.symm differs) isSecond (ours isFirst)
    · by_cases isOurs' : second = process
      · subst isOurs'
        exact absurd (ours isSecond) (bounded isOurs isFirst)
      · exact sound.pending.distinct first second instanceId (old isOurs isFirst)
          (old isOurs' isSecond)
  · intro instanceId isStray
    exact known (sound.pending.strayFresh instanceId isStray)
  · intro other instanceId isUncreated isStray
    by_cases same : other = process
    · subst same
      have bound := (sound.pending.strayFresh instanceId isStray).1
      exact (Nat.lt_succ_of_le bound).ne (ours isUncreated)
    · exact sound.pending.strayDistinct other instanceId (old same isUncreated) isStray
  · exact sound.pending.strayOnce
  · exact sound.servicesReplied changed

end Execution

end Soundness

end Cluster

end ServerFoundation.Mesh
