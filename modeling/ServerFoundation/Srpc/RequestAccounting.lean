import ServerFoundation.Srpc.ServerStream

/-!
# Accounting of server requests

Every invocation waits in the queue or has an outcome, never both. The bytes that
are retained are those of the queue, because an invocation releases its bytes when
it leaves the queue and the release is guarded against a second call.
-/

namespace ServerFoundation.Srpc

namespace ServerRequests

variable {Payload : Type}

/-- The invocation is in the queue. -/
def Waits (requests : ServerRequests Payload) (serial : ℕ) : Prop :=
  ∃ requestId queued, requests.queue.get? requestId = some queued ∧ queued.serial = serial

/-- The promise of the invocation has an outcome. -/
def Settled (requests : ServerRequests Payload) (serial : ℕ) : Prop :=
  serial ∈ requests.settled.map Prod.fst

/-- The accounting of the requests is exact. -/
structure Sound (limit : ℕ) (requests : ServerRequests Payload) : Prop where
  distinct : ∀ first second queued other, requests.queue.get? first = some queued →
    requests.queue.get? second = some other → queued.serial = other.serial → first = second
  issued : ∀ serial, serial < requests.invocations ↔
    requests.Waits serial ∨ requests.Settled serial
  exclusive : ∀ serial, requests.Waits serial → ¬requests.Settled serial
  once : (requests.settled.map Prod.fst).Nodup
  retained : ∀ serial, serial ∈ requests.retained ↔ requests.Waits serial
  retainedOnce : requests.retained.Nodup
  bytes : requests.pendingServerRequestBytes = requests.queue.total QueuedRequest.bytes
  bounded : requests.pendingServerRequestBytes ≤ limit

section Conclusion

variable {requests : ServerRequests Payload} {queued : QueuedRequest}

theorem settle_of_unsettled {serial : ℕ} (unsettled : ¬requests.Settled serial)
    (outcome : InvokeOutcome Payload) :
    requests.settle serial outcome =
      { requests with settled := (serial, outcome) :: requests.settled } :=
  if_neg unsettled

theorem conclude_of_retained (isRetained : queued.serial ∈ requests.retained)
    (unsettled : ¬requests.Settled queued.serial) (outcome : InvokeOutcome Payload) :
    requests.conclude queued outcome =
      { requests with
        retained := requests.retained.erase queued.serial
        pendingServerRequestBytes := requests.pendingServerRequestBytes - queued.bytes
        settled := (queued.serial, outcome) :: requests.settled } := by
  rw [conclude, releaseRetainedBytes, if_pos isRetained, settle]
  exact if_neg unsettled

theorem conclude_of_settled (released : queued.serial ∉ requests.retained)
    (settled : requests.Settled queued.serial) (outcome : InvokeOutcome Payload) :
    requests.conclude queued outcome = requests := by
  rw [conclude, releaseRetainedBytes, if_neg released, settle]
  exact if_pos settled

@[simp]
theorem conclude_queue (requests : ServerRequests Payload) (queued : QueuedRequest)
    (outcome : InvokeOutcome Payload) :
        (requests.conclude queued outcome).queue = requests.queue := by
  rw [conclude, releaseRetainedBytes]
  split <;> rw [settle] <;> split <;> rfl

end Conclusion

namespace Sound

variable {requests : ServerRequests Payload} {limit : ℕ} {requestId : String}
  {queued : QueuedRequest}

theorem empty (limit : ℕ) : (ServerRequests.empty : ServerRequests Payload).Sound limit where
  distinct _ _ _ _ found := by cases found
  issued serial := by
    constructor
    · intro impossible
      exact absurd impossible (Nat.not_lt_zero serial)
    · rintro (⟨_, _, found, _⟩ | settled)
      · cases found
      · cases settled
  exclusive _ waits := by
    rcases waits with ⟨_, _, found, _⟩
    cases found
  once := List.nodup_nil
  retained serial := by
    constructor
    · intro impossible
      cases impossible
    · rintro ⟨_, _, found, _⟩
      cases found
  retainedOnce := List.nodup_nil
  bytes := rfl
  bounded := Nat.zero_le limit

theorem waits_erase (sound : requests.Sound limit)
    (found : requests.queue.get? requestId = some queued) (serial : ℕ) :
    { requests with queue := requests.queue.erase requestId }.Waits serial ↔
      requests.Waits serial ∧ serial ≠ queued.serial := by
  constructor
  · rintro ⟨other, request, foundOther, rfl⟩
    rw [OrderedMap.get?_erase] at foundOther
    split at foundOther
    · cases foundOther
    · rename_i differs
      refine ⟨⟨other, request, foundOther, rfl⟩, ?_⟩
      intro same
      exact differs (sound.distinct other requestId request queued foundOther found same)
  · rintro ⟨⟨other, request, foundOther, rfl⟩, differs⟩
    refine ⟨other, request, ?_, rfl⟩
    rw [OrderedMap.get?_erase, if_neg]
    · exact foundOther
    · rintro rfl
      rw [foundOther] at found
      cases found
      exact differs rfl

theorem remove (sound : requests.Sound limit)
    (found : requests.queue.get? requestId = some queued) (outcome : InvokeOutcome Payload) :
    { requests with queue := requests.queue.erase requestId }.conclude queued outcome =
        { requests with
          queue := requests.queue.erase requestId
          retained := requests.retained.erase queued.serial
          pendingServerRequestBytes := requests.pendingServerRequestBytes - queued.bytes
          settled := (queued.serial, outcome) :: requests.settled } ∧
      ({ requests with queue := requests.queue.erase requestId }.conclude queued outcome).Sound
        limit := by
  have waits : requests.Waits queued.serial := ⟨requestId, queued, found, rfl⟩
  have unsettled := sound.exclusive queued.serial waits
  have isRetained := (sound.retained queued.serial).mpr waits
  have concluded := @conclude_of_retained _
    { requests with queue := requests.queue.erase requestId } queued isRetained unsettled outcome
  refine ⟨concluded, ?_⟩
  rw [concluded]
  have remains := sound.waits_erase found
  have weight := OrderedMap.total_erase QueuedRequest.bytes requests.queue found
  refine ⟨?_, ?_, ?_, ?_, ?_, ?_, ?_, ?_⟩
  · intro first second request other foundFirst foundSecond same
    rw [OrderedMap.get?_erase] at foundFirst foundSecond
    split at foundFirst
    · cases foundFirst
    · split at foundSecond
      · cases foundSecond
      · exact sound.distinct first second request other foundFirst foundSecond same
  · intro serial
    have isIssued := sound.issued serial
    have stays := remains serial
    simp only [Waits, Settled, List.map_cons, List.mem_cons] at isIssued stays ⊢
    rw [isIssued, stays]
    constructor
    · rintro (isWaiting | settled)
      · by_cases same : serial = queued.serial
        · exact Or.inr (Or.inl same)
        · exact Or.inl ⟨isWaiting, same⟩
      · exact Or.inr (Or.inr settled)
    · rintro (⟨isWaiting, _⟩ | rfl | settled)
      · exact Or.inl isWaiting
      · exact Or.inl waits
      · exact Or.inr settled
  · intro serial isWaiting settled
    rcases (remains serial).mp isWaiting with ⟨wasWaiting, differs⟩
    rcases List.mem_cons.mp settled with same | wasSettled
    · exact differs same
    · exact sound.exclusive serial wasWaiting wasSettled
  · exact List.nodup_cons.mpr ⟨unsettled, sound.once⟩
  · intro serial
    rw [sound.retainedOnce.mem_erase_iff, sound.retained serial]
    exact and_comm.trans (remains serial).symm
  · exact sound.retainedOnce.erase queued.serial
  · have total := sound.bytes
    simp only
    omega
  · have bounded := sound.bounded
    simp only
    omega

theorem settleNew (sound : requests.Sound limit) (outcome : InvokeOutcome Payload) :
    { requests with invocations := requests.invocations + 1 }.settle requests.invocations
          outcome =
        { requests with
          invocations := requests.invocations + 1
          settled := (requests.invocations, outcome) :: requests.settled } ∧
      ({ requests with invocations := requests.invocations + 1 }.settle requests.invocations
        outcome).Sound limit := by
  have unissued : ¬(requests.Waits requests.invocations ∨
      requests.Settled requests.invocations) := by
    rw [← sound.issued]
    exact lt_irrefl _
  have settles := @settle_of_unsettled _
    { requests with invocations := requests.invocations + 1 } requests.invocations
    (fun settled => unissued (Or.inr settled)) outcome
  refine ⟨settles, ?_⟩
  rw [settles]
  refine ⟨sound.distinct, ?_, ?_, ?_, sound.retained, sound.retainedOnce, sound.bytes,
    sound.bounded⟩
  · intro serial
    have isIssued := sound.issued serial
    simp only [Waits, Settled, List.map_cons, List.mem_cons] at isIssued ⊢
    rw [Nat.lt_succ_iff_lt_or_eq, isIssued]
    constructor
    · rintro ((isWaiting | settled) | same)
      · exact Or.inl isWaiting
      · exact Or.inr (Or.inr settled)
      · exact Or.inr (Or.inl same)
    · rintro (isWaiting | same | settled)
      · exact Or.inl (Or.inl isWaiting)
      · exact Or.inr same
      · exact Or.inl (Or.inr settled)
  · intro serial isWaiting settled
    rcases List.mem_cons.mp settled with rfl | wasSettled
    · exact unissued (Or.inl isWaiting)
    · exact sound.exclusive serial isWaiting wasSettled
  · exact List.nodup_cons.mpr ⟨fun settled => unissued (Or.inr settled), sound.once⟩

theorem waits_register (absent : requests.queue.get? requestId = none) (serial : ℕ) :
    (requests.register requestId queued).Waits serial ↔
      requests.Waits serial ∨ serial = queued.serial := by
  constructor
  · rintro ⟨other, request, found, rfl⟩
    simp only [register, OrderedMap.get?_set] at found
    split at found
    · cases found
      exact Or.inr rfl
    · exact Or.inl ⟨other, request, found, rfl⟩
  · rintro (⟨other, request, found, rfl⟩ | rfl)
    · refine ⟨other, request, ?_, rfl⟩
      simp only [register, OrderedMap.get?_set]
      rw [if_neg]
      · exact found
      · rintro rfl
        cases absent.symm.trans found
    · refine ⟨requestId, queued, ?_, rfl⟩
      simp only [register, OrderedMap.get?_set, if_pos]

theorem register (sound : requests.Sound limit) (absent : requests.queue.get? requestId = none)
    (serial : queued.serial = requests.invocations)
    (fits : requests.pendingServerRequestBytes + queued.bytes ≤ limit) :
    ({ requests with invocations := requests.invocations + 1 }.register requestId queued).Sound
      limit := by
  have unissued : ¬(requests.Waits queued.serial ∨ requests.Settled queued.serial) := by
    rw [← sound.issued, serial]
    exact lt_irrefl _
  have waits := @waits_register _ { requests with invocations := requests.invocations + 1 }
    requestId queued absent
  refine ⟨?_, ?_, ?_, sound.once, ?_, ?_, ?_, fits⟩
  · intro first second request other foundFirst foundSecond same
    simp only [ServerRequests.register, OrderedMap.get?_set] at foundFirst foundSecond
    split at foundFirst
    · rename_i isFirst
      cases foundFirst
      split at foundSecond
      · rename_i isSecond
        rw [isFirst, isSecond]
      · exact absurd (Or.inl ⟨second, other, foundSecond, same.symm⟩) unissued
    · split at foundSecond
      · cases foundSecond
        exact absurd (Or.inl ⟨first, request, foundFirst, same⟩) unissued
      · exact sound.distinct first second request other foundFirst foundSecond same
  · intro other
    have isIssued := sound.issued other
    rw [waits other]
    simp only [ServerRequests.register, Waits, Settled] at isIssued ⊢
    rw [Nat.lt_succ_iff_lt_or_eq, isIssued, ← serial]
    constructor
    · rintro ((isWaiting | settled) | same)
      · exact Or.inl (Or.inl isWaiting)
      · exact Or.inr settled
      · exact Or.inl (Or.inr same)
    · rintro ((isWaiting | same) | settled)
      · exact Or.inl (Or.inl isWaiting)
      · exact Or.inr same
      · exact Or.inl (Or.inr settled)
  · intro other isWaiting settled
    rcases (waits other).mp isWaiting with wasWaiting | rfl
    · exact sound.exclusive other wasWaiting settled
    · exact unissued (Or.inr settled)
  · intro other
    rw [waits other]
    refine (List.mem_cons.trans ?_).trans or_comm
    exact or_congr Iff.rfl (sound.retained other)
  · refine List.nodup_cons.mpr ⟨fun isRetained => ?_, sound.retainedOnce⟩
    exact unissued (Or.inl ((sound.retained _).mp isRetained))
  · have total := sound.bytes
    have weight := OrderedMap.total_set_of_absent QueuedRequest.bytes requests.queue queued absent
    simp only [ServerRequests.register]
    omega

theorem acknowledge (sound : requests.Sound limit)
    (found : requests.queue.get? requestId = some queued) :
    (requests.acknowledge requestId queued).Sound limit := by
  have stored : ∀ {other request},
      (requests.acknowledge requestId queued).queue.get? other = some request →
      ∃ old, requests.queue.get? other = some old ∧ old.serial = request.serial := by
    intro other request foundOther
    simp only [ServerRequests.acknowledge, OrderedMap.get?_set] at foundOther
    split at foundOther
    · rename_i same
      cases foundOther
      exact ⟨queued, by rw [same]; exact found, rfl⟩
    · exact ⟨request, foundOther, rfl⟩
  have waits : ∀ serial, (requests.acknowledge requestId queued).Waits serial ↔
      requests.Waits serial := by
    intro serial
    constructor
    · rintro ⟨other, request, foundOther, rfl⟩
      rcases stored foundOther with ⟨old, foundOld, same⟩
      exact ⟨other, old, foundOld, same⟩
    · rintro ⟨other, request, foundOther, rfl⟩
      by_cases same : other = requestId
      · subst same
        cases found.symm.trans foundOther
        refine ⟨other, { queued with acknowledged := true }, ?_, rfl⟩
        simp only [ServerRequests.acknowledge, OrderedMap.get?_set, if_pos]
      · refine ⟨other, request, ?_, rfl⟩
        simp only [ServerRequests.acknowledge, OrderedMap.get?_set]
        rw [if_neg same]
        exact foundOther
  refine ⟨?_, ?_, ?_, sound.once, ?_, sound.retainedOnce, ?_, sound.bounded⟩
  · intro first second request other foundFirst foundSecond same
    rcases stored foundFirst with ⟨oldFirst, isFirst, sameFirst⟩
    rcases stored foundSecond with ⟨oldSecond, isSecond, sameSecond⟩
    refine sound.distinct first second oldFirst oldSecond isFirst isSecond ?_
    rw [sameFirst, sameSecond, same]
  · intro serial
    rw [waits serial]
    exact sound.issued serial
  · intro serial isWaiting
    exact sound.exclusive serial ((waits serial).mp isWaiting)
  · intro serial
    rw [waits serial]
    exact sound.retained serial
  · have exchanged := OrderedMap.total_set_of_present QueuedRequest.bytes requests.queue
      { queued with acknowledged := true } found
    rw [Nat.add_right_cancel_iff] at exchanged
    exact sound.bytes.trans exchanged.symm

section Rejection

theorem foldl_conclude {entries : List (String × QueuedRequest)} (outcome : InvokeOutcome Payload)
    (distinct : (entries.map fun entry => entry.2.serial).Nodup)
    (isRetained : ∀ entry ∈ entries, entry.2.serial ∈ requests.retained)
    (once : requests.retained.Nodup)
    (unsettled : ∀ entry ∈ entries, ¬requests.Settled entry.2.serial) :
    ∃ retained bytes,
      entries.foldl (fun (requests : ServerRequests Payload) entry =>
        requests.conclude entry.2 outcome) requests =
          { requests with
            retained := retained
            pendingServerRequestBytes := bytes
            settled := (entries.map fun entry => (entry.2.serial, outcome)).reverse ++
              requests.settled } ∧
        ∀ serial, serial ∈ retained ↔
          serial ∈ requests.retained ∧ serial ∉ entries.map fun entry => entry.2.serial := by
  induction entries generalizing requests with
  | nil => exact ⟨requests.retained, requests.pendingServerRequestBytes, rfl, by simp⟩
  | cons entry rest ih =>
      rw [List.map_cons, List.nodup_cons] at distinct
      have concluded := conclude_of_retained (isRetained entry List.mem_cons_self)
        (unsettled entry List.mem_cons_self) outcome
      have areRetained : ∀ other ∈ rest,
          other.2.serial ∈ requests.retained.erase entry.2.serial := by
        intro other mem
        refine once.mem_erase_iff.mpr ⟨?_, isRetained other (List.mem_cons_of_mem _ mem)⟩
        intro same
        exact distinct.1 (List.mem_map.mpr ⟨other, mem, same⟩)
      have areUnsettled : ∀ other ∈ rest,
          other.2.serial ∉ ((entry.2.serial, outcome) :: requests.settled).map Prod.fst := by
        intro other mem settled
        rcases List.mem_cons.mp settled with same | wasSettled
        · exact distinct.1 (List.mem_map.mpr ⟨other, mem, same⟩)
        · exact unsettled other (List.mem_cons_of_mem _ mem) wasSettled
      have later := @ih (requests.conclude entry.2 outcome) distinct.2
      rw [concluded] at later
      rcases later areRetained (once.erase _) areUnsettled with
        ⟨retained, bytes, folded, remaining⟩
      refine ⟨retained, bytes, ?_, ?_⟩
      · rw [List.foldl_cons, concluded, folded]
        simp
      · intro serial
        rw [remaining serial, once.mem_erase_iff, List.map_cons, List.mem_cons, not_or]
        exact ⟨fun both => ⟨both.1.2, both.1.1, both.2⟩, fun both => ⟨⟨both.2.1, both.1⟩, both.2.2⟩⟩

theorem mem_serials (requests : ServerRequests Payload) (serial : ℕ) :
    serial ∈ (requests.queue.entries.map fun entry => entry.2.serial) ↔ requests.Waits serial := by
  constructor
  · intro mem
    rcases List.mem_map.mp mem with ⟨entry, entryMem, rfl⟩
    exact ⟨entry.1, entry.2, (requests.queue.get?_eq_some_iff entry.1 entry.2).mpr entryMem, rfl⟩
  · rintro ⟨requestId, queued, found, rfl⟩
    exact List.mem_map.mpr
      ⟨(requestId, queued), (requests.queue.get?_eq_some_iff requestId queued).mp found, rfl⟩

theorem serials_nodup (sound : requests.Sound limit) :
    (requests.queue.entries.map fun entry => entry.2.serial).Nodup := by
  have entriesOnce : requests.queue.entries.Nodup := List.Nodup.of_map _ requests.queue.nodupKeys
  refine entriesOnce.map_on ?_
  intro first firstMem second secondMem same
  have foundFirst := (requests.queue.get?_eq_some_iff first.1 first.2).mpr firstMem
  have foundSecond := (requests.queue.get?_eq_some_iff second.1 second.2).mpr secondMem
  have sameKey := sound.distinct first.1 second.1 first.2 second.2 foundFirst foundSecond same
  rw [sameKey, foundSecond] at foundFirst
  exact Prod.ext sameKey (Option.some.inj foundFirst).symm

theorem rejectAll_eq (sound : requests.Sound limit) (cause : DisconnectCause) :
    requests.rejectAll cause =
      { requests with
        queue := .empty
        pendingServerRequestBytes := 0
        retained := []
        settled := (requests.queue.entries.map fun entry =>
          (entry.2.serial, .disconnected cause)).reverse ++ requests.settled } := by
  have waits : ∀ entry ∈ requests.queue.entries, requests.Waits entry.2.serial :=
    fun entry mem => (mem_serials requests _).mp (List.mem_map.mpr ⟨entry, mem, rfl⟩)
  rcases foldl_conclude (.disconnected cause) sound.serials_nodup
    (fun entry mem => (sound.retained _).mpr (waits entry mem)) sound.retainedOnce
    (fun entry mem => sound.exclusive _ (waits entry mem)) with
    ⟨retained, bytes, folded, remaining⟩
  have none : retained = [] := by
    rw [List.eq_nil_iff_forall_not_mem]
    intro serial isRetained
    rcases (remaining serial).mp isRetained with ⟨wasRetained, notQueued⟩
    exact notQueued ((mem_serials requests serial).mpr ((sound.retained serial).mp wasRetained))
  rw [ServerRequests.rejectAll, folded, none]

theorem rejectAll (sound : requests.Sound limit) (cause : DisconnectCause) :
    (requests.rejectAll cause).Sound limit := by
  have serials : ((requests.queue.entries.map fun entry =>
      (entry.2.serial, (InvokeOutcome.disconnected cause : InvokeOutcome Payload))).reverse ++
        requests.settled).map Prod.fst =
      (requests.queue.entries.map fun entry => entry.2.serial).reverse ++
        requests.settled.map Prod.fst := by
    simp [List.map_reverse, Function.comp_def]
  have settled : ∀ serial, (requests.rejectAll cause).Settled serial ↔
      requests.Waits serial ∨ requests.Settled serial := by
    intro serial
    rw [Settled, sound.rejectAll_eq cause, serials, List.mem_append, List.mem_reverse,
      mem_serials]
    rfl
  have gone : ∀ serial, ¬(requests.rejectAll cause).Waits serial := by
    rintro serial ⟨_, _, found, _⟩
    rw [sound.rejectAll_eq cause] at found
    cases found
  refine ⟨?_, ?_, ?_, ?_, ?_, ?_, ?_, ?_⟩
  · intro first second queued other found _ _
    exact absurd ⟨first, queued, found, rfl⟩ (gone queued.serial)
  · intro serial
    rw [settled serial, ← sound.issued serial, sound.rejectAll_eq cause]
    constructor
    · exact Or.inr
    · rintro (waits | issued)
      · rw [← sound.rejectAll_eq cause] at waits
        exact absurd waits (gone serial)
      · exact issued
  · intro serial waits
    exact absurd waits (gone serial)
  · rw [sound.rejectAll_eq cause, serials, List.nodup_append]
    refine ⟨List.nodup_reverse.mpr sound.serials_nodup, sound.once, ?_⟩
    intro first firstMem second secondMem same
    subst same
    rw [List.mem_reverse, mem_serials] at firstMem
    exact sound.exclusive first firstMem secondMem
  · intro serial
    rw [sound.rejectAll_eq cause]
    constructor
    · intro impossible
      cases impossible
    · rintro ⟨_, _, found, _⟩
      cases found
  · rw [sound.rejectAll_eq cause]
    exact List.nodup_nil
  · rw [sound.rejectAll_eq cause]
    rfl
  · rw [sound.rejectAll_eq cause]
    exact Nat.zero_le limit

end Rejection

theorem withTombstones (sound : requests.Sound limit) (tombstones : OrderedMap String ℤ) :
    { requests with lateReplyTombstones := tombstones }.Sound limit :=
  ⟨sound.distinct, sound.issued, sound.exclusive, sound.once, sound.retained, sound.retainedOnce,
    sound.bytes, sound.bounded⟩

end Sound

end ServerRequests

end ServerFoundation.Srpc
