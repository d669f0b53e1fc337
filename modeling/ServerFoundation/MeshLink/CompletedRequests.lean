import ServerFoundation.MeshLink.Peer

/-!
# The cache of completed requests

What pruning and storing do to the cache, in terms of the entries that can be found
in it afterwards. As long as the byte counter agrees with the entries, storing keeps
the cache within its limits, and says exactly when there is no room.
-/

namespace ServerFoundation.MeshLink

namespace Peer

variable {Body : Type} (peer : Peer Body) {completed : CompletedIncomingRequest Body}

/-- The same peer with another cache. -/
def withCompleted (completedIncoming : OrderedMap String (CompletedIncomingRequest Body))
    (completedIncomingBytes : ℕ) : Peer Body :=
  { peer with completedIncoming, completedIncomingBytes }

/-- Two peers that differ in their caches only. -/
def SameActive (other : Peer Body) : Prop :=
  other = peer.withCompleted other.completedIncoming other.completedIncomingBytes

theorem SameActive.refl : peer.SameActive peer := rfl

theorem SameActive.trans {first second third : Peer Body} (left : first.SameActive second)
    (right : second.SameActive third) : first.SameActive third := by
  unfold SameActive at left right ⊢
  rw [right, left]
  rfl

section SameActive

variable {peer} {other : Peer Body} (same : peer.SameActive other)

include same

theorem SameActive.activeIncoming : other.activeIncoming = peer.activeIncoming := by
  rw [same]
  rfl

theorem SameActive.tombstones :
    other.activeIncomingTombstones = peer.activeIncomingTombstones := by
  rw [same]
  rfl

theorem SameActive.tombstoneBytes :
    other.activeIncomingTombstoneBytes = peer.activeIncomingTombstoneBytes := by
  rw [same]
  rfl

end SameActive

/-- The byte counter agrees with the entries. -/
def Accounted : Prop :=
  peer.completedIncomingBytes = peer.completedIncoming.total (·.retainedBytes)

variable {peer}

theorem removeCompleted_sameActive (peer : Peer Body) (requestId : String) :
    peer.SameActive (peer.removeCompleted requestId) := by
  unfold removeCompleted
  split <;> rfl

theorem get?_removeCompleted (requestId other : String) :
    (peer.removeCompleted requestId).completedIncoming.get? other =
      if other = requestId then none else peer.completedIncoming.get? other := by
  unfold removeCompleted
  split
  · rename_i absent
    split
    · rename_i same
      rw [same, absent]
    · rfl
  · exact OrderedMap.get?_erase _ _ _

theorem Accounted.removeCompleted (accounted : peer.Accounted) (requestId : String) :
    (peer.removeCompleted requestId).Accounted := by
  unfold Peer.removeCompleted
  split
  · exact accounted
  · rename_i completed found
    have erased := OrderedMap.total_erase (·.retainedBytes) peer.completedIncoming found
    simp only [Accounted] at accounted ⊢
    omega

theorem size_removeCompleted (peer : Peer Body) (requestId : String) :
    (peer.removeCompleted requestId).completedIncoming.size +
        (if (peer.completedIncoming.get? requestId).isSome then 1 else 0) =
      peer.completedIncoming.size := by
  unfold removeCompleted
  cases found : peer.completedIncoming.get? requestId with
  | none => simp
  | some completed => simpa using OrderedMap.size_erase peer.completedIncoming found

theorem bytes_removeCompleted (accounted : peer.Accounted) (requestId : String) :
    (peer.removeCompleted requestId).completedIncomingBytes +
        ((peer.completedIncoming.get? requestId).map (·.retainedBytes)).getD 0 =
      peer.completedIncomingBytes := by
  unfold removeCompleted
  cases found : peer.completedIncoming.get? requestId with
  | none => simp
  | some completed =>
      have erased := OrderedMap.total_erase (·.retainedBytes) peer.completedIncoming found
      simp only [Accounted] at accounted
      simp
      omega

section Prune

variable (now : ℕ)

theorem removeExpired_all (entries : List (String × CompletedIncomingRequest Body))
    (peer : Peer Body) :
    let pruned := entries.foldl (removeExpired · now) peer
    peer.SameActive pruned ∧ (peer.Accounted → pruned.Accounted) ∧
      pruned.completedIncoming.size ≤ peer.completedIncoming.size ∧
      ∀ requestId, pruned.completedIncoming.get? requestId =
        if ∃ entry ∈ entries, entry.1 = requestId ∧ entry.2.expiresAt ≤ now then none
        else peer.completedIncoming.get? requestId := by
  induction entries generalizing peer with
  | nil => exact ⟨.refl peer, id, le_rfl, fun requestId => by simp⟩
  | cons entry rest ih =>
      rcases ih (peer.removeExpired now entry) with ⟨same, accounted, size, found⟩
      simp only [List.foldl_cons]
      by_cases expired : entry.2.expiresAt ≤ now
      · have removed : peer.removeExpired now entry = peer.removeCompleted entry.1 := if_pos expired
        rw [removed] at same accounted size found ⊢
        have shrinks := size_removeCompleted peer entry.1
        refine ⟨(removeCompleted_sameActive peer entry.1).trans same,
          fun before => accounted (before.removeCompleted entry.1), by omega, ?_⟩
        intro requestId
        rw [found, get?_removeCompleted]
        by_cases own : requestId = entry.1
        · have gone : ∃ candidate ∈ entry :: rest,
              candidate.1 = requestId ∧ candidate.2.expiresAt ≤ now :=
            ⟨entry, List.mem_cons_self, own.symm, expired⟩
          rw [if_pos own, if_pos gone, ite_self]
        · rw [if_neg own]
          refine if_congr ?_ rfl rfl
          rw [List.exists_mem_cons_iff]
          simp [Ne.symm own]
      · have kept : peer.removeExpired now entry = peer := if_neg expired
        rw [kept] at same accounted size found ⊢
        refine ⟨same, accounted, size, ?_⟩
        intro requestId
        rw [found]
        refine if_congr ?_ rfl rfl
        rw [List.exists_mem_cons_iff]
        simp [expired]

theorem prune_sameActive (peer : Peer Body) : peer.SameActive (peer.pruneCompletedIncoming now) :=
  (removeExpired_all now _ peer).1

theorem Accounted.prune (accounted : peer.Accounted) :
    (peer.pruneCompletedIncoming now).Accounted :=
  (removeExpired_all now _ peer).2.1 accounted

theorem size_prune_le :
    (peer.pruneCompletedIncoming now).completedIncoming.size ≤ peer.completedIncoming.size :=
  (removeExpired_all now _ peer).2.2.1

theorem get?_prune_eq_some_iff (requestId : String) (completed : CompletedIncomingRequest Body) :
    (peer.pruneCompletedIncoming now).completedIncoming.get? requestId = some completed ↔
      peer.completedIncoming.get? requestId = some completed ∧ now < completed.expiresAt := by
  have found : (peer.pruneCompletedIncoming now).completedIncoming.get? requestId = _ :=
    (removeExpired_all now _ peer).2.2.2 requestId
  rw [found]
  split
  · rename_i gone
    rcases gone with ⟨⟨key, entry⟩, member, rfl, expired⟩
    have stored := (peer.completedIncoming.get?_eq_some_iff _ _).mpr member
    simp only [reduceCtorEq, false_iff, not_and, not_lt]
    intro same
    rw [stored, Option.some.injEq] at same
    rwa [← same]
  · rename_i kept
    refine ⟨fun stored => ⟨stored, ?_⟩, fun both => both.1⟩
    by_contra expired
    have member := (peer.completedIncoming.get?_eq_some_iff _ _).mp stored
    exact kept ⟨_, member, rfl, not_lt.mp expired⟩

theorem get?_prune_of_none {requestId : String}
    (absent : peer.completedIncoming.get? requestId = none) :
    (peer.pruneCompletedIncoming now).completedIncoming.get? requestId = none := by
  cases found : (peer.pruneCompletedIncoming now).completedIncoming.get? requestId with
  | none => rfl
  | some entry =>
      have stored := ((get?_prune_eq_some_iff now requestId entry).mp found).1
      rw [absent] at stored
      cases stored

theorem bytes_prune_le (accounted : peer.Accounted) :
    (peer.pruneCompletedIncoming now).completedIncomingBytes ≤ peer.completedIncomingBytes := by
  suffices shrinks : ∀ (entries : List (String × CompletedIncomingRequest Body)) (peer : Peer Body),
      peer.Accounted →
        (entries.foldl (removeExpired · now) peer).completedIncomingBytes ≤
          peer.completedIncomingBytes from shrinks _ peer accounted
  intro entries
  induction entries with
  | nil => exact fun peer _ => le_rfl
  | cons entry rest ih =>
      intro peer accounted
      rw [List.foldl_cons]
      by_cases expired : entry.2.expiresAt ≤ now
      · have removed : peer.removeExpired now entry = peer.removeCompleted entry.1 := if_pos expired
        have shrinks := bytes_removeCompleted accounted entry.1
        rw [removed]
        exact (ih _ (accounted.removeCompleted entry.1)).trans (by omega)
      · have kept : peer.removeExpired now entry = peer := if_neg expired
        rw [kept]
        exact ih peer accounted

end Prune

theorem tombstoneBytes_pos (requestId : String) : 0 < tombstoneBytes requestId := by
  unfold tombstoneBytes headerBytes Json.object
  rw [List.cons_append, String.ofList_cons, String.utf8ByteSize_append]
  exact Nat.add_pos_left (by decide) _

/-- Every active request holds the reservation of its tombstone. -/
structure Reserved (peer : Peer Body) : Prop where
  tombstones : ∀ requestId, peer.activeIncomingTombstones.get? requestId =
    (peer.activeIncoming.get? requestId).map fun _ => tombstoneBytes requestId
  bytes : peer.activeIncomingTombstoneBytes = peer.activeIncomingTombstones.total id

theorem Reserved.of_sameActive {other : Peer Body} (reserved : peer.Reserved)
    (same : peer.SameActive other) : other.Reserved := by
  rw [same]
  exact ⟨reserved.tombstones, reserved.bytes⟩

theorem Reserved.reservation_le (reserved : peer.Reserved) (requestId : String) :
    (peer.activeIncomingTombstones.get? requestId).getD 0 ≤ peer.activeIncomingTombstoneBytes ∧
      (if (peer.activeIncomingTombstones.get? requestId).getD 0 = 0 then 0 else 1) ≤
        peer.activeIncoming.size := by
  rw [reserved.bytes]
  cases held : peer.activeIncomingTombstones.get? requestId with
  | none => simp
  | some bytes =>
      have erased := OrderedMap.total_erase id peer.activeIncomingTombstones held
      have agrees := reserved.tombstones requestId
      rw [held] at agrees
      cases active : peer.activeIncoming.get? requestId with
      | none => simp [active] at agrees
      | some requestBytes =>
          have positive := OrderedMap.size_erase peer.activeIncoming active
          refine ⟨?_, ?_⟩
          · simp only [Option.getD_some, id_eq] at erased ⊢
            omega
          · split <;> omega

theorem storeCompleted_spec {now : ℕ} {requestId : String} {stored : Peer Body}
    (accounted : peer.Accounted) (reserved : peer.Reserved)
    (stores : peer.storeCompleted now requestId completed = some stored) :
    peer.SameActive stored ∧ stored.Accounted ∧
      stored.completedIncoming.size ≤ maxCompletedRequests ∧
      stored.completedIncomingBytes ≤ maxCompletedRequestBytes ∧
      ∀ other, stored.completedIncoming.get? other =
        if other = requestId then some completed
        else (peer.pruneCompletedIncoming now).completedIncoming.get? other := by
  have same := prune_sameActive now peer
  have prunedAccounted := accounted.prune now
  have reservation := (reserved.of_sameActive same).reservation_le requestId
  simp only [storeCompleted] at stores
  generalize peer.pruneCompletedIncoming now = pruned at *
  split at stores
  · cases stores
  · rename_i room
    rw [Option.some.injEq] at stores
    have removedSame := removeCompleted_sameActive pruned requestId
    have removedAccounted := prunedAccounted.removeCompleted requestId
    have size := size_removeCompleted pruned requestId
    have bytes := bytes_removeCompleted prunedAccounted requestId
    have absent : (pruned.removeCompleted requestId).completedIncoming.get? requestId = none := by
      rw [get?_removeCompleted, if_pos rfl]
    have newSize := OrderedMap.size_set_of_absent
      (pruned.removeCompleted requestId).completedIncoming completed absent
    have newTotal := OrderedMap.total_set_of_absent (·.retainedBytes)
      (pruned.removeCompleted requestId).completedIncoming completed absent
    subst stores
    refine ⟨?_, ?_, ?_, ?_, ?_⟩
    · have whole := same.trans removedSame
      unfold SameActive at whole ⊢
      rw [whole]
      rfl
    · simp only [Accounted] at removedAccounted ⊢
      omega
    · simp only [not_or, not_lt, projectedCount] at room ⊢
      omega
    · simp only [not_or, not_lt, projectedBytes] at room ⊢
      omega
    · intro other
      simp only
      rw [OrderedMap.get?_set]
      split
      · rfl
      · rename_i different
        rw [get?_removeCompleted, if_neg different]

theorem storeCompleted_isSome_iff {now : ℕ} {requestId : String} (reserved : peer.Reserved)
    (active : (peer.activeIncoming.get? requestId).isSome = true)
    (absent : peer.completedIncoming.get? requestId = none) :
    (peer.storeCompleted now requestId completed).isSome = true ↔
      (peer.pruneCompletedIncoming now).completedIncoming.size + peer.activeIncoming.size ≤
          maxCompletedRequests ∧
        (peer.pruneCompletedIncoming now).completedIncomingBytes + completed.retainedBytes +
            peer.activeIncomingTombstoneBytes ≤
          maxCompletedRequestBytes + tombstoneBytes requestId := by
  have same := prune_sameActive now peer
  have held : peer.activeIncomingTombstones.get? requestId = some (tombstoneBytes requestId) := by
    rw [reserved.tombstones]
    cases found : peer.activeIncoming.get? requestId with
    | none => simp [found] at active
    | some bytes => rfl
  have positive := tombstoneBytes_pos requestId
  have stillAbsent : (peer.pruneCompletedIncoming now).completedIncoming.get? requestId = none :=
    get?_prune_of_none now absent
  have count : (peer.pruneCompletedIncoming now).projectedCount requestId =
      (peer.pruneCompletedIncoming now).completedIncoming.size + peer.activeIncoming.size := by
    simp only [projectedCount, stillAbsent, same.tombstones, held, same.activeIncoming]
    simp only [Option.isSome_none, Bool.false_eq_true, if_false, Option.getD_some, positive.ne']
    omega
  have bytes : (peer.pruneCompletedIncoming now).projectedBytes requestId completed.retainedBytes =
      (peer.pruneCompletedIncoming now).completedIncomingBytes + completed.retainedBytes +
        peer.activeIncomingTombstoneBytes - tombstoneBytes requestId := by
    simp only [projectedBytes, stillAbsent, same.tombstones, held, same.tombstoneBytes]
    simp only [Option.map_none, Option.getD_none, Nat.cast_zero, sub_zero, Option.getD_some]
  simp only [storeCompleted, count, bytes]
  split
  · rename_i full
    simp only [Option.isSome_none, Bool.false_eq_true, false_iff]
    omega
  · rename_i room
    simp only [Option.isSome_some, true_iff]
    omega

section Remember

variable (byteLength : Body → ℕ) {now : ℕ} {requestId : String} {outcome : Outcome Body}

/-- The bytes of the smallest entry that `rememberCompleted` tries to store. -/
def leastEntryBytes (now : ℕ) (requestId : String) (outcome : Outcome Body) : ℕ :=
  let full := (fullEntry byteLength now requestId outcome).retainedBytes
  if full ≤ maxCompletedRequestBytes - completedTombstoneReserveBytes then
    min full (tombstoneBytes requestId)
  else tombstoneBytes requestId

/-- There is room for an entry besides the unexpired ones and what is reserved for other requests,
where completed requests that are active count twice. -/
def HasRoom (peer : Peer Body) (now : ℕ) (requestId : String) (outcome : Outcome Body) : Prop :=
  let pruned := peer.pruneCompletedIncoming now
  pruned.completedIncoming.size + peer.activeIncoming.size ≤ maxCompletedRequests ∧
    pruned.completedIncomingBytes + leastEntryBytes byteLength now requestId outcome +
        peer.activeIncomingTombstoneBytes ≤
      maxCompletedRequestBytes + tombstoneBytes requestId

instance (peer : Peer Body) (now : ℕ) (requestId : String) (outcome : Outcome Body) :
    Decidable (peer.HasRoom byteLength now requestId outcome) :=
  inferInstanceAs (Decidable (_ ∧ _))

/-- What remembering leaves in the cache: an entry of the request, whichever it is, and the
unexpired entries of the others. -/
structure Remembered (peer after : Peer Body) (now : ℕ) (requestId : String) : Prop where
  sameActive : peer.SameActive after
  accounted : after.Accounted
  size : after.completedIncoming.size ≤ maxCompletedRequests
  bytes : after.completedIncomingBytes ≤ maxCompletedRequestBytes
  others : ∀ other, other ≠ requestId → after.completedIncoming.get? other =
    (peer.pruneCompletedIncoming now).completedIncoming.get? other
  own : ∃ entry, after.completedIncoming.get? requestId = some entry ∧
    entry.expiresAt = now + completedRequestTtlMs

theorem Remembered.of_store {after : Peer Body} {completed : CompletedIncomingRequest Body}
    (accounted : peer.Accounted) (reserved : peer.Reserved)
    (expires : completed.expiresAt = now + completedRequestTtlMs)
    (stores : peer.storeCompleted now requestId completed = some after) :
    Remembered peer after now requestId := by
  rcases storeCompleted_spec accounted reserved stores with ⟨same, counted, size, bytes, found⟩
  refine ⟨same, counted, size, bytes, ?_, completed, ?_, expires⟩
  · intro other different
    rw [found, if_neg different]
  · rw [found, if_pos rfl]

variable (accounted : peer.Accounted) (reserved : peer.Reserved)
  (active : (peer.activeIncoming.get? requestId).isSome = true)
  (absent : peer.completedIncoming.get? requestId = none)

include accounted reserved active absent

theorem rememberCompleted_of_room (room : peer.HasRoom byteLength now requestId outcome) :
    Remembered peer (peer.rememberCompleted byteLength now requestId outcome) now requestId := by
  rcases room with ⟨count, bytes⟩
  simp only [leastEntryBytes] at bytes
  simp only [rememberCompleted]
  by_cases small : (fullEntry byteLength now requestId outcome).retainedBytes ≤
      maxCompletedRequestBytes - completedTombstoneReserveBytes
  · rw [if_pos small] at bytes ⊢
    cases full : peer.storeCompleted now requestId
        (fullEntry byteLength now requestId outcome) with
    | some stored => exact .of_store accounted reserved rfl full
    | none =>
        have refused := mt (storeCompleted_isSome_iff reserved active absent).mpr
          (by rw [full]; simp :
            ¬(peer.storeCompleted now requestId
              (fullEntry byteLength now requestId outcome)).isSome = true)
        have fits : (peer.storeCompleted now requestId
            (createCompletedTombstone now requestId)).isSome = true := by
          rw [storeCompleted_isSome_iff reserved active absent]
          refine ⟨count, ?_⟩
          simp only [createCompletedTombstone]
          omega
        rcases Option.isSome_iff_exists.mp fits with ⟨stored, stores⟩
        rw [stores]
        exact .of_store accounted reserved rfl stores
  · rw [if_neg small] at bytes ⊢
    have fits : (peer.storeCompleted now requestId
        (createCompletedTombstone now requestId)).isSome = true := by
      rw [storeCompleted_isSome_iff reserved active absent]
      refine ⟨count, ?_⟩
      simp only [createCompletedTombstone]
      exact bytes
    rcases Option.isSome_iff_exists.mp fits with ⟨stored, stores⟩
    rw [stores]
    exact .of_store accounted reserved rfl stores

omit accounted in
theorem rememberCompleted_of_full (full : ¬peer.HasRoom byteLength now requestId outcome) :
    peer.rememberCompleted byteLength now requestId outcome = peer.pruneCompletedIncoming now := by
  have refuses : ∀ completed : CompletedIncomingRequest Body,
      leastEntryBytes byteLength now requestId outcome ≤ completed.retainedBytes →
        peer.storeCompleted now requestId completed = none := by
    intro completed least
    cases found : peer.storeCompleted now requestId completed with
    | none => rfl
    | some stored =>
        have room := (storeCompleted_isSome_iff reserved active absent).mp
          (by rw [found]; rfl : (peer.storeCompleted now requestId completed).isSome = true)
        exact absurd ⟨room.1, by omega⟩ full
  have noTombstone := refuses (createCompletedTombstone now requestId) (by
    simp only [leastEntryBytes, createCompletedTombstone]
    split <;> omega)
  simp only [rememberCompleted, noTombstone]
  split
  · rename_i small
    have noFull := refuses (fullEntry byteLength now requestId outcome) (by
      simp only [leastEntryBytes, if_pos small]
      omega)
    rw [noFull]
    rfl
  · rfl

end Remember

end Peer

end ServerFoundation.MeshLink
