import ServerFoundation.Srpc.StreamRegistry

/-!
# The stream registry stays consistent

The four maps and the flags of the stream objects agree after every step, and a
revoked stream stays revoked. Revocation, entry, activation and the refresh by a
ping are the only changes; each is shown to keep the agreement, and the steps of
the server are composed of them.

A ping refreshes its stream after observers and the logger have seen it. The results
hold in the runs in which none of these callbacks revokes that stream.
-/

namespace ServerFoundation.Srpc

namespace StreamRegistry

variable {first second third : StreamRegistry}

/-- An entry of one of the maps by client id. -/
structure Entry (registry : StreamRegistry) (clientId : String) (stream : ℕ)
    (isActivated : Bool) (record : StreamRecord) : Prop where
  found : registry.streams.get? stream = some record
  clientId : record.clientId = clientId
  isActivated : record.isActivated = isActivated
  live : 0 ≤ record.lastPingAt
  byId : registry.streamsById.get? record.id = some stream

/-- The stream objects have numbers and ids of their own. -/
structure Numbered (streams : OrderedMap ℕ StreamRecord) (created : ℕ) : Prop where
  created : ∀ stream record, streams.get? stream = some record → stream < created
  revoked : ∀ stream record, streams.get? stream = some record → record.lastPingAt < 0 →
    record.lastPingAt = -1
  distinct : ∀ stream other record otherRecord, streams.get? stream = some record →
    streams.get? other = some otherRecord → record.id = otherRecord.id → stream = other

/-- The maps and the flags agree. -/
structure Consistent (registry : StreamRegistry) : Prop where
  clock : 0 ≤ registry.now
  exclusive : ∀ clientId stream, registry.pendingStreamsByClientId.get? clientId = some stream →
    registry.streamsByClientId.get? clientId = none
  pending : ∀ clientId stream, registry.pendingStreamsByClientId.get? clientId = some stream →
    ∃ record, registry.Entry clientId stream false record
  active : ∀ clientId stream, registry.streamsByClientId.get? clientId = some stream →
    ∃ record, registry.Entry clientId stream true record
  byId : ∀ id stream, registry.streamsById.get? id = some stream →
    ∃ record, registry.streams.get? stream = some record ∧ record.id = id ∧
      registry.getCurrentStreamByClientId record.clientId = some stream
  activated : ∀ stream record, registry.streams.get? stream = some record →
    0 ≤ record.lastPingAt → record.isActivated = true →
      registry.streamsByClientId.get? record.clientId = some stream
  numbered : Numbered registry.streams registry.created

/-- Revoked streams stay revoked, and their flags do not change. -/
def Retains (before after : StreamRegistry) : Prop :=
  ∀ stream record, before.streams.get? stream = some record → record.lastPingAt < 0 →
    ∃ retained, after.streams.get? stream = some retained ∧
      retained.lastPingAt = record.lastPingAt ∧ retained.isActivated = record.isActivated

/-- What a part of a step does to a consistent registry. -/
structure Keeps (before after : StreamRegistry) : Prop where
  consistent : before.Consistent → after.Consistent
  retains : Retains before after

/-- No entry is added. -/
structure Shrinks (before after : StreamRegistry) : Prop where
  pending : ∀ clientId stream, after.pendingStreamsByClientId.get? clientId = some stream →
    before.pendingStreamsByClientId.get? clientId = some stream
  active : ∀ clientId stream, after.streamsByClientId.get? clientId = some stream →
    before.streamsByClientId.get? clientId = some stream

theorem Retains.trans (left : Retains first second) (right : Retains second third) :
    Retains first third := by
  intro stream record found revoked
  rcases left stream record found revoked with ⟨middle, foundMiddle, samePing, sameFlag⟩
  rcases right stream middle foundMiddle (by omega) with ⟨last, foundLast, lastPing, lastFlag⟩
  exact ⟨last, foundLast, lastPing.trans samePing, lastFlag.trans sameFlag⟩

namespace Keeps

theorem refl (registry : StreamRegistry) : Keeps registry registry :=
  ⟨id, fun _ record found _ => ⟨record, found, rfl, rfl⟩⟩

theorem trans {first second third : StreamRegistry} (left : Keeps first second)
    (right : Keeps second third) : Keeps first third :=
  ⟨fun consistent => right.consistent (left.consistent consistent),
    left.retains.trans right.retains⟩

end Keeps

theorem Shrinks.refl (registry : StreamRegistry) : Shrinks registry registry :=
  ⟨fun _ _ found => found, fun _ _ found => found⟩

theorem Shrinks.trans (left : Shrinks first second) (right : Shrinks second third) :
    Shrinks first third :=
  ⟨fun clientId stream found => left.pending clientId stream (right.pending clientId stream found),
    fun clientId stream found => left.active clientId stream (right.active clientId stream found)⟩

section Current

variable {registry : StreamRegistry} {clientId : String} {stream : ℕ}

theorem getCurrentStreamByClientId_eq_none :
    registry.getCurrentStreamByClientId clientId = none ↔
      registry.pendingStreamsByClientId.get? clientId = none ∧
        registry.streamsByClientId.get? clientId = none := by
  simp [getCurrentStreamByClientId]

theorem current_of_pending
    (pending : registry.pendingStreamsByClientId.get? clientId = some stream) :
    registry.getCurrentStreamByClientId clientId = some stream := by
  simp [getCurrentStreamByClientId, pending]

theorem current_of_active (notPending : registry.pendingStreamsByClientId.get? clientId = none)
    (active : registry.streamsByClientId.get? clientId = some stream) :
    registry.getCurrentStreamByClientId clientId = some stream := by
  simp [getCurrentStreamByClientId, notPending, active]

theorem current_cases (current : registry.getCurrentStreamByClientId clientId = some stream) :
    registry.pendingStreamsByClientId.get? clientId = some stream ∨
      registry.pendingStreamsByClientId.get? clientId = none ∧
        registry.streamsByClientId.get? clientId = some stream := by
  cases pending : registry.pendingStreamsByClientId.get? clientId with
  | none => exact .inr ⟨rfl, by simpa [getCurrentStreamByClientId, pending] using current⟩
  | some other => exact .inl (by simpa [getCurrentStreamByClientId, pending] using current)

theorem Consistent.current (consistent : registry.Consistent)
    (current : registry.getCurrentStreamByClientId clientId = some stream) :
    ∃ isActivated record, registry.Entry clientId stream isActivated record := by
  rcases current_cases current with pending | ⟨-, active⟩
  · exact ⟨false, consistent.pending clientId stream pending⟩
  · exact ⟨true, consistent.active clientId stream active⟩

theorem Consistent.eq_current (consistent : registry.Consistent) {other : ℕ}
    (current : registry.getCurrentStreamByClientId clientId = some stream)
    (entered : registry.pendingStreamsByClientId.get? clientId = some other ∨
      registry.streamsByClientId.get? clientId = some other) : other = stream := by
  rcases entered with pending | active
  · exact Option.some.inj ((current_of_pending pending).symm.trans current)
  · rcases current_cases current with pending | ⟨-, same⟩
    · cases (consistent.exclusive clientId stream pending).symm.trans active
    · exact Option.some.inj (active.symm.trans same)

theorem Consistent.revoked_absent (consistent : registry.Consistent) {record : StreamRecord}
    (found : registry.streams.get? stream = some record) (revoked : record.lastPingAt < 0) :
    (∀ id, registry.streamsById.get? id ≠ some stream) ∧
      (∀ clientId, registry.pendingStreamsByClientId.get? clientId ≠ some stream) ∧
        ∀ clientId, registry.streamsByClientId.get? clientId ≠ some stream := by
  have notEntered : ∀ {clientId isActivated entered},
      ¬registry.Entry clientId stream isActivated entered := by
    intro clientId isActivated entered entry
    have same := entry.found.symm.trans found
    cases same
    have live := entry.live
    omega
  refine ⟨?_, ?_, ?_⟩
  · intro id byId
    rcases consistent.byId id stream byId with ⟨_, _, _, current⟩
    rcases consistent.current current with ⟨_, _, entry⟩
    exact notEntered entry
  · intro clientId pending
    rcases consistent.pending clientId stream pending with ⟨_, entry⟩
    exact notEntered entry
  · intro clientId active
    rcases consistent.active clientId stream active with ⟨_, entry⟩
    exact notEntered entry

theorem isAvailable_iff :
    registry.isAvailable stream = true ↔
      ∃ record, registry.streams.get? stream = some record ∧ 0 ≤ record.lastPingAt ∧
        registry.getCurrentStreamByClientId record.clientId = some stream := by
  cases found : registry.streams.get? stream <;> simp [isAvailable, found]

end Current

section Replace

variable {registry : StreamRegistry} {stream : ℕ} {record changed : StreamRecord} {other : ℕ}
  {result : StreamRecord}

/-- A change of a stream object that the maps do not see. -/
structure Alike (record changed : StreamRecord) : Prop where
  id : changed.id = record.id
  clientId : changed.clientId = record.clientId
  isActivated : changed.isActivated = record.isActivated
  live : 0 ≤ record.lastPingAt → 0 ≤ changed.lastPingAt
  revoked : record.lastPingAt < 0 → changed.lastPingAt = record.lastPingAt

/-- The stream object is replaced. -/
def replace (registry : StreamRegistry) (stream : ℕ) (changed : StreamRecord) : StreamRegistry :=
  { registry with streams := registry.streams.set stream changed }

theorem get?_replace (other : ℕ) :
    (registry.replace stream changed).streams.get? other =
      if other = stream then some changed else registry.streams.get? other :=
  OrderedMap.get?_set registry.streams stream other changed

theorem get?_replace_cases
    (found : (registry.replace stream changed).streams.get? other = some result) :
    other = stream ∧ result = changed ∨
      other ≠ stream ∧ registry.streams.get? other = some result := by
  rw [get?_replace] at found
  split at found
  next same => exact .inl ⟨same, (Option.some.inj found).symm⟩
  next differs => exact .inr ⟨differs, found⟩

theorem Numbered.replace (numbered : Numbered registry.streams registry.created)
    (found : registry.streams.get? stream = some record) (sameId : changed.id = record.id)
    (revoked : changed.lastPingAt < 0 → changed.lastPingAt = -1) :
    Numbered (registry.replace stream changed).streams registry.created := by
  have origin : ∀ {other result},
      (registry.replace stream changed).streams.get? other = some result →
        ∃ old, registry.streams.get? other = some old ∧ old.id = result.id := by
    intro other result foundResult
    rcases get?_replace_cases foundResult with ⟨rfl, rfl⟩ | ⟨-, unchanged⟩
    · exact ⟨record, found, sameId.symm⟩
    · exact ⟨result, unchanged, rfl⟩
  refine ⟨?_, ?_, ?_⟩
  · intro other result foundResult
    rcases origin foundResult with ⟨old, foundOld, -⟩
    exact numbered.created other old foundOld
  · intro other result foundResult isRevoked
    rcases get?_replace_cases foundResult with ⟨-, rfl⟩ | ⟨-, unchanged⟩
    · exact revoked isRevoked
    · exact numbered.revoked other result unchanged isRevoked
  · intro first second firstResult secondResult foundFirst foundSecond same
    rcases origin foundFirst with ⟨firstOld, firstFound, firstId⟩
    rcases origin foundSecond with ⟨secondOld, secondFound, secondId⟩
    exact numbered.distinct first second firstOld secondOld firstFound secondFound
      (by rw [firstId, secondId, same])

theorem alike_replace (found : registry.streams.get? stream = some record)
    (alike : Alike record changed) {old : StreamRecord}
    (foundOld : registry.streams.get? other = some old) :
    ∃ result, (registry.replace stream changed).streams.get? other = some result ∧
      Alike old result := by
  rw [get?_replace]
  by_cases same : other = stream
  · subst same
    cases found.symm.trans foundOld
    exact ⟨changed, if_pos rfl, alike⟩
  · exact ⟨old, by rw [if_neg same, foundOld], ⟨rfl, rfl, rfl, fun live => live, fun _ => rfl⟩⟩

theorem alike_of_replace (found : registry.streams.get? stream = some record)
    (alike : Alike record changed)
    (foundResult : (registry.replace stream changed).streams.get? other = some result) :
    ∃ old, registry.streams.get? other = some old ∧ Alike old result := by
  rcases get?_replace_cases foundResult with ⟨rfl, rfl⟩ | ⟨_, unchanged⟩
  · exact ⟨record, found, alike⟩
  · exact ⟨result, unchanged, ⟨rfl, rfl, rfl, fun live => live, fun _ => rfl⟩⟩

theorem Entry.replace {clientId : String} {isActivated : Bool} {old : StreamRecord}
    (entry : registry.Entry clientId other isActivated old)
    (found : registry.streams.get? stream = some record) (alike : Alike record changed) :
    ∃ result, (registry.replace stream changed).Entry clientId other isActivated result := by
  rcases alike_replace found alike entry.found with ⟨result, foundResult, same⟩
  exact ⟨result, foundResult, same.clientId.trans entry.clientId,
    same.isActivated.trans entry.isActivated, same.live entry.live, by
      rw [same.id]
      exact entry.byId⟩

theorem keeps_replace (found : registry.streams.get? stream = some record)
    (alike : Alike record changed) : Keeps registry (registry.replace stream changed) where
  retains := by
    intro other old foundOld revoked
    rcases alike_replace found alike foundOld with ⟨result, foundResult, same⟩
    exact ⟨result, foundResult, same.revoked revoked, same.isActivated⟩
  consistent consistent := by
    refine ⟨consistent.clock, consistent.exclusive, ?_, ?_, ?_, ?_, ?_⟩
    · intro clientId other pending
      rcases consistent.pending clientId other pending with ⟨_, entry⟩
      exact entry.replace found alike
    · intro clientId other active
      rcases consistent.active clientId other active with ⟨_, entry⟩
      exact entry.replace found alike
    · intro id other byId
      rcases consistent.byId id other byId with ⟨old, foundOld, sameId, current⟩
      rcases alike_replace found alike foundOld with ⟨result, foundResult, same⟩
      refine ⟨result, foundResult, same.id.trans sameId, ?_⟩
      rw [same.clientId]
      exact current
    · intro other result foundResult live isActivated
      rcases alike_of_replace found alike foundResult with ⟨old, foundOld, same⟩
      rw [same.clientId]
      refine consistent.activated other old foundOld ?_ (same.isActivated.symm.trans isActivated)
      by_contra revoked
      have unchanged := same.revoked (by omega)
      omega
    · refine consistent.numbered.replace found alike.id ?_
      intro revoked
      have wasRevoked : record.lastPingAt < 0 := by
        by_contra live
        have stillLive := alike.live (by omega)
        omega
      rw [alike.revoked wasRevoked]
      exact consistent.numbered.revoked stream record found wasRevoked

theorem keeps_modify (change : StreamRecord → StreamRecord)
    (alike : ∀ record, registry.streams.get? stream = some record → Alike record (change record)) :
    Keeps registry (registry.modify stream change) := by
  unfold modify
  split
  next => exact Keeps.refl registry
  next record found => exact keeps_replace found (alike record found)

end Replace

section Revoke

variable {registry : StreamRegistry} {stream : ℕ} {record : StreamRecord} {clientId : String}
  {map : OrderedMap String ℕ} {other : ℕ}

theorem get?_removeEntry {key : String} {stream : ℕ} :
    (removeEntry map clientId stream).get? key = some other ↔
      map.get? key = some other ∧ ¬(key = clientId ∧ other = stream) := by
  unfold removeEntry
  split
  next entered =>
    rw [OrderedMap.get?_erase]
    by_cases same : key = clientId
    · subst same
      simp only [if_pos, entered, Option.some.injEq]
      constructor
      · intro impossible
        cases impossible
      · rintro ⟨rfl, notSame⟩
        exact absurd ⟨trivial, rfl⟩ notSame
    · simp [same]
  next notEntered =>
    constructor
    · intro found
      refine ⟨found, ?_⟩
      rintro ⟨rfl, rfl⟩
      exact notEntered found
    · rintro ⟨found, -⟩
      exact found

theorem get?_removeEntry_of_none {key : String} (absent : map.get? key = none) :
    (removeEntry map clientId stream).get? key = none := by
  rw [Option.eq_none_iff_forall_ne_some] at absent ⊢
  intro other found
  exact absent other (get?_removeEntry.mp found).1

/-- The registry after the revocation of a live stream. -/
def revoke (registry : StreamRegistry) (stream : ℕ) (record : StreamRecord) : StreamRegistry :=
  { registry.replace stream { record with lastPingAt := -1 } with
    streamsById := registry.streamsById.erase record.id
    pendingStreamsByClientId :=
      removeEntry registry.pendingStreamsByClientId record.clientId stream
    streamsByClientId := removeEntry registry.streamsByClientId record.clientId stream }

theorem revokeStream_cases (registry : StreamRegistry) (stream : ℕ) :
    registry.revokeStream stream = registry ∧
        (∀ record, registry.streams.get? stream = some record → record.lastPingAt < 0) ∨
      ∃ record, registry.streams.get? stream = some record ∧ 0 ≤ record.lastPingAt ∧
        registry.revokeStream stream = registry.revoke stream record := by
  unfold revokeStream
  split
  next absent =>
    refine .inl ⟨rfl, ?_⟩
    intro record found
    rw [absent] at found
    cases found
  next record found =>
    split
    next revoked =>
      refine .inl ⟨rfl, ?_⟩
      intro other foundOther
      cases found.symm.trans foundOther
      exact revoked
    next live => exact .inr ⟨record, found, by omega, rfl⟩

theorem get?_revoke_of_ne (differs : other ≠ stream) :
    (registry.revoke stream record).streams.get? other = registry.streams.get? other :=
  (get?_replace other).trans (if_neg differs)

theorem Entry.revoke {isActivated : Bool} {old : StreamRecord}
    (entry : registry.Entry clientId other isActivated old) (consistent : registry.Consistent)
    (found : registry.streams.get? stream = some record)
    (kept : ¬(clientId = record.clientId ∧ other = stream)) :
    ∃ result, (registry.revoke stream record).Entry clientId other isActivated result := by
  have differs : other ≠ stream := by
    rintro rfl
    cases found.symm.trans entry.found
    exact kept ⟨entry.clientId.symm, rfl⟩
  have otherId : old.id ≠ record.id := by
    intro sameId
    exact differs (consistent.numbered.distinct other stream old record entry.found found sameId)
  exact ⟨old, (get?_revoke_of_ne differs).trans entry.found, entry.clientId, entry.isActivated,
    entry.live, by
      have byId := OrderedMap.get?_erase registry.streamsById record.id old.id
      rw [if_neg otherId] at byId
      exact byId.trans entry.byId⟩

theorem keeps_revoke (found : registry.streams.get? stream = some record)
    (live : 0 ≤ record.lastPingAt) : Keeps registry (registry.revoke stream record) where
  retains := by
    intro other old foundOld revoked
    have differs : other ≠ stream := by
      rintro rfl
      cases found.symm.trans foundOld
      omega
    exact ⟨old, (get?_revoke_of_ne differs).trans foundOld, rfl, rfl⟩
  consistent consistent := by
    refine ⟨consistent.clock, ?_, ?_, ?_, ?_, ?_, ?_⟩
    · intro clientId other pending
      exact get?_removeEntry_of_none
        (consistent.exclusive clientId other (get?_removeEntry.mp pending).1)
    · intro clientId other pending
      rcases get?_removeEntry.mp pending with ⟨wasPending, kept⟩
      rcases consistent.pending clientId other wasPending with ⟨_, entry⟩
      exact entry.revoke consistent found kept
    · intro clientId other active
      rcases get?_removeEntry.mp active with ⟨wasActive, kept⟩
      rcases consistent.active clientId other wasActive with ⟨_, entry⟩
      exact entry.revoke consistent found kept
    · intro id other byId
      have erased := OrderedMap.get?_erase registry.streamsById record.id id
      split at erased
      next => cases erased.symm.trans byId
      next otherId =>
        rcases consistent.byId id other (erased.symm.trans byId) with
          ⟨old, foundOld, rfl, current⟩
        have differs : other ≠ stream := by
          rintro rfl
          cases found.symm.trans foundOld
          exact otherId rfl
        refine ⟨old, (get?_revoke_of_ne differs).trans foundOld, rfl, ?_⟩
        rcases current_cases current with pending | ⟨notPending, active⟩
        · exact current_of_pending
            (get?_removeEntry.mpr ⟨pending, fun both => differs both.2⟩)
        · exact current_of_active (get?_removeEntry_of_none notPending)
            (get?_removeEntry.mpr ⟨active, fun both => differs both.2⟩)
    · intro other result foundResult stillLive isActivated
      rcases get?_replace_cases foundResult with ⟨-, rfl⟩ | ⟨differs, unchanged⟩
      · exact absurd stillLive (show ¬(0 : ℤ) ≤ -1 by decide)
      · exact get?_removeEntry.mpr
          ⟨consistent.activated other result unchanged stillLive isActivated,
            fun both => differs both.2⟩
    · exact consistent.numbered.replace found rfl fun _ => rfl

theorem keeps_revokeStream (stream : ℕ) : Keeps registry (registry.revokeStream stream) := by
  rcases revokeStream_cases registry stream with
    ⟨unchanged, -⟩ | ⟨record, found, live, revoked⟩
  · rw [unchanged]
    exact Keeps.refl registry
  · rw [revoked]
    exact keeps_revoke found live

theorem shrinks_revokeStream (stream : ℕ) : Shrinks registry (registry.revokeStream stream) := by
  rcases revokeStream_cases registry stream with ⟨unchanged, -⟩ | ⟨record, -, -, revoked⟩
  · rw [unchanged]
    exact Shrinks.refl registry
  · rw [revoked]
    exact ⟨fun _ _ found => (get?_removeEntry.mp found).1,
      fun _ _ found => (get?_removeEntry.mp found).1⟩

theorem get?_revokeStream_of_ne (differs : other ≠ stream) :
    (registry.revokeStream stream).streams.get? other = registry.streams.get? other := by
  rcases revokeStream_cases registry stream with ⟨unchanged, -⟩ | ⟨record, -, -, revoked⟩
  · rw [unchanged]
  · rw [revoked, get?_revoke_of_ne differs]

theorem getCurrentStreamByClientId_revokeStream (consistent : registry.Consistent)
    (current : registry.getCurrentStreamByClientId clientId = some stream) :
    (registry.revokeStream stream).getCurrentStreamByClientId clientId = none := by
  rcases consistent.current current with ⟨_, entered, entry⟩
  rcases revokeStream_cases registry stream with ⟨-, revoked⟩ | ⟨record, found, -, revoked⟩
  · have live := entry.live
    have negative := revoked entered entry.found
    omega
  · cases found.symm.trans entry.found
    rw [revoked, getCurrentStreamByClientId_eq_none, Option.eq_none_iff_forall_ne_some,
      Option.eq_none_iff_forall_ne_some]
    constructor
    · intro other pending
      rcases get?_removeEntry.mp pending with ⟨wasPending, kept⟩
      exact kept ⟨entry.clientId.symm, consistent.eq_current current (.inl wasPending)⟩
    · intro other active
      rcases get?_removeEntry.mp active with ⟨wasActive, kept⟩
      exact kept ⟨entry.clientId.symm, consistent.eq_current current (.inr wasActive)⟩

theorem Shrinks.getCurrentStreamByClientId {after : StreamRegistry}
    (shrinks : Shrinks registry after)
    (absent : registry.getCurrentStreamByClientId clientId = none) :
    after.getCurrentStreamByClientId clientId = none := by
  rw [getCurrentStreamByClientId_eq_none, Option.eq_none_iff_forall_ne_some,
    Option.eq_none_iff_forall_ne_some] at absent ⊢
  exact ⟨fun stream pending => absent.1 stream (shrinks.pending clientId stream pending),
    fun stream active => absent.2 stream (shrinks.active clientId stream active)⟩

end Revoke

section Callbacks

variable {registry : StreamRegistry} (stream : ℕ)

theorem keeps_callbacks (revoked : List ℕ) : Keeps registry (registry.callbacks revoked) := by
  induction revoked generalizing registry with
  | nil => exact Keeps.refl registry
  | cons stream rest ih => exact (keeps_revokeStream stream).trans ih

theorem shrinks_callbacks (revoked : List ℕ) : Shrinks registry (registry.callbacks revoked) := by
  induction revoked generalizing registry with
  | nil => exact Shrinks.refl registry
  | cons stream rest ih => exact (shrinks_revokeStream stream).trans ih

theorem get?_callbacks {revoked : List ℕ} {stream : ℕ} (spared : stream ∉ revoked) :
    (registry.callbacks revoked).streams.get? stream = registry.streams.get? stream := by
  induction revoked generalizing registry with
  | nil => rfl
  | cons first rest ih =>
      rw [List.mem_cons, not_or] at spared
      exact (ih spared.2).trans (get?_revokeStream_of_ne spared.1)

theorem keeps_cleanupStream (revoked : List ℕ) :
    Keeps registry (registry.cleanupStream stream revoked) :=
  (keeps_revokeStream stream).trans (keeps_callbacks revoked)

theorem keeps_writeOrCleanup (sent : Bool) (revoked : List ℕ) :
    Keeps registry (registry.writeOrCleanup stream sent revoked) := by
  unfold writeOrCleanup
  split
  · exact keeps_callbacks revoked
  · exact keeps_cleanupStream stream revoked

theorem keeps_phase (phase : EstablishPhase) :
    Keeps registry (registry.modify stream fun record => { record with phase := phase }) :=
  keeps_modify _ fun _ _ => ⟨rfl, rfl, rfl, fun live => live, fun _ => rfl⟩

end Callbacks

section Enter

variable {registry : StreamRegistry} {stream : ℕ} {record : StreamRecord}

theorem Consistent.create (consistent : registry.Consistent)
    (fresh : ∀ stream old, registry.streams.get? stream = some old → old.id ≠ record.id)
    (live : 0 ≤ record.lastPingAt) (notActivated : record.isActivated = false) :
    { registry.replace registry.created record with
      created := registry.created + 1 }.Consistent := by
  have older : ∀ {other old}, registry.streams.get? other = some old →
      (registry.replace registry.created record).streams.get? other = some old := by
    intro other old found
    have earlier := consistent.numbered.created other old found
    rw [get?_replace, if_neg (by omega), found]
  have kept : ∀ {clientId other isActivated old}, registry.Entry clientId other isActivated old →
      ∃ result, { registry.replace registry.created record with
        created := registry.created + 1 }.Entry clientId other isActivated result :=
    fun entry => ⟨_, older entry.found, entry.clientId, entry.isActivated, entry.live, entry.byId⟩
  refine ⟨consistent.clock, consistent.exclusive, ?_, ?_, ?_, ?_, ?_, ?_, ?_⟩
  · intro clientId other pending
    rcases consistent.pending clientId other pending with ⟨_, entry⟩
    exact kept entry
  · intro clientId other active
    rcases consistent.active clientId other active with ⟨_, entry⟩
    exact kept entry
  · intro id other byId
    rcases consistent.byId id other byId with ⟨old, found, sameId, current⟩
    exact ⟨old, older found, sameId, current⟩
  · intro other result foundResult stillLive isActivated
    rcases get?_replace_cases foundResult with ⟨-, rfl⟩ | ⟨-, found⟩
    · rw [notActivated] at isActivated
      cases isActivated
    · exact consistent.activated other result found stillLive isActivated
  · intro other result foundResult
    rcases get?_replace_cases foundResult with ⟨rfl, -⟩ | ⟨-, found⟩
    · exact Nat.lt_succ_self registry.created
    · exact Nat.lt_succ_of_lt (consistent.numbered.created other result found)
  · intro other result foundResult revoked
    rcases get?_replace_cases foundResult with ⟨-, rfl⟩ | ⟨-, found⟩
    · omega
    · exact consistent.numbered.revoked other result found revoked
  · intro first second firstResult secondResult foundFirst foundSecond sameId
    rcases get?_replace_cases foundFirst with ⟨rfl, rfl⟩ | ⟨-, firstFound⟩ <;>
      rcases get?_replace_cases foundSecond with ⟨rfl, rfl⟩ | ⟨-, secondFound⟩
    · rfl
    · exact absurd sameId.symm (fresh second secondResult secondFound)
    · exact absurd sameId (fresh first firstResult firstFound)
    · exact consistent.numbered.distinct first second _ _ firstFound secondFound sameId

theorem keeps_enter (found : registry.streams.get? stream = some record)
    (live : 0 ≤ record.lastPingAt) (notActivated : record.isActivated = false)
    (absent : registry.getCurrentStreamByClientId record.clientId = none) :
    Keeps registry (registry.enter stream record) where
  retains other old foundOld _ := ⟨old, foundOld, rfl, rfl⟩
  consistent consistent := by
    have notCurrent := getCurrentStreamByClientId_eq_none.mp absent
    have pendingOf : ∀ clientId, (registry.enter stream record).pendingStreamsByClientId.get?
        clientId = if clientId = record.clientId then some stream
          else registry.pendingStreamsByClientId.get? clientId :=
      fun clientId => OrderedMap.get?_set _ _ _ _
    have byIdOf : ∀ id, (registry.enter stream record).streamsById.get? id =
        if id = record.id then some stream else registry.streamsById.get? id :=
      fun id => OrderedMap.get?_set _ _ _ _
    have kept : ∀ {clientId other isActivated old},
        registry.Entry clientId other isActivated old →
          (registry.enter stream record).Entry clientId other isActivated old := by
      intro clientId other isActivated old entry
      refine ⟨entry.found, entry.clientId, entry.isActivated, entry.live, ?_⟩
      rw [byIdOf]
      split
      next sameId =>
        exact congrArg some (consistent.numbered.distinct stream other record old found entry.found
          sameId.symm)
      next => exact entry.byId
    refine ⟨consistent.clock, ?_, ?_, ?_, ?_, consistent.activated, consistent.numbered⟩
    · intro clientId other pending
      rw [pendingOf] at pending
      split at pending
      next same =>
        rw [same]
        exact notCurrent.2
      next => exact consistent.exclusive clientId other pending
    · intro clientId other pending
      rw [pendingOf] at pending
      split at pending
      next same =>
        cases pending
        exact ⟨record, found, same.symm, notActivated, live, by rw [byIdOf, if_pos rfl]⟩
      next =>
        rcases consistent.pending clientId other pending with ⟨old, entry⟩
        exact ⟨old, kept entry⟩
    · intro clientId other active
      rcases consistent.active clientId other active with ⟨old, entry⟩
      exact ⟨old, kept entry⟩
    · intro id other byId
      rw [byIdOf] at byId
      split at byId
      next same =>
        cases byId
        exact ⟨record, found, same.symm, current_of_pending (by rw [pendingOf, if_pos rfl])⟩
      next =>
        rcases consistent.byId id other byId with ⟨old, foundOld, sameId, current⟩
        have otherClient : old.clientId ≠ record.clientId := by
          intro same
          rw [same, absent] at current
          cases current
        refine ⟨old, foundOld, sameId, ?_⟩
        rcases current_cases current with pending | ⟨notPending, active⟩
        · exact current_of_pending (by rw [pendingOf, if_neg otherClient, pending])
        · exact current_of_active (by rw [pendingOf, if_neg otherClient, notPending]) active

end Enter

section Activate

variable {registry : StreamRegistry} {stream : ℕ} {record : StreamRecord}

/-- The registry after the activation of a stream. -/
def activate (registry : StreamRegistry) (stream : ℕ) (record : StreamRecord) : StreamRegistry :=
  { registry.replace stream { record with isActivated := true } with
    pendingStreamsByClientId := registry.pendingStreamsByClientId.erase record.clientId
    streamsByClientId := registry.streamsByClientId.set record.clientId stream }

theorem Entry.activate {clientId : String} {other : ℕ} {isActivated : Bool} {old : StreamRecord}
    (entry : registry.Entry clientId other isActivated old)
    (found : registry.streams.get? stream = some record) (differs : clientId ≠ record.clientId) :
    (registry.activate stream record).Entry clientId other isActivated old := by
  have otherStream : other ≠ stream := by
    rintro rfl
    cases found.symm.trans entry.found
    exact differs entry.clientId.symm
  exact ⟨(get?_replace other).trans ((if_neg otherStream).trans entry.found), entry.clientId,
    entry.isActivated, entry.live, entry.byId⟩

theorem keeps_activate (found : registry.streams.get? stream = some record)
    (live : 0 ≤ record.lastPingAt)
    (current : registry.getCurrentStreamByClientId record.clientId = some stream) :
    Keeps registry (registry.activate stream record) where
  retains := by
    intro other old foundOld revoked
    have differs : other ≠ stream := by
      rintro rfl
      cases found.symm.trans foundOld
      omega
    exact ⟨old, (get?_replace other).trans ((if_neg differs).trans foundOld), rfl, rfl⟩
  consistent consistent := by
    have pendingOf : ∀ clientId, (registry.activate stream record).pendingStreamsByClientId.get?
        clientId = if clientId = record.clientId then none
          else registry.pendingStreamsByClientId.get? clientId :=
      fun clientId => OrderedMap.get?_erase _ _ _
    have activeOf : ∀ clientId, (registry.activate stream record).streamsByClientId.get?
        clientId = if clientId = record.clientId then some stream
          else registry.streamsByClientId.get? clientId :=
      fun clientId => OrderedMap.get?_set _ _ _ _
    have byId : registry.streamsById.get? record.id = some stream := by
      rcases consistent.current current with ⟨_, entered, entry⟩
      cases found.symm.trans entry.found
      exact entry.byId
    refine ⟨consistent.clock, ?_, ?_, ?_, ?_, ?_, ?_⟩
    · intro clientId other pending
      rw [pendingOf] at pending
      split at pending
      next => cases pending
      next differs =>
        rw [activeOf, if_neg differs]
        exact consistent.exclusive clientId other pending
    · intro clientId other pending
      rw [pendingOf] at pending
      split at pending
      next => cases pending
      next differs =>
        rcases consistent.pending clientId other pending with ⟨old, entry⟩
        exact ⟨old, entry.activate found differs⟩
    · intro clientId other active
      rw [activeOf] at active
      split at active
      next same =>
        cases active
        exact ⟨{ record with isActivated := true }, (get?_replace stream).trans (if_pos rfl),
          same.symm, rfl, live, byId⟩
      next differs =>
        rcases consistent.active clientId other active with ⟨old, entry⟩
        exact ⟨old, entry.activate found differs⟩
    · intro id other otherById
      rcases consistent.byId id other otherById with ⟨old, foundOld, sameId, isCurrent⟩
      by_cases same : other = stream
      · subst same
        cases found.symm.trans foundOld
        refine ⟨{ record with isActivated := true }, (get?_replace other).trans (if_pos rfl),
          sameId, ?_⟩
        exact current_of_active (by rw [pendingOf, if_pos rfl]) (by rw [activeOf, if_pos rfl])
      · have differs : old.clientId ≠ record.clientId := by
          intro sameClient
          rw [sameClient, current] at isCurrent
          exact same (Option.some.inj isCurrent).symm
        refine ⟨old, (get?_replace other).trans ((if_neg same).trans foundOld), sameId, ?_⟩
        rcases current_cases isCurrent with pending | ⟨notPending, active⟩
        · exact current_of_pending (by rw [pendingOf, if_neg differs, pending])
        · exact current_of_active (by rw [pendingOf, if_neg differs, notPending])
            (by rw [activeOf, if_neg differs, active])
    · intro other result foundResult stillLive isActivated
      rcases get?_replace_cases foundResult with ⟨rfl, rfl⟩ | ⟨differs, unchanged⟩
      · rw [activeOf, if_pos rfl]
      · have active := consistent.activated other result unchanged stillLive isActivated
        have otherClient : result.clientId ≠ record.clientId := by
          intro sameClient
          rw [sameClient] at active
          exact differs (consistent.eq_current current (.inr active))
        rw [activeOf, if_neg otherClient, active]
    · exact consistent.numbered.replace found rfl
        (consistent.numbered.revoked stream record found)

theorem keeps_activateStream (stream : ℕ) (revoked : List ℕ) :
    Keeps registry (registry.activateStream stream revoked) := by
  unfold activateStream
  split
  next => exact Keeps.refl registry
  next record found =>
    split
    next => exact Keeps.refl registry
    next available =>
      rcases isAvailable_iff.mp (by simpa using available) with ⟨same, foundSame, live, current⟩
      cases found.symm.trans foundSame
      exact (keeps_activate found live current).trans (keeps_callbacks revoked)

end Activate

section Steps

variable {registry : StreamRegistry} (stream : ℕ) (revoked : ℕ → List ℕ)

theorem keeps_established (rejected sent : Bool) (revoked : List ℕ) :
    Keeps registry (registry.established stream rejected sent revoked) := by
  unfold established
  split
  · exact keeps_phase stream .finished
  · refine Keeps.trans ?_ (keeps_writeOrCleanup stream sent revoked)
    exact keeps_modify _ fun _ _ => ⟨rfl, rfl, rfl, fun live => live, fun _ => rfl⟩

theorem keeps_willActivate : Keeps registry (registry.willActivate stream) := by
  unfold willActivate
  split
  · exact keeps_phase stream .finished
  · exact keeps_phase stream .onStreamConnected

theorem keeps_connected (observers : List ℕ) (sent : Bool) (revoked : List ℕ) :
    Keeps registry (registry.connected stream observers sent revoked) := by
  unfold connected
  split
  · exact keeps_phase stream .finished
  · exact ((keeps_phase stream .onStreamActivated).trans
      (keeps_activateStream stream observers)).trans (keeps_writeOrCleanup stream sent revoked)

theorem keeps_handleStreamDataReceived (consistent : registry.Consistent) (stream : ℕ)
    (isPing : Bool) (observers revoked : List ℕ)
    (spared : isPing = true → registry.isAvailable stream = true → stream ∉ observers) :
    Keeps registry (registry.handleStreamDataReceived stream isPing observers revoked) := by
  unfold handleStreamDataReceived
  split
  next => exact Keeps.refl registry
  next available =>
    rw [Bool.not_eq_false] at available
    refine (keeps_callbacks observers).trans (Keeps.trans ?_ (keeps_callbacks revoked))
    cases isPing with
    | false => exact Keeps.refl _
    | true =>
        refine keeps_modify _ fun record found => ?_
        rw [get?_callbacks (spared rfl available)] at found
        rcases isAvailable_iff.mp available with ⟨same, foundSame, live, -⟩
        cases found.symm.trans foundSame
        exact ⟨rfl, rfl, rfl, fun _ => consistent.clock, fun isRevoked => by omega⟩

theorem keeps_terminateInactiveStreams :
    Keeps registry (registry.terminateInactiveStreams revoked) := by
  unfold terminateInactiveStreams
  generalize registry.streamsById.entries = entries
  induction entries generalizing registry with
  | nil => exact Keeps.refl registry
  | cons entry rest ih =>
      refine Keeps.trans ?_ ih
      beta_reduce
      split
      next => exact Keeps.refl registry
      next =>
        split
        · exact keeps_cleanupStream entry.2 (revoked entry.2)
        · exact Keeps.refl registry

theorem keeps_disconnectClient (streamOrClientId : ℕ ⊕ String) (revoked : List ℕ) :
    Keeps registry (registry.disconnectClient streamOrClientId revoked) := by
  unfold disconnectClient
  dsimp only
  split
  next => exact Keeps.refl registry
  next stream _ =>
    split
    next => exact Keeps.refl registry
    next =>
      split
      · exact keeps_cleanupStream stream revoked
      · exact Keeps.refl registry

theorem keeps_close : Keeps registry (registry.close revoked) := by
  unfold close
  generalize registry.streamsById.entries = entries
  induction entries generalizing registry with
  | nil => exact Keeps.refl registry
  | cons entry rest ih => exact (keeps_cleanupStream entry.2 (revoked entry.2)).trans ih

theorem keeps_attachConnection (consistent : registry.Consistent) (maxActiveStreams : ℕ)
    {record : StreamRecord} {revoked : List ℕ}
    (fresh : ∀ stream old, registry.streams.get? stream = some old → old.id ≠ record.id)
    (live : 0 ≤ record.lastPingAt) (notActivated : record.isActivated = false)
    (known : ∀ stream ∈ revoked, stream < registry.created) :
    Keeps registry (registry.attachConnection maxActiveStreams record revoked) := by
  unfold attachConnection
  split
  next => exact Keeps.refl registry
  next =>
    have created := consistent.create fresh live notActivated
    have retains : Retains registry
        { registry.replace registry.created record with created := registry.created + 1 } := by
      intro stream old found _
      have earlier := consistent.numbered.created stream old found
      exact ⟨old, (get?_replace stream).trans ((if_neg (by omega)).trans found), rfl, rfl⟩
    have own : (registry.replace registry.created record).streams.get? registry.created =
        some record := (get?_replace registry.created).trans (if_pos rfl)
    refine Keeps.trans ⟨fun _ => created, retains⟩ ?_
    unfold handleStreamEstablished
    split
    next conflictingStream current =>
      split
      · exact keeps_cleanupStream registry.created revoked
      · have existing : conflictingStream < registry.created := by
          rcases consistent.current current with ⟨_, old, entry⟩
          exact consistent.numbered.created conflictingStream old entry.found
        have spared : registry.created ∉ revoked := by
          intro mem
          exact absurd (known registry.created mem) (Nat.lt_irrefl registry.created)
        refine (keeps_cleanupStream conflictingStream revoked).trans
          (keeps_enter ?_ live notActivated ?_)
        · exact (get?_callbacks spared).trans
            ((get?_revokeStream_of_ne (Nat.ne_of_gt existing)).trans own)
        · exact (shrinks_callbacks revoked).getCurrentStreamByClientId
            (getCurrentStreamByClientId_revokeStream created current)
    next absent => exact keeps_enter own live notActivated absent

end Steps

section Runs

/-- What the maps and the flags promise to the rest of the server. -/
structure Coherent (registry : StreamRegistry) : Prop where
  oneCurrent : ∀ clientId, registry.pendingStreamsByClientId.get? clientId = none ∨
    registry.streamsByClientId.get? clientId = none
  entered : ∀ clientId stream, registry.pendingStreamsByClientId.get? clientId = some stream ∨
      registry.streamsByClientId.get? clientId = some stream →
    ∃ record, registry.streams.get? stream = some record ∧
      registry.streamsById.get? record.id = some stream ∧ record.clientId = clientId ∧
        0 ≤ record.lastPingAt
  current : ∀ id stream, registry.streamsById.get? id = some stream →
    ∃ record, registry.streams.get? stream = some record ∧ record.id = id ∧
      registry.getCurrentStreamByClientId record.clientId = some stream
  activated : ∀ stream,
    (∃ record, registry.streams.get? stream = some record ∧ record.isActivated = true ∧
      0 ≤ record.lastPingAt) ↔
    ∃ clientId, registry.streamsByClientId.get? clientId = some stream

/-- The stream is revoked, it is in none of the maps, and its activation is as given. -/
def Withdrawn (registry : StreamRegistry) (stream : ℕ) (isActivated : Bool) : Prop :=
  (∃ record, registry.streams.get? stream = some record ∧ record.lastPingAt = -1 ∧
    record.isActivated = isActivated) ∧
    (∀ id, registry.streamsById.get? id ≠ some stream) ∧
      (∀ clientId, registry.pendingStreamsByClientId.get? clientId ≠ some stream) ∧
        ∀ clientId, registry.streamsByClientId.get? clientId ≠ some stream

/-- The callbacks that see a ping do not revoke the stream that it refreshes. -/
def PingsUndisturbed (registry : StreamRegistry) : RegistryEvent → Prop
  | .receive stream isPing observers _ =>
      isPing = true → registry.isAvailable stream = true → stream ∉ observers
  | _ => True

instance PingsUndisturbed.decidable : DecidableRel PingsUndisturbed
  | registry, .receive stream isPing observers _ =>
      inferInstanceAs (Decidable
        (isPing = true → registry.isAvailable stream = true → stream ∉ observers))
  | _, .elapse _ => isTrue trivial
  | _, .attach _ _ _ _ _ => isTrue trivial
  | _, .established _ _ _ _ => isTrue trivial
  | _, .willActivate _ => isTrue trivial
  | _, .connected _ _ _ _ => isTrue trivial
  | _, .activated _ _ => isTrue trivial
  | _, .failed _ _ => isTrue trivial
  | _, .socketClosed _ _ => isTrue trivial
  | _, .terminateInactiveStreams _ => isTrue trivial
  | _, .disconnectClient _ _ => isTrue trivial
  | _, .close _ => isTrue trivial

variable {maxActiveStreams : ℕ} {registry : StreamRegistry}

theorem Consistent.coherent (consistent : registry.Consistent) : registry.Coherent := by
  refine ⟨?_, ?_, consistent.byId, ?_⟩
  · intro clientId
    cases pending : registry.pendingStreamsByClientId.get? clientId with
    | none => exact .inl rfl
    | some stream => exact .inr (consistent.exclusive clientId stream pending)
  · rintro clientId stream (pending | active)
    · rcases consistent.pending clientId stream pending with ⟨record, entry⟩
      exact ⟨record, entry.found, entry.byId, entry.clientId, entry.live⟩
    · rcases consistent.active clientId stream active with ⟨record, entry⟩
      exact ⟨record, entry.found, entry.byId, entry.clientId, entry.live⟩
  · intro stream
    constructor
    · rintro ⟨record, found, isActivated, live⟩
      exact ⟨record.clientId, consistent.activated stream record found live isActivated⟩
    · rintro ⟨clientId, active⟩
      rcases consistent.active clientId stream active with ⟨record, entry⟩
      exact ⟨record, entry.found, entry.isActivated, entry.live⟩

theorem consistent_initial {now : ℤ} (clock : 0 ≤ now) : (initial now).Consistent := by
  refine ⟨clock, ?_, ?_, ?_, ?_, ?_, ?_, ?_, ?_⟩ <;> intros <;> contradiction

theorem Consistent.elapse (consistent : registry.Consistent) {time : ℤ}
    (later : registry.now ≤ time) : { registry with now := time }.Consistent := by
  have kept : ∀ {clientId stream isActivated record},
      registry.Entry clientId stream isActivated record →
        { registry with now := time }.Entry clientId stream isActivated record :=
    fun entry => ⟨entry.found, entry.clientId, entry.isActivated, entry.live, entry.byId⟩
  refine ⟨Int.le_trans consistent.clock later, consistent.exclusive, ?_, ?_, consistent.byId,
    consistent.activated, consistent.numbered⟩
  · intro clientId stream pending
    rcases consistent.pending clientId stream pending with ⟨record, entry⟩
    exact ⟨record, kept entry⟩
  · intro clientId stream active
    rcases consistent.active clientId stream active with ⟨record, entry⟩
    exact ⟨record, kept entry⟩

theorem keeps_advance (maxActiveStreams : ℕ) (consistent : registry.Consistent)
    {event : RegistryEvent}
    (feasible : registry.Feasible event) (undisturbed : registry.PingsUndisturbed event) :
    Keeps registry (registry.advance maxActiveStreams event) := by
  cases event with
  | elapse time =>
      exact ⟨fun _ => consistent.elapse feasible, (Keeps.refl registry).retains⟩
  | attach id clientId protocolVersion supersede revoked =>
      refine keeps_attachConnection consistent maxActiveStreams ?_ consistent.clock rfl feasible.2
      intro stream old found
      exact feasible.1 (stream, old) ((OrderedMap.get?_eq_some_iff _ _ _).mp found)
  | established stream rejected sent revoked =>
      exact keeps_established stream rejected sent revoked
  | willActivate stream => exact keeps_willActivate stream
  | connected stream observers sent revoked =>
      exact keeps_connected stream observers sent revoked
  | activated stream revoked =>
      exact (keeps_phase stream .finished).trans (keeps_callbacks revoked)
  | failed stream revoked =>
      exact (keeps_phase stream .finished).trans (keeps_cleanupStream stream revoked)
  | receive stream isPing observers revoked =>
      exact keeps_handleStreamDataReceived consistent stream isPing observers revoked undisturbed
  | socketClosed stream revoked => exact keeps_cleanupStream stream revoked
  | terminateInactiveStreams revoked => exact keeps_terminateInactiveStreams revoked
  | disconnectClient streamOrClientId revoked =>
      exact keeps_disconnectClient streamOrClientId revoked
  | close revoked => exact keeps_close revoked

theorem reachable_consistent
    (reachable : ((system maxActiveStreams).restrict PingsUndisturbed).Reachable registry) :
    registry.Consistent := by
  refine reachable.invariant Consistent ?_ ?_
  · rintro state ⟨now, clock, rfl⟩
    exact consistent_initial clock
  · rintro before event after - consistent ⟨undisturbed, feasible, rfl⟩
    exact (keeps_advance maxActiveStreams consistent feasible undisturbed).consistent consistent

/-- Along every run whose pings are undisturbed the maps and the flags agree, and a stream that has
been revoked stays so. -/
theorem registry_coherent_and_revoked_withdrawn
    (reachable : ((system maxActiveStreams).restrict PingsUndisturbed).Reachable registry) :
    registry.Coherent ∧
      ∀ stream record, registry.streams.get? stream = some record → record.lastPingAt < 0 →
        ∀ later, (((system maxActiveStreams).restrict PingsUndisturbed).startingAt
          registry).Reachable later → later.Withdrawn stream record.isActivated := by
  have consistent := reachable_consistent reachable
  refine ⟨consistent.coherent, ?_⟩
  intro stream record found revoked later follows
  have kept : later.Consistent ∧ Retains registry later := by
    refine follows.invariant (fun state => state.Consistent ∧ Retains registry state) ?_ ?_
    · rintro state rfl
      exact ⟨consistent, (Keeps.refl _).retains⟩
    · rintro before event after - ⟨consistentBefore, retained⟩ ⟨undisturbed, feasible, rfl⟩
      have keeps := keeps_advance maxActiveStreams consistentBefore feasible undisturbed
      exact ⟨keeps.consistent consistentBefore, retained.trans keeps.retains⟩
  rcases kept with ⟨consistentLater, retained⟩
  rcases retained stream record found revoked with ⟨last, foundLast, samePing, sameFlag⟩
  have stillRevoked : last.lastPingAt < 0 := by omega
  exact ⟨⟨last, foundLast, consistentLater.numbered.revoked stream last foundLast stillRevoked,
    sameFlag⟩, consistentLater.revoked_absent foundLast stillRevoked⟩

/-- A client whose stream is activated. -/
def exampleActivation : List RegistryEvent :=
  [.attach "s1" "alice" 4 false [], .established 0 false true [], .willActivate 0,
    .connected 0 [] true []]

/-- A second stream of the client takes over. -/
def exampleSupersede : List RegistryEvent :=
  exampleActivation ++ [.activated 0 [], .attach "s2" "alice" 4 true [],
    .established 1 false true [], .willActivate 1, .connected 1 [] true [], .elapse 90000,
    .receive 1 true [0] [], .terminateInactiveStreams fun _ => []]

/-- A ping whose observer revokes the stream. -/
def exampleObservedPing : List RegistryEvent :=
  exampleActivation ++ [.receive 0 true [0] []]

/-- The registry behind some events. -/
def exampleRegistry (events : List RegistryEvent) : StreamRegistry :=
  events.foldl (advance 4) (initial 0)

/-- The second stream of a client supersedes the first, which stays revoked; a ping and a sweep
follow. -/
theorem registry_coherent_after_supersede :
    ((system 4).restrict PingsUndisturbed).Reachable (exampleRegistry exampleSupersede) ∧
      (exampleRegistry exampleSupersede).streamsByClientId.get? "alice" = some 1 ∧
      (exampleRegistry exampleSupersede).Coherent ∧
      (exampleRegistry exampleSupersede).Withdrawn 0 true := by
  have reachable :
      ((system 4).restrict PingsUndisturbed).Reachable (exampleRegistry exampleSupersede) := by
    refine TransitionSystem.Reachable.follow (advance 4)
      (fun before event => before.PingsUndisturbed event ∧ before.Feasible event)
      (.start ?_) ?_ ?_
    · exact ⟨0, by decide, rfl⟩
    · rintro before event ⟨undisturbed, feasible⟩
      exact ⟨undisturbed, feasible, rfl⟩
    · decide +kernel
  have results := registry_coherent_and_revoked_withdrawn reachable
  have found : (exampleRegistry exampleSupersede).streams.get? 0 =
      some ⟨"s1", "alice", 4, false, -1, true, true, .finished⟩ := by decide +kernel
  exact ⟨reachable, by decide +kernel, results.1,
    results.2 0 _ found (by decide) _ (.start rfl)⟩

/-- An observer of a ping disconnects the client, and the ping revives the revoked stream. -/
theorem ping_revives_revoked_stream :
    (system 4).Reachable (exampleRegistry exampleObservedPing) ∧
      ¬(exampleRegistry exampleObservedPing).Coherent := by
  constructor
  · refine TransitionSystem.Reachable.follow (advance 4) Feasible (.start ?_) ?_ ?_
    · exact ⟨0, by decide, rfl⟩
    · intro before event feasible
      exact ⟨feasible, rfl⟩
    · decide +kernel
  · intro coherent
    have revived : (exampleRegistry exampleObservedPing).streams.get? 0 =
        some ⟨"s1", "alice", 4, false, 0, true, true, .onStreamActivated⟩ := by decide +kernel
    rcases (coherent.activated 0).mp ⟨_, revived, rfl, by decide⟩ with ⟨clientId, active⟩
    have empty : (exampleRegistry exampleObservedPing).streamsByClientId.entries = [] := by
      decide +kernel
    have member := (OrderedMap.get?_eq_some_iff _ _ _).mp active
    rw [empty] at member
    cases member

end Runs

end StreamRegistry

end ServerFoundation.Srpc
