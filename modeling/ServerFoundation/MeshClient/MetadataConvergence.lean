import ServerFoundation.MeshClient.MetadataSync

/-!
# Convergence of client metadata

Once nothing is pending, the record of an active stream holds the metadata of the stream,
in every run that keeps clear of three interleavings: a sync that finds the last
confirmed metadata while another write is still on its way, a change of the current
stream while the microtask of an earlier one is queued, and an explicit update whose
two halves are separated by another write or by a failing check.
-/

namespace ServerFoundation.MeshClient.MetadataSync

section Convergence

variable {Key Item Registry : Type} {extractRegistryMetadata : Metadata Key Item → Registry}

/-- The stream that an entry is about. -/
def Entry.stream : Entry Registry → ℕ
  | .reserve stream _ => stream
  | .activate stream _ => stream
  | .write stream _ => stream
  | .unregister stream => stream

namespace State

variable (extractRegistryMetadata) (state : State Key Item Registry) {stream : ℕ}
  {entry : Entry Registry} {rest : List (Entry Registry)} {metadata : Registry}

/-- No microtask, chain entry, explicit update or retry is pending. -/
def Quiescent : Prop :=
  state.syncing = none ∧ state.chain = [] ∧ state.updates = [] ∧ state.timers = []

/-- A microtask of another stream does not hide a change of this one. -/
def Unhidden (stream : ℕ) : Prop :=
  state.current = some stream → state.syncing = none ∨ state.syncing = some stream

/-- A sync that finds the confirmed metadata has nothing else on its way to the registry. -/
def Undisputed (stream : ℕ) : Prop :=
  state.current = some stream →
    state.confirmed = some (extractRegistryMetadata (state.live stream)) →
    ∀ entry ∈ state.chain.getLast?,
      entry = .write stream (extractRegistryMetadata (state.live stream))

/-- No write has taken effect without its caller having resumed. -/
def NoneOutstanding : Prop :=
  (∀ accepted, state.head ≠ .answered accepted) ∧ ∀ update ∈ state.updates, update.applied = false

/-- The steps that keep clear of the three interleavings. -/
def Allowed : Label Key Item → Prop
  | .mutate stream _ _ => state.Unhidden stream
  | .microtask => ∀ stream ∈ state.syncing, state.Undisputed extractRegistryMetadata stream
  | .connected => ∀ stream ∈ state.current, state.Undisputed extractRegistryMetadata stream
  | .timer index => ∀ stream ∈ state.timers[index]?, state.Undisputed extractRegistryMetadata stream
  | .answer _ => state.NoneOutstanding
  | .update changes => changes ≠ []
  | .updateAnswer _ _ => state.NoneOutstanding
  | .updateResume index checked => ∀ update ∈ state.updates[index]?,
      state.Unhidden update.stream ∧ (state.current = some update.stream → checked = true)
  | _ => True

/-- The entries are writes of the stream. -/
def WritesOf (stream : ℕ) (entries : List (Entry Registry)) : Prop :=
  ∀ entry ∈ entries, ∃ metadata, entry = .write stream metadata

/-- The chain of a stream that was reserved is the stream's own. -/
def ChainFits (stream : ℕ) : Prop :=
  match state.phase with
  | .reserving => ∃ earlier metadata later,
      state.chain = earlier ++ .reserve stream metadata :: later ∧
        (∀ entry ∈ earlier, entry.stream ≠ stream) ∧ WritesOf stream later
  | .activating => ∃ earlier metadata later,
      state.chain = earlier ++ .activate stream metadata :: later ∧
        WritesOf stream earlier ∧ WritesOf stream later
  | _ => WritesOf stream state.chain

/-- What the record of a stream holds: what was taken last, and else what is confirmed. -/
structure RecordFits (stream : ℕ) (held : Registry) : Prop where
  record : state.record = some (stream, held)
  entry : state.head = .answered true → state.chain.head? = some (.write stream held)
  update : ∀ update ∈ state.updates, update.applied = true → update.stream = stream →
    update.projected = held
  confirmed : state.head ≠ .answered true →
    (∀ update ∈ state.updates, update.applied = true → update.stream ≠ stream) →
    state.confirmed = some held

/-- What holds of the current stream, apart from where its metadata are heading. -/
structure Fits (stream : ℕ) : Prop where
  established : stream < state.next
  chain : state.ChainFits stream
  activated : state.phase = .activating → state.head = .answered true →
    ∀ metadata, state.chain.head? = some (.activate stream metadata) →
      state.record = some (stream, metadata)
  record : state.phase = .connecting ∨ state.phase = .active → ∃ held, state.RecordFits stream held
  updates : state.phase ≠ .active → ∀ update ∈ state.updates, update.stream ≠ stream

/-- The last write on its way, or the record when there is none, has the metadata of the stream. -/
def Heading (stream : ℕ) : Prop :=
  match state.chain.getLast? with
  | some entry => entry = .write stream (extractRegistryMetadata (state.live stream))
  | none => state.record = some (stream, extractRegistryMetadata (state.live stream))

/-- The metadata of the stream are on their way unless something will look after them. -/
def Headed (stream : ℕ) : Prop :=
  state.phase = .active → state.syncing ≠ some stream → stream ∉ state.timers →
    (∀ update ∈ state.updates, update.applied = true → update.stream ≠ stream) →
    state.Heading extractRegistryMetadata stream

/-- What holds of the client as a whole. -/
structure Sound : Prop where
  queued : ∀ entry ∈ state.chain, entry.stream < state.next
  updated : ∀ update ∈ state.updates, update.stream < state.next
  changed : ∀ update ∈ state.updates, update.changes ≠ []
  idle : state.chain = [] → state.head = .idle
  fits : ∀ stream, state.current = some stream → state.Fits stream

/-- The invariant of the runs whose steps are all allowed. -/
structure Settled : Prop extends state.Sound where
  headed : ∀ stream, state.current = some stream → state.Headed extractRegistryMetadata stream

variable {extractRegistryMetadata} {state}

theorem WritesOf.append {entries : List (Entry Registry)} (writes : WritesOf stream entries)
    (metadata : Registry) : WritesOf stream (entries ++ [.write stream metadata]) := by
  intro entry member
  rcases List.mem_append.mp member with earlier | last
  · exact writes entry earlier
  · exact ⟨metadata, List.mem_singleton.mp last⟩

theorem ChainFits.append (fits : state.ChainFits stream) (metadata : Registry) :
    (state.enqueueClientRegistry (.write stream metadata)).ChainFits stream := by
  simp only [ChainFits, enqueueClientRegistry] at fits ⊢
  split at fits
  · rcases fits with ⟨earlier, reserved, later, chain, others, writes⟩
    exact ⟨earlier, reserved, later ++ [.write stream metadata], by simp [chain], others,
      writes.append metadata⟩
  · rcases fits with ⟨earlier, activated, later, chain, before, writes⟩
    exact ⟨earlier, activated, later ++ [.write stream metadata], by simp [chain], before,
      writes.append metadata⟩
  · exact fits.append metadata

theorem chain_ne_nil_of_answered (sound : state.Sound) {accepted : Bool}
    (answered : state.head = .answered accepted) : state.chain ≠ [] := by
  intro empty
  rw [sound.idle empty] at answered
  cases answered

theorem Sound.enqueue_write (sound : state.Sound) (current : state.current = some stream)
    (metadata : Registry) : (state.enqueueClientRegistry (.write stream metadata)).Sound := by
  have fits := sound.fits stream current
  refine ⟨?_, sound.updated, sound.changed, ?_, ?_⟩
  · intro entry member
    rcases List.mem_append.mp member with earlier | last
    · exact sound.queued entry earlier
    · rw [List.mem_singleton.mp last]
      exact fits.established
  · intro empty
    simp [enqueueClientRegistry] at empty
  · intro found isCurrent
    have same : found = stream := Option.some.inj (isCurrent.symm.trans current)
    subst same
    refine ⟨fits.established, fits.chain.append metadata, ?_, ?_, fits.updates⟩
    · intro phase answered activated first
      refine fits.activated phase answered activated ?_
      have nonempty := chain_ne_nil_of_answered sound answered
      simpa [enqueueClientRegistry, List.head?_append_of_ne_nil _ nonempty] using first
    · intro phase
      rcases fits.record phase with ⟨held, record, entry, update, confirmed⟩
      refine ⟨held, record, ?_, update, confirmed⟩
      intro answered
      have nonempty := chain_ne_nil_of_answered sound answered
      simpa [enqueueClientRegistry, List.head?_append_of_ne_nil _ nonempty] using entry answered

theorem settled_establish (settled : state.Settled extractRegistryMetadata)
    (metadata : Metadata Key Item) :
    (state.establish extractRegistryMetadata metadata).Settled extractRegistryMetadata := by
  have closed : ∃ earlier, (state.establish extractRegistryMetadata metadata).chain =
      earlier ++ [.reserve state.next (extractRegistryMetadata metadata)] ∧
      (∀ entry ∈ earlier, entry.stream < state.next) ∧
      (state.establish extractRegistryMetadata metadata).next = state.next + 1 ∧
      (state.establish extractRegistryMetadata metadata).current = some state.next ∧
      (state.establish extractRegistryMetadata metadata).phase = .reserving ∧
      (state.establish extractRegistryMetadata metadata).updates = state.updates := by
    simp only [establish]
    split
    · rename_i previous found
      simp only [cleanupStream, found, ↓reduceIte, enqueueClientRegistry]
      refine ⟨state.chain ++ [.unregister previous], rfl, ?_, trivial, trivial, trivial, trivial⟩
      intro entry member
      rcases List.mem_append.mp member with earlier | last
      · exact settled.queued entry earlier
      · rw [List.mem_singleton.mp last]
        exact (settled.fits previous found).established
    · exact ⟨state.chain, rfl, settled.queued, rfl, rfl, rfl, rfl⟩
  rcases closed with ⟨earlier, chain, below, next, current, phase, updates⟩
  have others : ∀ entry ∈ earlier, entry.stream ≠ state.next := fun entry member =>
    Nat.ne_of_lt (below entry member)
  refine ⟨⟨?_, ?_, ?_, ?_, ?_⟩, ?_⟩
  · intro entry member
    rw [chain] at member
    rw [next]
    rcases List.mem_append.mp member with before | last
    · exact Nat.lt_succ_of_lt (below entry before)
    · rw [List.mem_singleton.mp last]
      exact Nat.lt_succ_self _
  · intro update member
    rw [updates] at member
    rw [next]
    exact Nat.lt_succ_of_lt (settled.updated update member)
  · intro update member
    rw [updates] at member
    exact settled.changed update member
  · intro empty
    simp [chain] at empty
  · intro stream isCurrent
    have same : state.next = stream := Option.some.inj (current.symm.trans isCurrent)
    subst same
    refine ⟨by rw [next]; exact Nat.lt_succ_self _, ?_, by simp [phase], by simp [phase], ?_⟩
    · simp only [ChainFits, phase]
      exact ⟨earlier, _, [], chain, others, by simp [WritesOf]⟩
    · intro _ update member
      rw [updates] at member
      exact Nat.ne_of_lt (settled.updated update member)
  · intro stream _ active
    rw [phase] at active
    cases active

theorem settled_cleanup (sound : state.Sound) (current : state.current = some stream) :
    (state.cleanupStream stream).Settled extractRegistryMetadata := by
  simp only [cleanupStream, current, ↓reduceIte, enqueueClientRegistry]
  refine ⟨⟨?_, sound.updated, sound.changed, by simp, ?_⟩, ?_⟩
  · intro entry member
    rcases List.mem_append.mp member with earlier | last
    · exact sound.queued entry earlier
    · rw [List.mem_singleton.mp last]
      exact (sound.fits stream current).established
  · intro found isCurrent
    cases isCurrent
  · intro found isCurrent
    cases isCurrent

theorem Sound.congr {other : State Key Item Registry} (sound : state.Sound)
    (next : other.next = state.next) (current : other.current = state.current)
    (phase : other.phase = state.phase) (confirmed : other.confirmed = state.confirmed)
    (record : other.record = state.record) (chain : other.chain = state.chain)
    (head : other.head = state.head) (updates : other.updates = state.updates) : other.Sound := by
  refine ⟨?_, ?_, ?_, ?_, ?_⟩
  · rw [chain, next]
    exact sound.queued
  · rw [updates, next]
    exact sound.updated
  · rw [updates]
    exact sound.changed
  · rw [chain, head]
    exact sound.idle
  · intro stream isCurrent
    have fits := sound.fits stream (current ▸ isCurrent)
    refine ⟨next ▸ fits.established, ?_, ?_, ?_, ?_⟩
    · have chainFits := fits.chain
      simp only [ChainFits, phase, chain] at chainFits ⊢
      exact chainFits
    · rw [phase, head, chain, record]
      exact fits.activated
    · rw [phase]
      intro reached
      rcases fits.record reached with ⟨held, recordFits⟩
      exact ⟨held, record ▸ recordFits.record, by rw [head, chain]; exact recordFits.entry,
        by rw [updates]; exact recordFits.update,
        by rw [head, updates, confirmed]; exact recordFits.confirmed⟩
    · rw [phase, updates]
      exact fits.updates

theorem Sound.schedule (sound : state.Sound) (stream : ℕ) :
    (state.scheduleSyncStreamMeta stream).Sound := by
  simp only [scheduleSyncStreamMeta]
  split
  · exact sound
  · exact sound.congr rfl rfl rfl rfl rfl rfl rfl rfl

/-- What holds of the client survives the end of its first entry and what it confirms, unless the
entry was the reservation or the activation of the current stream. -/
theorem Sound.pop (sound : state.Sound) (chain : state.chain = entry :: rest)
    (other : ∀ stream, state.current = some stream →
      (∃ metadata, entry = .write stream metadata) ∨
        state.phase = .reserving ∧ entry.stream ≠ stream) {confirmed : Option Registry}
    (confirms : ∀ stream held, state.current = some stream →
      state.phase ≠ .reserving → state.RecordFits stream held →
      (∀ update ∈ state.updates, update.applied = true → update.stream ≠ stream) →
      confirmed = some held) :
    ({ state.popEntry with confirmed := confirmed } : State Key Item Registry).Sound := by
  refine ⟨?_, sound.updated, sound.changed, fun _ => rfl, ?_⟩
  · intro found member
    simp only [popEntry, chain, List.tail_cons] at member
    exact sound.queued found (by rw [chain]; exact List.mem_cons_of_mem _ member)
  · intro stream current
    have fits := sound.fits stream current
    have chainFits := fits.chain
    refine ⟨fits.established, ?_, ?_, ?_, fits.updates⟩
    · simp only [ChainFits, popEntry, chain, List.tail_cons] at chainFits ⊢
      split at chainFits
      · rcases chainFits with ⟨earlier, metadata, later, whole, others, writes⟩
        cases earlier with
        | nil =>
            simp only [List.nil_append, List.cons.injEq] at whole
            rcases other stream current with ⟨written, isWrite⟩ | ⟨-, different⟩
            · rw [isWrite] at whole
              cases whole.1
            · rw [whole.1] at different
              exact absurd rfl different
        | cons first earlier =>
            simp only [List.cons_append, List.cons.injEq] at whole
            exact ⟨earlier, metadata, later, whole.2,
              fun found member => others found (List.mem_cons_of_mem _ member), writes⟩
      · rename_i phase
        rcases chainFits with ⟨earlier, metadata, later, whole, before, writes⟩
        cases earlier with
        | nil =>
            simp only [List.nil_append, List.cons.injEq] at whole
            rcases other stream current with ⟨written, isWrite⟩ | ⟨reserving, -⟩
            · rw [isWrite] at whole
              cases whole.1
            · rw [phase] at reserving
              cases reserving
        | cons first earlier =>
            simp only [List.cons_append, List.cons.injEq] at whole
            exact ⟨earlier, metadata, later, whole.2,
              fun found member => before found (List.mem_cons_of_mem _ member), writes⟩
      · exact fun found member => chainFits found (List.mem_cons_of_mem _ member)
    · intro _ answered
      cases answered
    · intro reached
      have notReserving : state.phase ≠ .reserving := by
        rcases reached with connecting | active
        · intro reserving
          cases connecting.symm.trans reserving
        · intro reserving
          cases active.symm.trans reserving
      rcases fits.record reached with ⟨held, recordFits⟩
      refine ⟨held, recordFits.record, ?_, recordFits.update, fun _ noneTaken =>
        confirms stream held current notReserving recordFits noneTaken⟩
      intro answered
      cases answered

theorem Fits.first (fits : state.Fits stream) (chain : state.chain = entry :: rest) :
    (state.phase ≠ .reserving ∧ ∃ metadata, entry = .write stream metadata) ∨
      (state.phase = .reserving ∧ entry.stream ≠ stream) ∨
      (state.phase = .reserving ∧ WritesOf stream rest ∧
        ∃ metadata, entry = .reserve stream metadata) ∨
      (state.phase = .activating ∧ WritesOf stream rest ∧
        ∃ metadata, entry = .activate stream metadata) := by
  have chainFits := fits.chain
  simp only [ChainFits, chain] at chainFits
  split at chainFits
  · rename_i phase
    rcases chainFits with ⟨earlier, metadata, later, whole, others, writes⟩
    cases earlier with
    | nil =>
        simp only [List.nil_append, List.cons.injEq] at whole
        exact Or.inr (Or.inr (Or.inl ⟨phase, whole.2 ▸ writes, metadata, whole.1⟩))
    | cons first earlier =>
        simp only [List.cons_append, List.cons.injEq] at whole
        exact Or.inr (Or.inl ⟨phase, whole.1 ▸ others first List.mem_cons_self⟩)
  · rename_i phase
    rcases chainFits with ⟨earlier, metadata, later, whole, before, writes⟩
    cases earlier with
    | nil =>
        simp only [List.nil_append, List.cons.injEq] at whole
        exact Or.inr (Or.inr (Or.inr ⟨phase, whole.2 ▸ writes, metadata, whole.1⟩))
    | cons first earlier =>
        simp only [List.cons_append, List.cons.injEq] at whole
        exact Or.inl ⟨by simp [phase], whole.1 ▸ before first List.mem_cons_self⟩
  · rename_i notReserving _
    exact Or.inl ⟨notReserving, chainFits entry List.mem_cons_self⟩

theorem Settled.pop_foreign (settled : state.Settled extractRegistryMetadata)
    (chain : state.chain = entry :: rest) (foreign : state.current ≠ some entry.stream)
    (confirmed : Option Registry) :
    ({ state.popEntry with confirmed := confirmed } : State Key Item Registry).Settled
      extractRegistryMetadata := by
  have earlier : ∀ stream, state.current = some stream →
      state.phase = .reserving ∧ entry.stream ≠ stream := by
    intro stream current
    have different : entry.stream ≠ stream := by
      rintro rfl
      exact foreign current
    rcases (settled.fits stream current).first chain with ⟨-, metadata, rfl⟩ | earlier |
      ⟨-, -, metadata, rfl⟩ | ⟨-, -, metadata, rfl⟩
    · exact absurd rfl different
    · exact earlier
    · exact absurd rfl different
    · exact absurd rfl different
  refine ⟨settled.toSound.pop chain (fun stream current => Or.inr (earlier stream current)) ?_, ?_⟩
  · exact fun stream _ current notReserving => absurd (earlier stream current).1 notReserving
  · intro stream current active
    cases (earlier stream current).1.symm.trans active

theorem settled_start (settled : state.Settled extractRegistryMetadata)
    (chain : state.chain = entry :: rest) (idle : state.head = .idle) :
    (state.startEntry entry).Settled extractRegistryMetadata := by
  have called : ({ state with head := .called } : State Key Item Registry).Settled
      extractRegistryMetadata := by
    refine ⟨⟨settled.queued, settled.updated, settled.changed, by simp [chain], ?_⟩, settled.headed⟩
    intro stream current
    have fits := settled.fits stream current
    refine ⟨fits.established, fits.chain, fun _ answered => (nomatch answered), ?_, fits.updates⟩
    intro reached
    rcases fits.record reached with ⟨held, recordFits⟩
    exact ⟨held, recordFits.record, fun answered => (nomatch answered), recordFits.update,
      fun _ noneTaken => recordFits.confirmed (by simp [idle]) noneTaken⟩
  cases entry with
  | reserve stream metadata =>
      simp only [startEntry]
      split
      · exact called
      · rename_i notCurrent
        exact settled.pop_foreign chain notCurrent state.confirmed
  | activate stream metadata =>
      simp only [startEntry]
      split
      · exact called
      · rename_i notCurrent
        exact settled.pop_foreign chain notCurrent state.confirmed
  | write stream metadata => exact called
  | unregister stream => exact called

theorem Sound.settled_schedule (sound : state.Sound) (unhidden : state.Unhidden stream)
    (headed : ∀ found, state.current = some found → found ≠ stream →
      state.Headed extractRegistryMetadata found) :
    (state.scheduleSyncStreamMeta stream).Settled extractRegistryMetadata := by
  refine ⟨sound.schedule stream, ?_⟩
  simp only [scheduleSyncStreamMeta]
  split
  · rename_i scheduled syncing
    intro found current
    by_cases same : found = stream
    · subst same
      intro _ notSyncing
      rcases unhidden current with none | own
      · cases syncing.symm.trans none
      · exact absurd own notSyncing
    · exact headed found current same
  · rename_i unscheduled
    intro found current
    by_cases same : found = stream
    · subst same
      exact fun _ notSyncing => absurd rfl notSyncing
    · intro active _
      exact headed found current same active (by simp [unscheduled])

section

variable (settled : state.Settled extractRegistryMetadata)
include settled

theorem settled_update (current : state.current = some stream) (active : state.phase = .active)
    {changes : List (Key × Item)} (changed : changes ≠ []) (projected : Registry) :
    ({ state with updates := state.updates ++ [⟨stream, changes, projected, false⟩] } :
      State Key Item Registry).Settled extractRegistryMetadata := by
  have older : ∀ update ∈ state.updates ++ [⟨stream, changes, projected, false⟩],
      update.applied = true → update ∈ state.updates := by
    intro update member applied
    rcases List.mem_append.mp member with earlier | last
    · exact earlier
    · rw [List.mem_singleton.mp last] at applied
      cases applied
  refine ⟨⟨settled.queued, ?_, ?_, settled.idle, ?_⟩, ?_⟩
  · intro update member
    rcases List.mem_append.mp member with earlier | last
    · exact settled.updated update earlier
    · rw [List.mem_singleton.mp last]
      exact (settled.fits stream current).established
  · intro update member
    rcases List.mem_append.mp member with earlier | last
    · exact settled.changed update earlier
    · rw [List.mem_singleton.mp last]
      exact changed
  · intro found isCurrent
    have fits := settled.fits found isCurrent
    refine ⟨fits.established, fits.chain, fits.activated, ?_,
      fun inactive => absurd active inactive⟩
    intro reached
    rcases fits.record reached with ⟨held, record, entry, update, confirmed⟩
    refine ⟨held, record, entry,
      fun found member applied => update found (older found member applied)
      applied, ?_⟩
    intro unanswered noneTaken
    exact confirmed unanswered fun found member =>
      noneTaken found (List.mem_append_left _ member)
  · intro found isCurrent reached notSyncing noTimer noneTaken
    exact settled.headed found isCurrent reached notSyncing noTimer fun update member =>
      noneTaken update (List.mem_append_left _ member)

theorem Settled.eraseUpdate (index : ℕ) (others : ∀ stream, state.current = some stream →
      (∀ other ∈ state.updates.eraseIdx index, other.applied = true → other.stream ≠ stream) →
      ∀ other ∈ state.updates, other.applied = true → other.stream ≠ stream) :
    ({ state with updates := state.updates.eraseIdx index } : State Key Item Registry).Settled
      extractRegistryMetadata := by
  have kept : ∀ other ∈ state.updates.eraseIdx index, other ∈ state.updates := fun other inside =>
    List.mem_of_mem_eraseIdx inside
  refine ⟨⟨settled.queued, fun other inside => settled.updated other (kept other inside),
    fun other inside => settled.changed other (kept other inside), settled.idle, ?_⟩, ?_⟩
  · intro stream current
    have fits := settled.fits stream current
    refine ⟨fits.established, fits.chain, fits.activated, ?_,
      fun inactive other inside => fits.updates inactive other (kept other inside)⟩
    intro reached
    rcases fits.record reached with ⟨held, record, entry, taken, confirmed⟩
    exact ⟨held, record, entry, fun other inside => taken other (kept other inside),
      fun unanswered noneTaken => confirmed unanswered (others stream current noneTaken)⟩
  · intro stream current active notSyncing noTimer noneTaken
    exact settled.headed stream current active notSyncing noTimer (others stream current noneTaken)

theorem settled_updateAnswer (outstanding : state.NoneOutstanding) {index : ℕ}
    {update : Update Key Item Registry} (found : state.updates[index]? = some update)
    (accepted : Bool) :
    (if accepted ∧ state.isRecordOf update.stream then
        { state with
          record := some (update.stream, update.projected)
          updates := state.updates.set index { update with applied := true } }
      else { state with updates := state.updates.eraseIdx index } :
      State Key Item Registry).Settled extractRegistryMetadata := by
  have member := List.mem_of_getElem? found
  split
  · rename_i taken
    have others : ∀ other ∈ state.updates.set index { update with applied := true },
        other = { update with applied := true } ∨ other ∈ state.updates := by
      intro other inside
      rcases List.mem_or_eq_of_mem_set inside with old | new
      · exact Or.inr old
      · exact Or.inl new
    have placed : { update with applied := true } ∈
        state.updates.set index { update with applied := true } :=
      List.mem_set (List.getElem?_eq_some_iff.mp found).1 _
    have streams : ∀ other ∈ state.updates.set index { update with applied := true },
        ∃ old ∈ state.updates, old.stream = other.stream ∧ old.changes = other.changes := by
      intro other inside
      rcases others other inside with rfl | old
      · exact ⟨update, member, rfl, rfl⟩
      · exact ⟨other, old, rfl, rfl⟩
    refine ⟨⟨settled.queued, ?_, ?_, settled.idle, ?_⟩, ?_⟩
    · intro other inside
      rcases streams other inside with ⟨old, oldIn, same, -⟩
      exact same ▸ settled.updated old oldIn
    · intro other inside
      rcases streams other inside with ⟨old, oldIn, -, same⟩
      exact same ▸ settled.changed old oldIn
    · intro stream current
      have fits := settled.fits stream current
      refine ⟨fits.established, fits.chain, fun _ answered => absurd answered (outstanding.1 true),
        ?_, ?_⟩
      · intro reached
        rcases fits.record reached with ⟨held, recordFits⟩
        have own : update.stream = stream := by
          have isRecord := taken.2
          simp only [isRecordOf, recordFits.record, decide_eq_true_eq] at isRecord
          exact isRecord.symm
        refine ⟨update.projected, by rw [own], fun answered => absurd answered (outstanding.1 true),
          ?_, ?_⟩
        · intro other inside applied _
          rcases others other inside with rfl | old
          · rfl
          · rw [outstanding.2 other old] at applied
            cases applied
        · intro _ noneTaken
          exact absurd own (noneTaken { update with applied := true } placed rfl)
      · intro inactive other inside
        rcases streams other inside with ⟨old, oldIn, same, -⟩
        exact same ▸ fits.updates inactive old oldIn
    · intro stream current active notSyncing noTimer noneTaken
      rcases (settled.fits stream current).record (Or.inr active) with ⟨held, recordFits⟩
      have isRecord := taken.2
      simp only [isRecordOf, recordFits.record, decide_eq_true_eq] at isRecord
      exact absurd isRecord.symm (noneTaken { update with applied := true } placed rfl)
  · refine settled.eraseUpdate index fun stream _ _ other inside applied => ?_
    rw [outstanding.2 other inside] at applied
    cases applied

theorem settled_answer (outstanding : state.NoneOutstanding) (chain : state.chain = entry :: rest)
    (accepted : Bool) : (state.answerEntry accepted entry).Settled extractRegistryMetadata := by
  have noneApplied : ∀ (stream : ℕ), ∀ update ∈ state.updates, update.applied = true →
      update.stream ≠ stream := by
    intro stream update member applied
    rw [outstanding.2 update member] at applied
    cases applied
  -- Only the record and the head change, and the record only as the entry says.
  have answered : ∀ (record : Option (ℕ × Registry)) (taken : Bool),
      (∀ stream, state.current = some stream → state.phase = .activating → taken = true →
        ∀ metadata, entry = .activate stream metadata → record = some (stream, metadata)) →
      (∀ stream held, state.current = some stream → state.record = some (stream, held) →
        (∃ metadata, entry = .write stream metadata) →
        if taken then ∃ metadata, entry = .write stream metadata ∧ record = some (stream, metadata)
        else record = state.record) →
      ({ state with record := record, head := .answered taken } : State Key Item Registry).Settled
        extractRegistryMetadata := by
    intro record taken activated written
    refine ⟨⟨settled.queued, settled.updated, settled.changed, by simp [chain], ?_⟩, ?_⟩
    · intro stream current
      have fits := settled.fits stream current
      refine ⟨fits.established, fits.chain, ?_, ?_, fits.updates⟩
      · intro phase head metadata first
        simp only [chain, List.head?_cons, Option.some.injEq] at first
        exact activated stream current phase (by simpa using head) metadata first
      · intro reached
        rcases fits.record reached with ⟨held, recordFits⟩
        have isWrite : ∃ metadata, entry = .write stream metadata := by
          rcases fits.first chain with ⟨-, write⟩ | ⟨phase, -⟩ | ⟨phase, -⟩ | ⟨phase, -⟩
          · exact write
          all_goals
            rcases reached with connecting | active
            · cases connecting.symm.trans phase
            · cases active.symm.trans phase
        have confirmed := recordFits.confirmed (outstanding.1 true) (noneApplied stream)
        have outcome := written stream held current recordFits.record isWrite
        cases taken with
        | true =>
            rcases outcome with ⟨metadata, isEntry, stored⟩
            refine ⟨metadata, stored, fun _ => by simp [chain, isEntry],
              fun update member applied own =>
                absurd own (noneApplied stream update member applied),
              fun unanswered => absurd rfl unanswered⟩
        | false =>
            have same : record = state.record := outcome
            exact ⟨held, same.trans recordFits.record, fun head => (nomatch head),
              recordFits.update, fun _ _ => confirmed⟩
    · intro stream current active notSyncing noTimer noneTaken
      have heading := settled.headed stream current active notSyncing noTimer noneTaken
      simp only [Heading, chain, List.getLast?_cons] at heading ⊢
      exact heading
  cases entry with
  | reserve owner metadata =>
      simp only [answerEntry]
      split
      · exact answered _ _ (by simp) (by simp)
      · exact answered state.record _ (by simp) (by simp)
  | activate owner metadata =>
      simp only [answerEntry, writeRecord]
      split
      · refine answered _ _ ?_ (by simp)
        intro stream _ _ _ found same
        cases same
        rfl
      · exact answered state.record _ (by simp) (by simp)
  | write owner metadata =>
      simp only [answerEntry, writeRecord]
      split
      · refine answered _ _ (by simp) ?_
        intro stream held _ _ isWrite
        rcases isWrite with ⟨found, same⟩
        cases same
        exact ⟨metadata, rfl, rfl⟩
      · exact answered state.record _ (by simp) (by simp)
  | unregister owner =>
      simp only [answerEntry]
      split
      · exact answered _ _ (by simp) (by simp)
      · exact answered state.record _ (by simp) (by simp)

section

variable (current : state.current = some stream)
include current

theorem settled_confirm (chain : state.chain = .write stream metadata :: rest)
    (answered : state.head = .answered true) :
    ({ state.popEntry with confirmed := some metadata } : State Key Item Registry).Settled
      extractRegistryMetadata := by
  have taken : ∀ held, state.RecordFits stream held → held = metadata := by
    intro held recordFits
    have first := recordFits.entry answered
    simp only [chain, List.head?_cons, Option.some.injEq, Entry.write.injEq, true_and] at first
    exact first.symm
  refine ⟨settled.toSound.pop chain ?_ ?_, ?_⟩
  · intro found isCurrent
    have same : found = stream := Option.some.inj (isCurrent.symm.trans current)
    exact Or.inl ⟨metadata, by rw [same]⟩
  · intro found held isCurrent _ recordFits _
    have same : found = stream := Option.some.inj (isCurrent.symm.trans current)
    subst same
    rw [taken held recordFits]
  · intro found isCurrent active notSyncing noTimer noneTaken
    have same : found = stream := Option.some.inj (isCurrent.symm.trans current)
    subst same
    rcases (settled.fits found current).record (Or.inr active) with ⟨held, recordFits⟩
    have heading := settled.headed found current active notSyncing noTimer noneTaken
    cases rest with
    | nil =>
        simp only [Heading, chain, List.getLast?_singleton, Entry.write.injEq, true_and] at heading
        simp only [Heading, popEntry, chain, List.tail_cons, List.getLast?_nil]
        rw [recordFits.record, taken held recordFits, heading]
    | cons second rest =>
        simp only [Heading, chain, List.getLast?_cons_cons] at heading
        simp only [Heading, popEntry, chain, List.tail_cons]
        exact heading

theorem settled_retry (chain : state.chain = .write stream metadata :: rest)
    (answered : state.head = .answered false) :
    ({ state.popEntry with timers := state.timers ++ [stream] } : State Key Item Registry).Settled
      extractRegistryMetadata := by
  have popped : state.popEntry.Sound := by
    refine settled.toSound.pop chain ?_ fun found held _ _ recordFits noneTaken =>
      recordFits.confirmed (by simp [answered]) noneTaken
    intro found isCurrent
    have same : found = stream := Option.some.inj (isCurrent.symm.trans current)
    exact Or.inl ⟨metadata, by rw [same]⟩
  refine ⟨popped.congr rfl rfl rfl rfl rfl rfl rfl rfl, ?_⟩
  intro found isCurrent _ _ noTimer
  have same : found = stream := Option.some.inj (isCurrent.symm.trans current)
  exact absurd (List.mem_append_right _ (by simp [same])) noTimer

theorem settled_reserved (chain : state.chain = entry :: rest) (writes : WritesOf stream rest)
    (reserving : state.phase = .reserving) (metadata : Registry) :
    (({ state.popEntry with phase := .activating } : State Key Item Registry).enqueueClientRegistry
      (.activate stream metadata)).Settled extractRegistryMetadata := by
  have fits := settled.fits stream current
  simp only [enqueueClientRegistry, popEntry, chain, List.tail_cons]
  refine ⟨⟨?_, settled.updated, settled.changed, by simp, ?_⟩, by simp [Headed]⟩
  · intro found member
    rcases List.mem_append.mp member with earlier | last
    · exact settled.queued found (by rw [chain]; exact List.mem_cons_of_mem _ earlier)
    · rw [List.mem_singleton.mp last]
      exact fits.established
  · intro found isCurrent
    have same : found = stream := Option.some.inj (isCurrent.symm.trans current)
    subst same
    refine ⟨fits.established,
      ⟨rest, metadata, [], rfl, writes, by simp [WritesOf]⟩, by simp, by simp,
      fun _ => fits.updates (by simp [reserving])⟩

theorem settled_activated (chain : state.chain = .activate stream metadata :: rest)
    (writes : WritesOf stream rest) (activating : state.phase = .activating)
    (answered : state.head = .answered true) :
    ({ state.popEntry with confirmed := some metadata, phase := .connecting } :
      State Key Item Registry).Settled extractRegistryMetadata := by
  have fits := settled.fits stream current
  have stored := fits.activated activating answered metadata (by simp [chain])
  have others := fits.updates (by simp [activating])
  simp only [popEntry, chain, List.tail_cons]
  refine ⟨⟨?_, settled.updated, settled.changed, by simp, ?_⟩, by simp [Headed]⟩
  · exact fun found member =>
      settled.queued found (by rw [chain]; exact List.mem_cons_of_mem _ member)
  · intro found isCurrent
    have same : found = stream := Option.some.inj (isCurrent.symm.trans current)
    subst same
    refine ⟨fits.established, writes, by simp, fun _ => ⟨metadata, stored, by simp, ?_,
      fun _ _ => rfl⟩, fun _ => others⟩
    exact fun update member _ own => absurd own (others update member)

theorem settled_refused (chain : state.chain = entry :: rest) :
    (state.popEntry.cleanupStream stream).Settled extractRegistryMetadata := by
  have established := (settled.fits stream current).established
  simp only [cleanupStream, popEntry, current, ↓reduceIte, enqueueClientRegistry, chain,
    List.tail_cons]
  refine ⟨⟨?_, settled.updated, settled.changed, by simp, by simp⟩, by simp⟩
  intro found member
  rcases List.mem_append.mp member with earlier | last
  · exact settled.queued found (by rw [chain]; exact List.mem_cons_of_mem _ earlier)
  · rw [List.mem_singleton.mp last]
    exact established

end

theorem settled_resume (chain : state.chain = entry :: rest) {accepted : Bool}
    (answered : state.head = .answered accepted) :
    (state.resumeEntry extractRegistryMetadata accepted entry).Settled extractRegistryMetadata := by
  cases entry with
  | reserve owner metadata =>
      by_cases own : state.current = some owner
      · simp only [resumeEntry, own, ↓reduceIte]
        split
        · rcases (settled.fits owner own).first chain with ⟨-, _, same⟩ | ⟨-, different⟩ |
            ⟨reserving, writes, -⟩ | ⟨-, -, _, same⟩
          · cases same
          · exact absurd rfl different
          · exact settled_reserved settled own chain writes reserving _
          · cases same
        · exact settled_refused settled own chain
      · have unchanged : state.popEntry.cleanupStream owner = state.popEntry := by
          simp [cleanupStream, popEntry, own]
        simp only [resumeEntry, own, ↓reduceIte, unchanged, ite_self]
        exact settled.pop_foreign chain own state.confirmed
  | activate owner metadata =>
      by_cases own : state.current = some owner
      · simp only [resumeEntry, own, ↓reduceIte]
        split
        · rename_i taken
          rcases (settled.fits owner own).first chain with ⟨-, _, same⟩ | ⟨-, different⟩ |
            ⟨-, -, _, same⟩ | ⟨activating, writes, -⟩
          · cases same
          · exact absurd rfl different
          · cases same
          · exact settled_activated settled own chain writes activating (taken ▸ answered)
        · exact settled_refused settled own chain
      · have unchanged : state.popEntry.cleanupStream owner = state.popEntry := by
          simp [cleanupStream, popEntry, own]
        simp only [resumeEntry, own, ↓reduceIte, unchanged]
        split
        · exact settled.pop_foreign chain own (some metadata)
        · exact settled.pop_foreign chain own state.confirmed
  | write owner metadata =>
      simp only [resumeEntry]
      split
      · rename_i own
        split
        · rename_i taken
          exact settled_confirm settled own chain (taken ▸ answered)
        · rename_i refused
          exact settled_retry settled own chain (by simpa [refused] using answered)
      · rename_i notCurrent
        exact settled.pop_foreign chain notCurrent state.confirmed
  | unregister owner =>
      have notOwn : state.current ≠ some owner := by
        intro own
        rcases (settled.fits owner own).first chain with ⟨-, _, same⟩ | ⟨-, different⟩ |
          ⟨-, -, _, same⟩ | ⟨-, -, _, same⟩
        · cases same
        · exact absurd rfl different
        · cases same
        · cases same
      simp only [resumeEntry]
      split
      · exact settled.pop_foreign chain notOwn none
      · exact settled.pop_foreign chain notOwn state.confirmed

end

section Syncs

variable [DecidableEq Registry]

theorem Sound.settled_sync (sound : state.Sound) {stream : ℕ}
    (current : state.current = some stream)
    (undisputed : state.Undisputed extractRegistryMetadata stream) :
    (state.syncStreamMeta extractRegistryMetadata stream).Settled extractRegistryMetadata := by
  simp only [syncStreamMeta]
  split
  · rename_i confirmed
    refine ⟨sound, fun found isCurrent => ?_⟩
    have same : found = stream := Option.some.inj (isCurrent.symm.trans current)
    subst same
    intro active _ _ noneTaken
    simp only [Heading]
    split
    · rename_i entry last
      exact undisputed current confirmed entry last
    · rename_i empty
      rcases (sound.fits found current).record (Or.inr active) with ⟨held, fits⟩
      have idle := sound.idle (List.getLast?_eq_none_iff.mp empty)
      have heldConfirmed := fits.confirmed (by simp [idle]) noneTaken
      rw [fits.record, Option.some.inj (heldConfirmed.symm.trans confirmed)]
  · refine ⟨sound.enqueue_write current _, fun found isCurrent => ?_⟩
    have same : found = stream := Option.some.inj (isCurrent.symm.trans current)
    subst same
    intro _ _ _ _
    simp [Heading, enqueueClientRegistry]

theorem settled_microtask (settled : state.Settled extractRegistryMetadata) {stream : ℕ}
    (syncing : state.syncing = some stream)
    (undisputed : state.Undisputed extractRegistryMetadata stream) :
    ({ state with syncing := none }.syncIfCurrent extractRegistryMetadata stream).Settled
      extractRegistryMetadata := by
  have sound : ({ state with syncing := none } : State Key Item Registry).Sound :=
    settled.toSound.congr rfl rfl rfl rfl rfl rfl rfl rfl
  simp only [syncIfCurrent]
  split
  · rename_i current
    exact sound.settled_sync current undisputed
  · rename_i notCurrent
    refine ⟨sound, fun found current active _ noTimer noneTaken => ?_⟩
    refine settled.headed found current active ?_ noTimer noneTaken
    rw [syncing]
    rintro ⟨rfl⟩
    exact notCurrent current

theorem settled_timer (settled : state.Settled extractRegistryMetadata) {index stream : ℕ}
    (due : state.timers[index]? = some stream)
    (undisputed : state.Undisputed extractRegistryMetadata stream) :
    ({ state with timers := state.timers.eraseIdx index }.syncIfCurrent extractRegistryMetadata
      stream).Settled extractRegistryMetadata := by
  have sound : ({ state with timers := state.timers.eraseIdx index } :
      State Key Item Registry).Sound := settled.toSound.congr rfl rfl rfl rfl rfl rfl rfl rfl
  simp only [syncIfCurrent]
  split
  · rename_i current
    exact sound.settled_sync current undisputed
  · rename_i notCurrent
    refine ⟨sound, fun found current active notSyncing noTimer noneTaken => ?_⟩
    refine settled.headed found current active notSyncing ?_ noneTaken
    intro waiting
    refine noTimer (List.mem_eraseIdx_iff_getElem?.mpr ?_)
    rcases List.mem_iff_getElem?.mp waiting with ⟨place, held⟩
    refine ⟨place, ?_, held⟩
    rintro rfl
    rw [due] at held
    exact notCurrent (held ▸ current)

theorem settled_connected (settled : state.Settled extractRegistryMetadata) {stream : ℕ}
    (current : state.current = some stream) (connecting : state.phase = .connecting)
    (undisputed : state.Undisputed extractRegistryMetadata stream) :
    ({ state with phase := .active }.syncStreamMeta extractRegistryMetadata stream).Settled
      extractRegistryMetadata := by
  have sound : ({ state with phase := .active } : State Key Item Registry).Sound := by
    refine ⟨settled.queued, settled.updated, settled.changed, settled.idle, ?_⟩
    intro found isCurrent
    have fits := settled.fits found isCurrent
    have chainFits := fits.chain
    simp only [ChainFits, connecting] at chainFits
    refine ⟨fits.established, chainFits, by simp, ?_, by simp⟩
    intro _
    rcases fits.record (Or.inl connecting) with ⟨held, record, entry, update, confirmed⟩
    exact ⟨held, record, entry, update, confirmed⟩
  exact sound.settled_sync current undisputed

end Syncs

section Changes

variable [DecidableEq Key]

theorem settled_mutate (settled : state.Settled extractRegistryMetadata) {stream : ℕ} (key : Key)
    (item : Option Item) (unhidden : state.Unhidden stream) :
    (state.mutate stream key item).Settled extractRegistryMetadata := by
  have sound : ({ state with
      live := Function.update state.live stream ((state.live stream).change key item) } :
      State Key Item Registry).Sound := settled.toSound.congr rfl rfl rfl rfl rfl rfl rfl rfl
  refine sound.settled_schedule unhidden ?_
  intro found current different active notSyncing noTimer noneTaken
  have heading := settled.headed found current active notSyncing noTimer noneTaken
  simpa only [Heading, Function.update_of_ne different] using heading

theorem settled_updateResume (settled : state.Settled extractRegistryMetadata) {index : ℕ}
    {update : Update Key Item Registry} (found : state.updates[index]? = some update)
    (applied : update.applied = true) {checked : Bool} (unhidden : state.Unhidden update.stream)
    (passes : state.current = some update.stream → checked = true) :
    (if checked ∧ state.current = some update.stream ∧ state.isRecordOf update.stream then
        { state with updates := state.updates.eraseIdx index }.applyUpdate update
      else { state with updates := state.updates.eraseIdx index } :
      State Key Item Registry).Settled extractRegistryMetadata := by
  have member := List.mem_of_getElem? found
  have kept : ∀ other ∈ state.updates.eraseIdx index, other ∈ state.updates := fun other inside =>
    List.mem_of_mem_eraseIdx inside
  by_cases own : state.current = some update.stream
  · have fits := settled.fits update.stream own
    have active : state.phase = .active := by
      by_contra inactive
      exact fits.updates inactive update member rfl
    rcases fits.record (Or.inr active) with ⟨held, recordFits⟩
    have isRecord : state.isRecordOf update.stream = true := by simp [isRecordOf, recordFits.record]
    have projected : update.projected = held := recordFits.update update member applied rfl
    rw [if_pos ⟨passes own, own, isRecord⟩]
    simp only [applyUpdate, settled.changed update member, ↓reduceIte]
    refine Sound.settled_schedule ?_ unhidden ?_
    · refine ⟨settled.queued, fun other inside => settled.updated other (kept other inside),
        fun other inside => settled.changed other (kept other inside), settled.idle, ?_⟩
      intro stream current
      have same : stream = update.stream := Option.some.inj (current.symm.trans own)
      subst same
      refine ⟨fits.established, fits.chain, fits.activated, fun _ => ⟨held, recordFits.record,
        recordFits.entry, fun other inside => recordFits.update other (kept other inside),
        fun _ _ => by rw [projected]⟩, fun inactive => absurd active inactive⟩
    · intro stream current different
      exact absurd (Option.some.inj (current.symm.trans own)) different
  · have others : ∀ stream, state.current = some stream →
        (∀ other ∈ state.updates.eraseIdx index, other.applied = true → other.stream ≠ stream) →
        ∀ other ∈ state.updates, other.applied = true → other.stream ≠ stream := by
      intro stream current noneTaken other inside taken
      rcases List.mem_iff_getElem?.mp inside with ⟨place, held⟩
      by_cases erased : place = index
      · rw [erased, found] at held
        cases held
        rintro rfl
        exact own current
      · exact noneTaken other (List.mem_eraseIdx_iff_getElem?.mpr ⟨place, erased, held⟩) taken
    simp only [own, false_and, and_false, ↓reduceIte]
    exact settled.eraseUpdate index others

end Changes

end State

section Runs

theorem settled_initial (live : ℕ → Metadata Key Item) :
    (initial live : State Key Item Registry).Settled extractRegistryMetadata := by
  refine ⟨⟨?_, ?_, ?_, fun _ => rfl, ?_⟩, ?_⟩
  all_goals simp [initial]

variable [DecidableEq Key] [DecidableEq Registry]

/-- The runs whose steps are all allowed. -/
def settlingSystem (extractRegistryMetadata : Metadata Key Item → Registry) :
    TransitionSystem (State Key Item Registry) (Label Key Item) :=
  (system extractRegistryMetadata).restrict (State.Allowed extractRegistryMetadata)

theorem settled_step {before after : State Key Item Registry} {label : Label Key Item}
    (settled : before.Settled extractRegistryMetadata)
    (allowed : before.Allowed extractRegistryMetadata label)
    (taken : before.step extractRegistryMetadata label = some after) :
    after.Settled extractRegistryMetadata := by
  cases label with
  | establish metadata =>
      cases taken
      exact State.settled_establish settled metadata
  | disconnect =>
      rcases Option.map_eq_some_iff.mp taken with ⟨stream, current, rfl⟩
      exact State.settled_cleanup settled.toSound current
  | mutate stream key item =>
      simp only [State.step] at taken
      split at taken
      · cases taken
        exact State.settled_mutate settled key item allowed
      · cases taken
  | microtask =>
      rcases Option.map_eq_some_iff.mp taken with ⟨stream, syncing, rfl⟩
      exact State.settled_microtask settled syncing (allowed stream syncing)
  | start =>
      simp only [State.step] at taken
      split at taken
      · rename_i entry rest chain idle
        cases taken
        exact State.settled_start settled chain idle
      · cases taken
  | answer accepted =>
      simp only [State.step] at taken
      split at taken
      · rename_i entry rest chain called
        cases taken
        exact State.settled_answer settled allowed chain accepted
      · cases taken
  | resume =>
      simp only [State.step] at taken
      split at taken
      · rename_i entry rest accepted chain answered
        cases taken
        exact State.settled_resume settled chain answered
      · cases taken
  | connected =>
      simp only [State.step] at taken
      split at taken
      · rename_i stream current connecting
        cases taken
        exact State.settled_connected settled current connecting (allowed stream current)
      · cases taken
  | update changes =>
      simp only [State.step] at taken
      split at taken
      · rename_i stream current active
        cases taken
        exact State.settled_update settled current active allowed _
      · cases taken
  | updateAnswer index accepted =>
      simp only [State.step] at taken
      split at taken
      · rename_i update found
        split at taken
        · cases taken
        · have answered := State.settled_updateAnswer settled allowed found accepted
          split at taken
          · rename_i outcome
            rw [if_pos outcome] at answered
            cases taken
            exact answered
          · rename_i outcome
            rw [if_neg outcome] at answered
            cases taken
            exact answered
      · cases taken
  | updateResume index checked =>
      simp only [State.step] at taken
      split at taken
      · rename_i update found
        split at taken
        · rename_i applied
          have resumed := State.settled_updateResume settled found applied (allowed update found).1
            (allowed update found).2
          split at taken
          · rename_i outcome
            rw [if_pos outcome] at resumed
            cases taken
            exact resumed
          · rename_i outcome
            rw [if_neg outcome] at resumed
            cases taken
            exact resumed
        · cases taken
      · cases taken
  | timer index =>
      rcases Option.map_eq_some_iff.mp taken with ⟨stream, due, rfl⟩
      exact State.settled_timer settled due (allowed stream due)

/--
In every run that keeps clear of the three interleavings, whenever nothing is pending the
record of the active stream has the metadata of the stream.
-/
theorem converged_of_quiescent {state : State Key Item Registry}
    (reachable : (settlingSystem extractRegistryMetadata).Reachable state)
    (quiescent : state.Quiescent) {stream : ℕ} (current : state.current = some stream)
    (active : state.phase = .active) :
    state.record = some (stream, extractRegistryMetadata (state.live stream)) := by
  have settled : state.Settled extractRegistryMetadata := by
    refine reachable.invariant (fun state => state.Settled extractRegistryMetadata) ?_ ?_
    · rintro _ ⟨live, rfl⟩
      exact settled_initial live
    · exact fun before label after _ before' taken => settled_step before' taken.1 taken.2
  rcases quiescent with ⟨noSync, noChain, noUpdates, noTimers⟩
  have heading := settled.headed stream current active (by simp [noSync]) (by simp [noTimers])
    (by simp [noUpdates])
  simpa only [State.Heading, noChain, List.getLast?_nil] using heading

end Runs

end Convergence

section Decisions

variable {Key Item Registry : Type} [DecidableEq Registry]
  (extractRegistryMetadata : Metadata Key Item → Registry) (state : State Key Item Registry)

instance State.Unhidden.decidable (stream : ℕ) : Decidable (state.Unhidden stream) :=
  inferInstanceAs (Decidable
    (state.current = some stream → state.syncing = none ∨ state.syncing = some stream))

instance State.Undisputed.decidable (stream : ℕ) :
    Decidable (state.Undisputed extractRegistryMetadata stream) :=
  inferInstanceAs (Decidable (state.current = some stream →
    state.confirmed = some (extractRegistryMetadata (state.live stream)) →
    ∀ entry ∈ state.chain.getLast?,
      entry = .write stream (extractRegistryMetadata (state.live stream))))

instance State.NoneOutstanding.decidable : Decidable state.NoneOutstanding :=
  inferInstanceAs (Decidable ((∀ accepted, state.head ≠ .answered accepted) ∧
    ∀ update ∈ state.updates, update.applied = false))

instance State.Allowed.decidable :
    (label : Label Key Item) → Decidable (state.Allowed extractRegistryMetadata label)
  | .mutate stream _ _ => inferInstanceAs (Decidable (state.Unhidden stream))
  | .microtask => inferInstanceAs (Decidable
      (∀ stream ∈ state.syncing, state.Undisputed extractRegistryMetadata stream))
  | .connected => inferInstanceAs (Decidable
      (∀ stream ∈ state.current, state.Undisputed extractRegistryMetadata stream))
  | .timer index => inferInstanceAs (Decidable
      (∀ stream ∈ state.timers[index]?, state.Undisputed extractRegistryMetadata stream))
  | .answer _ => inferInstanceAs (Decidable state.NoneOutstanding)
  | .update changes => inferInstanceAs (Decidable (changes ≠ []))
  | .updateAnswer _ _ => inferInstanceAs (Decidable state.NoneOutstanding)
  | .updateResume index checked => inferInstanceAs (Decidable (∀ update ∈ state.updates[index]?,
      state.Unhidden update.stream ∧ (state.current = some update.stream → checked = true)))
  | .establish _ => isTrue trivial
  | .disconnect => isTrue trivial
  | .start => isTrue trivial
  | .resume => isTrue trivial

end Decisions

/-- The registry keeps the status of a client. -/
def status (metadata : Metadata String ℕ) : Option ℕ := metadata "status"

/-- The next state, and the same one where the step is not possible. -/
def advance (state : State String ℕ (Option ℕ)) (label : Label String ℕ) :
    State String ℕ (Option ℕ) :=
  (state.step status label).getD state

/-- A stream without a status is established, reserved and activated. -/
def connect : List (Label String ℕ) :=
  [.establish fun _ => none, .start, .answer true, .resume, .start, .answer true, .resume,
    .connected]

/-- Where further steps lead from there. -/
def afterConnect (labels : List (Label String ℕ)) : State String ℕ (Option ℕ) :=
  (connect ++ labels).foldl advance (initial fun _ _ => none)

theorem advance_eq {state : State String ℕ (Option ℕ)} {label : Label String ℕ}
    (possible : (state.step status label).isSome = true) :
    state.step status label = some (advance state label) := by
  rcases Option.isSome_iff_exists.mp possible with ⟨next, taken⟩
  simp [advance, taken]

/-- A status that is set is written to the registry. -/
theorem converged_after_change :
    (afterConnect [.mutate 0 "status" (some 1), .microtask, .start, .answer true, .resume]).record =
      some (0, some 1) := by
  have reachable : (settlingSystem status).Reachable
      (afterConnect [.mutate 0 "status" (some 1), .microtask, .start, .answer true, .resume]) := by
    have started : (settlingSystem status).Reachable (initial fun _ _ => none) := .start ⟨_, rfl⟩
    refine started.follow advance
      (fun state label => state.Allowed status label ∧ (state.step status label).isSome = true)
      (fun before label guard => ⟨guard.1, advance_eq guard.2⟩) ?_
    decide +kernel
  have quiescent : (afterConnect [.mutate 0 "status" (some 1), .microtask, .start, .answer true,
      .resume]).Quiescent := ⟨by decide +kernel, by decide +kernel, rfl, by decide +kernel⟩
  exact converged_of_quiescent reachable quiescent (by decide +kernel) (by decide +kernel)

/-- A status that is set and removed again while its write is in flight stays in the registry. -/
theorem stale_after_change_back :
    ∃ state, (system status).Reachable state ∧ state.Quiescent ∧ state.current = some 0 ∧
      state.phase = .active ∧ state.record ≠ some (0, status (state.live 0)) := by
  refine ⟨afterConnect [.mutate 0 "status" (some 1), .microtask, .mutate 0 "status" none,
    .microtask, .start, .answer true, .resume], ?_, ⟨by decide +kernel, by decide +kernel, rfl,
    by decide +kernel⟩, by decide +kernel, by decide +kernel, by decide +kernel⟩
  have started : (system status).Reachable (initial fun _ _ => none) := .start ⟨_, rfl⟩
  refine started.follow advance (fun state label => (state.step status label).isSome = true)
    (fun before label guard => advance_eq guard) ?_
  decide +kernel

end ServerFoundation.MeshClient.MetadataSync
