import ServerFoundation.Data.Positions
import ServerFoundation.MeshLink.CompletedRequests

/-!
# Mesh link requests execute at most once

A link with everything that its handlers have done: which request started them, when they
completed, and whether their `finally` block has run. Handlers complete in any order, and any
number of them can complete before the first `finally` block runs.

A request that has completed and is still active is counted twice, in the cache and among the
reservations. When the cache is nearly full, the result of another handler is then refused, and
nothing remembers that the request has been executed.
-/

namespace ServerFoundation.MeshLink

/-- One execution of the request handler. -/
structure Execution where
  requestId : String
  startedAt : ℕ
  completedAt : Option ℕ
  released : Bool
deriving DecidableEq, Repr

/-- A peer with the executions of its handler, oldest first, and the current time. -/
structure Link (Body : Type) where
  peer : Peer Body
  executions : List Execution
  now : ℕ

/-- What happens on a link. -/
inductive LinkStep (Body : Type) where
  | receive (message : Message) (fits : Bool)
  | complete (index : ℕ) (outcome : Outcome Body) (fits : Bool)
  | release (index : ℕ)
  | request (id : String) (request : PendingRequest)
  | expire (id : String)
  | budget (incomingBudget : IncomingBudget)
  | closed
  | tick (later : ℕ)

namespace Link

variable {Body : Type} (byteLength : Body → ℕ) (link : Link Body)

/-- A link without requests. -/
def start (incomingBudget : Option IncomingBudget) (now : ℕ) : Link Body :=
  ⟨.fresh incomingBudget, [], now⟩

/-- The link with another peer. -/
def withPeer (peer : Peer Body) : Link Body := { link with peer }

/-- What a step does to the link. -/
def apply : LinkStep Body → Link Body
  | .receive message fits =>
      let handled := link.peer.handleMessage link.now fits message
      { link with
        peer := handled.1
        executions := link.executions ++
          handled.2.toList.map fun requestId => ⟨requestId, link.now, none, false⟩ }
  | .complete index outcome fits =>
      match link.executions[index]? with
      | none => link
      | some execution =>
          let requestId := execution.requestId
          { link with
            peer := (link.peer.rememberCompleted byteLength link.now requestId outcome).sendReply
              fits (outcome.header requestId) outcome.body
            executions := link.executions.set index
              { execution with completedAt := some link.now } }
  | .release index =>
      match link.executions[index]? with
      | none => link
      | some execution =>
          { link with
            peer := link.peer.releaseIncomingRequest execution.requestId
            executions := link.executions.set index { execution with released := true } }
  | .request id request =>
      link.withPeer { link.peer with pending := link.peer.pending.set id request }
  | .expire id => link.withPeer { link.peer with pending := link.peer.pending.erase id }
  | .budget incomingBudget =>
      link.withPeer
        { link.peer with incomingBudget := link.peer.incomingBudget.map fun _ => incomingBudget }
  | .closed => link.withPeer link.peer.close
  | .tick later => { link with now := later }

/-- A handler completes once, then its `finally` block runs once, and time does not go back. -/
def Enabled : LinkStep Body → Prop
  | .complete index _ _ => ∃ execution ∈ link.executions[index]?, execution.completedAt = none
  | .release index => ∃ execution ∈ link.executions[index]?,
      execution.completedAt ≠ none ∧ execution.released = false
  | .tick later => link.now ≤ later
  | _ => True

instance : DecidablePred link.Enabled
  | .complete index _ _ =>
      inferInstanceAs (Decidable (∃ execution ∈ link.executions[index]?, _ = none))
  | .release index =>
      inferInstanceAs (Decidable (∃ execution ∈ link.executions[index]?, _ ≠ none ∧ _ = false))
  | .tick later => inferInstanceAs (Decidable (link.now ≤ later))
  | .receive _ _ | .request _ _ | .expire _ | .budget _ | .closed => isTrue trivial

/-- The links of a peer under any sequence of frames and completions. -/
def system : TransitionSystem (Link Body) (LinkStep Body) where
  Init link := ∃ incomingBudget now, link = start incomingBudget now
  Step before step after := before.Enabled step ∧ after = before.apply byteLength step

/-- When a handler completes there is room for its result. -/
def RoomAtCompletion : LinkStep Body → Prop
  | .complete index outcome _ => ∀ execution ∈ link.executions[index]?,
      link.peer.HasRoom byteLength link.now execution.requestId outcome
  | _ => True

instance : DecidablePred (link.RoomAtCompletion byteLength)
  | .complete index outcome _ =>
      inferInstanceAs (Decidable (∀ execution ∈ link.executions[index]?,
        link.peer.HasRoom byteLength link.now execution.requestId outcome))
  | .release _ | .tick _ | .receive _ _ | .request _ _ | .expire _ | .budget _ | .closed =>
      isTrue trivial

/-- The counters of the peer agree with its entries, and the active requests are those whose
`finally` block has not run. -/
structure Consistent (link : Link Body) : Prop where
  accounted : link.peer.Accounted
  reserved : link.peer.Reserved
  size : link.peer.completedIncoming.size ≤ maxCompletedRequests
  bytes : link.peer.completedIncomingBytes ≤ maxCompletedRequestBytes
  active : ∀ requestId, (link.peer.activeIncoming.get? requestId).isSome = true ↔
    ∃ (index : ℕ) (execution : Execution), link.executions[index]? = some execution ∧
      execution.requestId = requestId ∧ execution.released = false
  alone : ∀ (first second : ℕ) (execution other : Execution),
    link.executions[first]? = some execution →
    link.executions[second]? = some other → execution.requestId = other.requestId →
      execution.released = false → other.released = false → first = second
  running : ∀ (index : ℕ) (execution : Execution), link.executions[index]? = some execution →
    execution.completedAt = none →
      execution.released = false ∧ link.peer.completedIncoming.get? execution.requestId = none

/-- A request that completed less than a minute ago has an entry that outlives the minute. -/
def Remembers : Prop :=
  ∀ (index : ℕ) (execution : Execution) (completedAt : ℕ),
    link.executions[index]? = some execution → execution.completedAt = some completedAt →
      completedAt ≤ link.now ∧
      (link.now < completedAt + completedRequestTtlMs →
        ∃ entry, link.peer.completedIncoming.get? execution.requestId = some entry ∧
          completedAt + completedRequestTtlMs ≤ entry.expiresAt)

/-- A request is executed again only a minute after its previous execution has completed. -/
def AtMostOnce : Prop :=
  ∀ (first second : ℕ) (execution other : Execution), first < second →
    link.executions[first]? = some execution → link.executions[second]? = some other →
      execution.requestId = other.requestId →
      ∃ completedAt, execution.completedAt = some completedAt ∧
        completedAt + completedRequestTtlMs ≤ other.startedAt

end Link

namespace Peer

variable {Body : Type}

/-- Two peers that agree on the incoming requests. -/
structure SameIncoming (peer other : Peer Body) : Prop where
  activeIncoming : other.activeIncoming = peer.activeIncoming
  tombstones : other.activeIncomingTombstones = peer.activeIncomingTombstones
  tombstoneBytes : other.activeIncomingTombstoneBytes = peer.activeIncomingTombstoneBytes
  completed : other.completedIncoming = peer.completedIncoming
  completedBytes : other.completedIncomingBytes = peer.completedIncomingBytes

variable {peer other : Peer Body}

theorem sameIncoming_sendReply (fits : Bool) (header : Header) (body : Option Body) :
    peer.SameIncoming (peer.sendReply fits header body) := by
  unfold sendReply send
  split
  · exact ⟨rfl, rfl, rfl, rfl, rfl⟩
  · exact ⟨rfl, rfl, rfl, rfl, rfl⟩

theorem sameIncoming_handleReply (type replyTo : String) :
    peer.SameIncoming (peer.handleReply type replyTo) := by
  unfold handleReply
  split
  · exact ⟨rfl, rfl, rfl, rfl, rfl⟩
  · exact ⟨rfl, rfl, rfl, rfl, rfl⟩

theorem sameIncoming_release_charge (reserved : peer.Reserved) {requestId : String}
    (absent : peer.activeIncoming.get? requestId = none) (requestBytes : ℕ) :
    peer.SameIncoming ((peer.charge requestId requestBytes).releaseIncomingRequest requestId) := by
  have noTombstone : peer.activeIncomingTombstones.get? requestId = none := by
    rw [reserved.tombstones, absent]
    rfl
  have found : (peer.charge requestId requestBytes).activeIncoming.get? requestId =
      some requestBytes := by
    simp [charge, OrderedMap.get?_set]
  unfold releaseIncomingRequest
  rw [found]
  constructor
  · exact OrderedMap.erase_set_of_absent _ _ absent
  · exact OrderedMap.erase_set_of_absent _ _ noTombstone
  · simp [charge, OrderedMap.get?_set]
  · rfl
  · rfl

/-- A message either leaves the incoming requests as they are, but for expired entries, or admits a
request that is neither active nor remembered and starts its handler. -/
theorem handleMessage_cases (reserved : peer.Reserved) (now : ℕ) (fits : Bool)
    (message : Message) :
    let handled := peer.handleMessage now fits message
    let pruned := peer.pruneCompletedIncoming now
    (handled.2 = none ∧ (peer.SameIncoming handled.1 ∨ pruned.SameIncoming handled.1)) ∨
      ∃ requestId requestBytes, handled.2 = some requestId ∧
        pruned.activeIncoming.get? requestId = none ∧
        pruned.completedIncoming.get? requestId = none ∧
        (pruned.charge requestId requestBytes).SameIncoming handled.1 := by
  have prunedReserved := reserved.of_sameActive (prune_sameActive now peer)
  simp only [handleMessage]
  split
  · exact .inl ⟨rfl, .inl ⟨rfl, rfl, rfl, rfl, rfl⟩⟩
  split
  · exact .inl ⟨rfl, .inl (sameIncoming_handleReply _ _)⟩
  split
  · exact .inl ⟨rfl, .inl ⟨rfl, rfl, rfl, rfl, rfl⟩⟩
  rename_i requestId _
  unfold handleRequest
  generalize peer.pruneCompletedIncoming now = pruned at *
  simp only
  by_cases active : (pruned.activeIncoming.get? requestId).isSome = true
  · rw [if_pos active]
    exact .inl ⟨rfl, .inr (sameIncoming_sendReply _ _ _)⟩
  have inactive : pruned.activeIncoming.get? requestId = none := by simpa using active
  rw [if_neg active]
  split
  · exact .inl ⟨rfl, .inr (sameIncoming_sendReply _ _ _)⟩
  rename_i absent
  split
  · exact .inl ⟨rfl, .inr (sameIncoming_sendReply _ _ _)⟩
  split
  · exact .inl ⟨rfl, .inr (sameIncoming_sendReply _ _ _)⟩
  cases sending : (pruned.charge requestId message.length).send fits (acceptedHeader requestId)
      none with
  | some sent =>
      refine .inr ⟨requestId, message.length, rfl, inactive, absent, ?_⟩
      unfold send at sending
      split at sending
      · cases sending
        exact ⟨rfl, rfl, rfl, rfl, rfl⟩
      · cases sending
  | none =>
      have restored := sameIncoming_release_charge prunedReserved inactive message.length
      exact .inl ⟨rfl, .inr ⟨restored.activeIncoming, restored.tombstones, restored.tombstoneBytes,
        restored.completed, restored.completedBytes⟩⟩

end Peer

namespace Link

variable {Body : Type} {link : Link Body}

theorem Consistent.of_sameIncoming (consistent : link.Consistent) {peer : Peer Body}
    (same : link.peer.SameIncoming peer) : (link.withPeer peer).Consistent := by
  constructor
  case accounted =>
    have accounted := consistent.accounted
    simp only [Peer.Accounted, withPeer, same.completed, same.completedBytes] at accounted ⊢
    exact accounted
  case reserved =>
    refine ⟨?_, ?_⟩
    · simp only [withPeer, same.tombstones, same.activeIncoming]
      exact consistent.reserved.tombstones
    · simp only [withPeer, same.tombstones, same.tombstoneBytes]
      exact consistent.reserved.bytes
  case size =>
    simp only [withPeer, same.completed]
    exact consistent.size
  case bytes =>
    simp only [withPeer, same.completedBytes]
    exact consistent.bytes
  case active =>
    simp only [withPeer, same.activeIncoming]
    exact consistent.active
  case alone => exact consistent.alone
  case running =>
    simp only [withPeer, same.completed]
    exact consistent.running

theorem Remembers.of_sameIncoming (remembers : link.Remembers) {peer : Peer Body}
    (same : link.peer.SameIncoming peer) : (link.withPeer peer).Remembers := by
  unfold Remembers withPeer
  simp only [same.completed]
  exact remembers

theorem Consistent.prune (consistent : link.Consistent) :
    (link.withPeer (link.peer.pruneCompletedIncoming link.now)).Consistent := by
  have same := Peer.prune_sameActive link.now link.peer
  constructor
  case accounted => exact consistent.accounted.prune link.now
  case reserved => exact consistent.reserved.of_sameActive same
  case size => exact (Peer.size_prune_le link.now).trans consistent.size
  case bytes => exact (Peer.bytes_prune_le link.now consistent.accounted).trans consistent.bytes
  case active =>
    simp only [withPeer, same.activeIncoming]
    exact consistent.active
  case alone => exact consistent.alone
  case running =>
    intro index execution found unfinished
    rcases consistent.running index execution found unfinished with ⟨unreleased, absent⟩
    exact ⟨unreleased, Peer.get?_prune_of_none link.now absent⟩

theorem Remembers.prune (remembers : link.Remembers) :
    (link.withPeer (link.peer.pruneCompletedIncoming link.now)).Remembers := by
  intro index execution completedAt found completed
  rcases remembers index execution completedAt found completed with ⟨past, kept⟩
  refine ⟨past, fun recent => ?_⟩
  rcases kept recent with ⟨entry, stored, outlives⟩
  exact ⟨entry, (Peer.get?_prune_eq_some_iff _ _ _).mpr ⟨stored, recent.trans_le outlives⟩,
    outlives⟩

section Start

variable {requestId : String} (absent : link.peer.activeIncoming.get? requestId = none)

/-- The link after a request has been admitted and its handler started. -/
def started (link : Link Body) (requestId : String) (requestBytes : ℕ) : Link Body :=
  { link with
    peer := link.peer.charge requestId requestBytes
    executions := link.executions ++ [⟨requestId, link.now, none, false⟩] }

include absent

theorem Consistent.released_of_inactive (consistent : link.Consistent) {index : ℕ}
    {execution : Execution} (found : link.executions[index]? = some execution)
    (same : execution.requestId = requestId) : execution.released = true := by
  cases released : execution.released with
  | true => rfl
  | false =>
      have active := (consistent.active requestId).mpr ⟨index, execution, found, same, released⟩
      rw [absent] at active
      cases active

theorem Reserved.charge (reserved : link.peer.Reserved) (requestBytes : ℕ) :
    (link.peer.charge requestId requestBytes).Reserved := by
  have noTombstone : link.peer.activeIncomingTombstones.get? requestId = none := by
    rw [reserved.tombstones, absent]
    rfl
  refine ⟨?_, ?_⟩
  · intro other
    simp only [Peer.charge]
    rw [OrderedMap.get?_set, OrderedMap.get?_set]
    by_cases own : other = requestId
    · rw [if_pos own, if_pos own, own]
      rfl
    · rw [if_neg own, if_neg own]
      exact reserved.tombstones other
  · simp only [Peer.charge]
    rw [OrderedMap.total_set_of_absent id _ _ noTombstone, reserved.bytes, id_eq]

theorem Consistent.started (consistent : link.Consistent) (requestBytes : ℕ)
    (noEntry : link.peer.completedIncoming.get? requestId = none) :
    (link.started requestId requestBytes).Consistent := by
  constructor
  case accounted => exact consistent.accounted
  case reserved => exact Reserved.charge absent consistent.reserved requestBytes
  case size => exact consistent.size
  case bytes => exact consistent.bytes
  case active =>
    intro other
    have activeSet : (link.started requestId requestBytes).peer.activeIncoming.get? other =
        if other = requestId then some requestBytes else link.peer.activeIncoming.get? other :=
      OrderedMap.get?_set _ _ _ _
    rw [activeSet]
    by_cases own : other = requestId
    · rw [if_pos own]
      refine iff_of_true rfl ⟨link.executions.length, _, List.getElem?_concat_length, own.symm, rfl⟩
    · rw [if_neg own, consistent.active other]
      constructor
      · rintro ⟨index, execution, found, same, unreleased⟩
        exact ⟨index, execution, getElem?_append_of_some found _, same, unreleased⟩
      · rintro ⟨index, execution, found, same, unreleased⟩
        rcases getElem?_append_singleton_cases found with earlier | ⟨-, rfl⟩
        · exact ⟨index, execution, earlier, same, unreleased⟩
        · exact absurd same.symm own
  case alone =>
    intro first second execution other firstFound secondFound same firstUnreleased secondUnreleased
    rcases getElem?_append_singleton_cases firstFound with firstEarlier | ⟨firstLast, rfl⟩ <;>
      rcases getElem?_append_singleton_cases secondFound with secondEarlier | ⟨secondLast, rfl⟩
    · exact consistent.alone first second execution other firstEarlier secondEarlier same
        firstUnreleased secondUnreleased
    · have released := consistent.released_of_inactive absent firstEarlier same
      rw [released] at firstUnreleased
      cases firstUnreleased
    · have released := consistent.released_of_inactive absent secondEarlier same.symm
      rw [released] at secondUnreleased
      cases secondUnreleased
    · rw [firstLast, secondLast]
  case running =>
    intro index execution found unfinished
    rcases getElem?_append_singleton_cases found with earlier | ⟨-, rfl⟩
    · exact consistent.running index execution earlier unfinished
    · exact ⟨rfl, noEntry⟩

omit absent in
theorem Remembers.started (remembers : link.Remembers) (requestBytes : ℕ) :
    (link.started requestId requestBytes).Remembers := by
  intro index execution completedAt found completed
  rcases getElem?_append_singleton_cases found with earlier | ⟨-, rfl⟩
  · exact remembers index execution completedAt earlier completed
  · cases completed

theorem AtMostOnce.started (once : link.AtMostOnce) (consistent : link.Consistent)
    (remembers : link.Remembers) (requestBytes : ℕ)
    (noEntry : link.peer.completedIncoming.get? requestId = none) :
    (link.started requestId requestBytes).AtMostOnce := by
  intro first second execution other before firstFound secondFound same
  rcases getElem?_append_singleton_cases secondFound with secondEarlier | ⟨secondLast, rfl⟩
  · rcases getElem?_append_singleton_cases firstFound with firstEarlier | ⟨firstLast, -⟩
    · exact once first second execution other before firstEarlier secondEarlier same
    · have inside := (List.getElem?_eq_some_iff.mp secondEarlier).1
      omega
  · rcases getElem?_append_singleton_cases firstFound with firstEarlier | ⟨firstLast, -⟩
    · have released := consistent.released_of_inactive absent firstEarlier same
      cases completed : execution.completedAt with
      | none =>
          have unreleased := (consistent.running first execution firstEarlier completed).1
          rw [released] at unreleased
          cases unreleased
      | some completedAt =>
          refine ⟨completedAt, rfl, ?_⟩
          by_contra recent
          rcases (remembers first execution completedAt firstEarlier completed).2
            (not_le.mp recent) with ⟨entry, stored, -⟩
          rw [same, noEntry] at stored
          cases stored
    · omega

end Start

section Complete

variable {index : ℕ} {execution : Execution}

/-- The link after a handler has completed, with what its peer makes of it. -/
def completed (link : Link Body) (index : ℕ) (execution : Execution) (peer : Peer Body) :
    Link Body :=
  { link with
    peer
    executions := link.executions.set index { execution with completedAt := some link.now } }

variable (found : link.executions[index]? = some execution)
  (unfinished : execution.completedAt = none)

include found unfinished

theorem Consistent.other_running (consistent : link.Consistent) {other : ℕ} {running : Execution}
    (different : other ≠ index) (otherFound : link.executions[other]? = some running)
    (otherUnfinished : running.completedAt = none) : running.requestId ≠ execution.requestId := by
  intro same
  refine different (consistent.alone other index running execution otherFound found same ?_ ?_)
  · exact (consistent.running other running otherFound otherUnfinished).1
  · exact (consistent.running index execution found unfinished).1

theorem Consistent.completed (consistent : link.Consistent) {peer : Peer Body}
    (same : link.peer.SameActive peer) (accounted : peer.Accounted)
    (size : peer.completedIncoming.size ≤ maxCompletedRequests)
    (bytes : peer.completedIncomingBytes ≤ maxCompletedRequestBytes)
    (others : ∀ other, other ≠ execution.requestId →
      link.peer.completedIncoming.get? other = none → peer.completedIncoming.get? other = none) :
    (link.completed index execution peer).Consistent := by
  have isUnreleased := (consistent.running index execution found unfinished).1
  constructor
  case accounted => exact accounted
  case reserved => exact consistent.reserved.of_sameActive same
  case size => exact size
  case bytes => exact bytes
  case active =>
    intro requestId
    simp only [Link.completed, same.activeIncoming, consistent.active requestId]
    constructor
    · rintro ⟨position, active, activeFound, sameId, unreleased⟩
      by_cases own : position = index
      · subst own
        rw [found, Option.some.injEq] at activeFound
        subst activeFound
        exact ⟨position, _, getElem?_set_of_some found, sameId, unreleased⟩
      · exact ⟨position, active, getElem?_set_of_ne activeFound own, sameId, unreleased⟩
    · rintro ⟨position, active, activeFound, sameId, unreleased⟩
      rcases getElem?_set_cases activeFound with ⟨rfl, rfl⟩ | ⟨-, before⟩
      · exact ⟨position, execution, found, sameId, unreleased⟩
      · exact ⟨position, active, before, sameId, unreleased⟩
  case alone =>
    intro first second left right leftFound rightFound sameId leftUnreleased rightUnreleased
    rcases getElem?_set_cases leftFound with ⟨rfl, rfl⟩ | ⟨-, leftBefore⟩ <;>
      rcases getElem?_set_cases rightFound with ⟨rfl, rfl⟩ | ⟨-, rightBefore⟩
    · rfl
    · exact consistent.alone first second execution right found rightBefore sameId leftUnreleased
        rightUnreleased
    · exact consistent.alone first second left execution leftBefore found sameId leftUnreleased
        rightUnreleased
    · exact consistent.alone first second left right leftBefore rightBefore sameId leftUnreleased
        rightUnreleased
  case running =>
    intro position running runningFound runs
    rcases getElem?_set_cases runningFound with ⟨-, rfl⟩ | ⟨different, before⟩
    · cases runs
    · rcases consistent.running position running before runs with ⟨unreleased, absent⟩
      exact ⟨unreleased, others _
        (consistent.other_running found unfinished different before runs) absent⟩

omit found unfinished in
theorem Remembers.completed (remembers : link.Remembers) {peer : Peer Body}
    (others : ∀ other entry, other ≠ execution.requestId → link.now < entry.expiresAt →
      link.peer.completedIncoming.get? other = some entry →
        peer.completedIncoming.get? other = some entry)
    (own : ∃ entry, peer.completedIncoming.get? execution.requestId = some entry ∧
      entry.expiresAt = link.now + completedRequestTtlMs) :
    (link.completed index execution peer).Remembers := by
  intro position finished completedAt finishedFound done
  rcases own with ⟨entry, stored, expires⟩
  rcases getElem?_set_cases finishedFound with ⟨-, rfl⟩ | ⟨different, before⟩
  · rw [Option.some.injEq] at done
    subst done
    exact ⟨le_rfl, fun _ => ⟨entry, stored, expires.ge⟩⟩
  · rcases remembers position finished completedAt before done with ⟨past, kept⟩
    refine ⟨past, fun recent => ?_⟩
    by_cases sameId : finished.requestId = execution.requestId
    · refine ⟨entry, by rw [sameId]; exact stored, ?_⟩
      rw [expires]
      exact Nat.add_le_add_right past _
    · rcases kept recent with ⟨earlier, earlierStored, outlives⟩
      exact ⟨earlier, others _ _ sameId (recent.trans_le outlives) earlierStored, outlives⟩

theorem AtMostOnce.completed (once : link.AtMostOnce) (peer : Peer Body) :
    (link.completed index execution peer).AtMostOnce := by
  intro first second left right before leftFound rightFound same
  rcases getElem?_set_cases leftFound with ⟨rfl, rfl⟩ | ⟨-, leftBefore⟩
  · rcases getElem?_set_cases rightFound with ⟨rfl, -⟩ | ⟨-, rightBefore⟩
    · exact absurd before (lt_irrefl _)
    · rcases once first second execution right before found rightBefore same with
        ⟨completedAt, done, -⟩
      rw [unfinished] at done
      cases done
  · rcases getElem?_set_cases rightFound with ⟨rfl, rfl⟩ | ⟨-, rightBefore⟩
    · exact once first second left execution before leftBefore found same
    · exact once first second left right before leftBefore rightBefore same

end Complete

section Release

variable {index : ℕ} {execution : Execution}

/-- The link after the `finally` block of a handler. -/
def releasedAt (link : Link Body) (index : ℕ) (execution : Execution) : Link Body :=
  { link with
    peer := link.peer.releaseIncomingRequest execution.requestId
    executions := link.executions.set index { execution with released := true } }

variable (found : link.executions[index]? = some execution)

theorem release_completed (peer : Peer Body) (requestId : String) :
    (peer.releaseIncomingRequest requestId).completedIncoming = peer.completedIncoming ∧
      (peer.releaseIncomingRequest requestId).completedIncomingBytes =
        peer.completedIncomingBytes := by
  unfold Peer.releaseIncomingRequest
  split <;> exact ⟨rfl, rfl⟩

theorem get?_release (peer : Peer Body) (requestId other : String) :
    (peer.releaseIncomingRequest requestId).activeIncoming.get? other =
      if other = requestId then none else peer.activeIncoming.get? other := by
  unfold Peer.releaseIncomingRequest
  split
  · rename_i absent
    split
    · rename_i own
      rw [own, absent]
    · rfl
  · exact OrderedMap.get?_erase _ _ _

theorem Reserved.release {peer : Peer Body} (reserved : peer.Reserved) (requestId : String) :
    (peer.releaseIncomingRequest requestId).Reserved := by
  unfold Peer.releaseIncomingRequest
  cases active : peer.activeIncoming.get? requestId with
  | none => exact reserved
  | some requestBytes =>
      have held := reserved.tombstones requestId
      rw [active] at held
      refine ⟨?_, ?_⟩
      · intro other
        simp only [OrderedMap.get?_erase]
        split
        · rfl
        · exact reserved.tombstones other
      · have erased := OrderedMap.total_erase id peer.activeIncomingTombstones held
        simp only [held, reserved.bytes, Option.map_some, Option.getD_some, id_eq] at erased ⊢
        omega

include found

theorem Consistent.releasedAt (consistent : link.Consistent)
    (finished : execution.completedAt ≠ none) (unreleased : execution.released = false) :
    (link.releasedAt index execution).Consistent := by
  rcases release_completed link.peer execution.requestId with ⟨completedSame, bytesSame⟩
  constructor
  case accounted =>
    have accounted := consistent.accounted
    simp only [Peer.Accounted, Link.releasedAt, completedSame, bytesSame] at accounted ⊢
    exact accounted
  case reserved => exact Reserved.release consistent.reserved execution.requestId
  case size =>
    simp only [Link.releasedAt, completedSame]
    exact consistent.size
  case bytes =>
    simp only [Link.releasedAt, bytesSame]
    exact consistent.bytes
  case active =>
    intro requestId
    simp only [Link.releasedAt, get?_release]
    by_cases own : requestId = execution.requestId
    · simp only [own, if_true, Option.isSome_none, Bool.false_eq_true, false_iff]
      rintro ⟨position, other, otherFound, same, otherUnreleased⟩
      rcases getElem?_set_cases otherFound with ⟨-, rfl⟩ | ⟨different, before⟩
      · cases otherUnreleased
      · exact different (consistent.alone position index other execution before found same
          otherUnreleased unreleased)
    · simp only [own, if_false, consistent.active requestId]
      constructor
      · rintro ⟨position, other, otherFound, same, otherUnreleased⟩
        refine ⟨position, other, getElem?_set_of_ne otherFound ?_, same, otherUnreleased⟩
        rintro rfl
        rw [found, Option.some.injEq] at otherFound
        exact own (by rw [← same, otherFound])
      · rintro ⟨position, other, otherFound, same, otherUnreleased⟩
        rcases getElem?_set_cases otherFound with ⟨-, rfl⟩ | ⟨-, before⟩
        · cases otherUnreleased
        · exact ⟨position, other, before, same, otherUnreleased⟩
  case alone =>
    intro first second left right leftFound rightFound same leftUnreleased rightUnreleased
    rcases getElem?_set_cases leftFound with ⟨-, rfl⟩ | ⟨-, leftBefore⟩
    · cases leftUnreleased
    · rcases getElem?_set_cases rightFound with ⟨-, rfl⟩ | ⟨-, rightBefore⟩
      · cases rightUnreleased
      · exact consistent.alone first second left right leftBefore rightBefore same leftUnreleased
          rightUnreleased
  case running =>
    intro position other otherFound unfinished
    simp only [Link.releasedAt, completedSame]
    rcases getElem?_set_cases otherFound with ⟨-, rfl⟩ | ⟨-, before⟩
    · exact absurd unfinished finished
    · exact consistent.running position other before unfinished

theorem Remembers.releasedAt (remembers : link.Remembers) :
    (link.releasedAt index execution).Remembers := by
  rcases release_completed link.peer execution.requestId with ⟨completedSame, -⟩
  intro position other completedAt otherFound completed
  simp only [Link.releasedAt, completedSame]
  rcases getElem?_set_cases otherFound with ⟨rfl, rfl⟩ | ⟨-, before⟩
  · exact remembers position execution completedAt found completed
  · exact remembers position other completedAt before completed

theorem AtMostOnce.releasedAt (once : link.AtMostOnce) :
    (link.releasedAt index execution).AtMostOnce := by
  intro first second left right before leftFound rightFound same
  rcases getElem?_set_cases leftFound with ⟨rfl, rfl⟩ | ⟨-, leftBefore⟩ <;>
    rcases getElem?_set_cases rightFound with ⟨rfl, rfl⟩ | ⟨-, rightBefore⟩
  · exact absurd before (lt_irrefl _)
  · exact once first second execution right before found rightBefore same
  · exact once first second left execution before leftBefore found same
  · exact once first second left right before leftBefore rightBefore same

end Release

section Steps

variable (byteLength : Body → ℕ) {execution : Execution} {index : ℕ} {step : LinkStep Body}

theorem apply_receive_cases (consistent : link.Consistent) (message : Message) (fits : Bool) :
    let pruned := link.withPeer (link.peer.pruneCompletedIncoming link.now)
    (∃ peer, (link.peer.SameIncoming peer ∨ pruned.peer.SameIncoming peer) ∧
      link.apply byteLength (.receive message fits) = link.withPeer peer) ∨
    ∃ requestId requestBytes peer, pruned.peer.activeIncoming.get? requestId = none ∧
      pruned.peer.completedIncoming.get? requestId = none ∧
      (pruned.started requestId requestBytes).peer.SameIncoming peer ∧
      link.apply byteLength (.receive message fits) =
        (pruned.started requestId requestBytes).withPeer peer := by
  simp only [apply]
  rcases Peer.handleMessage_cases consistent.reserved link.now fits message with
    ⟨quiet, same⟩ | ⟨requestId, requestBytes, starts, inactive, absent, same⟩
  · refine .inl ⟨_, same, ?_⟩
    rw [quiet]
    simp [withPeer]
  · refine .inr ⟨requestId, requestBytes, _, inactive, absent, same, ?_⟩
    rw [starts]
    rfl

theorem apply_complete (outcome : Outcome Body) (fits : Bool)
    (found : link.executions[index]? = some execution) :
    ∃ peer, (link.peer.rememberCompleted byteLength link.now execution.requestId
        outcome).SameIncoming peer ∧
      link.apply byteLength (.complete index outcome fits) =
        (link.completed index execution (link.peer.rememberCompleted byteLength link.now
          execution.requestId outcome)).withPeer peer := by
  refine ⟨_, Peer.sameIncoming_sendReply fits (outcome.header execution.requestId) outcome.body, ?_⟩
  simp only [apply, found]
  rfl

theorem apply_release (found : link.executions[index]? = some execution) :
    link.apply byteLength (.release index) = link.releasedAt index execution := by
  simp only [apply, found]
  rfl

theorem Consistent.active_of_running (consistent : link.Consistent)
    (found : link.executions[index]? = some execution) (unfinished : execution.completedAt = none) :
    (link.peer.activeIncoming.get? execution.requestId).isSome = true :=
  (consistent.active execution.requestId).mpr
    ⟨index, execution, found, rfl, (consistent.running index execution found unfinished).1⟩

theorem Consistent.apply (consistent : link.Consistent) (enabled : link.Enabled step) :
    (link.apply byteLength step).Consistent := by
  cases step with
  | receive message fits =>
      rcases apply_receive_cases byteLength consistent message fits with
        ⟨peer, same, applied⟩ | ⟨requestId, requestBytes, peer, inactive, absent, same, applied⟩
      · rw [applied]
        rcases same with same | same
        · exact consistent.of_sameIncoming same
        · exact consistent.prune.of_sameIncoming same
      · rw [applied]
        exact (consistent.prune.started inactive requestBytes absent).of_sameIncoming same
  | complete index outcome fits =>
      rcases enabled with ⟨execution, found, unfinished⟩
      rcases apply_complete byteLength outcome fits found with ⟨peer, same, applied⟩
      have active := consistent.active_of_running found unfinished
      have absent := (consistent.running index execution found unfinished).2
      have pruned := consistent.prune
      rw [applied]
      refine Consistent.of_sameIncoming ?_ same
      by_cases room : link.peer.HasRoom byteLength link.now execution.requestId outcome
      · have remembered := Peer.rememberCompleted_of_room byteLength consistent.accounted
          consistent.reserved active absent room
        refine consistent.completed found unfinished remembered.sameActive remembered.accounted
          remembered.size remembered.bytes ?_
        intro other different missing
        rw [remembered.others other different]
        exact Peer.get?_prune_of_none link.now missing
      · rw [Peer.rememberCompleted_of_full byteLength consistent.reserved active absent room]
        exact consistent.completed found unfinished (Peer.prune_sameActive link.now link.peer)
          pruned.accounted pruned.size pruned.bytes fun other _ => Peer.get?_prune_of_none link.now
  | release index =>
      rcases enabled with ⟨execution, found, finished, unreleased⟩
      rw [apply_release byteLength found]
      exact consistent.releasedAt found finished unreleased
  | request id request => exact consistent.of_sameIncoming ⟨rfl, rfl, rfl, rfl, rfl⟩
  | expire id => exact consistent.of_sameIncoming ⟨rfl, rfl, rfl, rfl, rfl⟩
  | budget incomingBudget => exact consistent.of_sameIncoming ⟨rfl, rfl, rfl, rfl, rfl⟩
  | closed => exact consistent.of_sameIncoming ⟨rfl, rfl, rfl, rfl, rfl⟩
  | tick later =>
      exact ⟨consistent.accounted, consistent.reserved, consistent.size, consistent.bytes,
        consistent.active, consistent.alone, consistent.running⟩

theorem Remembers.apply (remembers : link.Remembers) (once : link.AtMostOnce)
    (consistent : link.Consistent) (enabled : link.Enabled step)
    (room : link.RoomAtCompletion byteLength step) :
    (link.apply byteLength step).Remembers ∧ (link.apply byteLength step).AtMostOnce := by
  cases step with
  | receive message fits =>
      rcases apply_receive_cases byteLength consistent message fits with
        ⟨peer, same, applied⟩ | ⟨requestId, requestBytes, peer, inactive, absent, same, applied⟩
      · rw [applied]
        refine ⟨?_, once⟩
        rcases same with same | same
        · exact remembers.of_sameIncoming same
        · exact remembers.prune.of_sameIncoming same
      · rw [applied]
        have prunedOnce : (link.withPeer
            (link.peer.pruneCompletedIncoming link.now)).AtMostOnce := once
        exact ⟨(remembers.prune.started requestBytes).of_sameIncoming same,
          prunedOnce.started inactive consistent.prune remembers.prune requestBytes absent⟩
  | complete index outcome fits =>
      rcases enabled with ⟨execution, found, unfinished⟩
      rcases apply_complete byteLength outcome fits found with ⟨peer, same, applied⟩
      have remembered := Peer.rememberCompleted_of_room byteLength consistent.accounted
        consistent.reserved (consistent.active_of_running found unfinished)
        (consistent.running index execution found unfinished).2 (room execution found)
      rw [applied]
      refine ⟨Remembers.of_sameIncoming (remembers.completed ?_ remembered.own) same,
        once.completed found unfinished _⟩
      intro other entry different unexpired stored
      rw [remembered.others other different]
      exact (Peer.get?_prune_eq_some_iff _ _ _).mpr ⟨stored, unexpired⟩
  | release index =>
      rcases enabled with ⟨execution, found, finished, unreleased⟩
      rw [apply_release byteLength found]
      exact ⟨remembers.releasedAt found, once.releasedAt found⟩
  | request id request => exact ⟨remembers, once⟩
  | expire id => exact ⟨remembers, once⟩
  | budget incomingBudget => exact ⟨remembers, once⟩
  | closed => exact ⟨remembers, once⟩
  | tick later =>
      refine ⟨?_, once⟩
      intro index execution completedAt found completed
      rcases remembers index execution completedAt found completed with ⟨past, kept⟩
      exact ⟨past.trans enabled, fun recent => kept (lt_of_le_of_lt enabled recent)⟩

theorem consistent_start (incomingBudget : Option IncomingBudget) (now : ℕ) :
    (start incomingBudget now : Link Body).Consistent := by
  constructor
  case accounted => rfl
  case reserved => exact ⟨fun _ => rfl, rfl⟩
  case size => exact Nat.zero_le _
  case bytes => exact Nat.zero_le _
  case active =>
    intro requestId
    refine iff_of_false (by simp [start, Peer.fresh, OrderedMap.get?_empty]) ?_
    rintro ⟨index, execution, found, -⟩
    cases found
  case alone =>
    intro first second execution other found
    cases found
  case running =>
    intro index execution found
    cases found

theorem consistent_of_reachable (reachable : (system byteLength).Reachable link) :
    link.Consistent := by
  refine reachable.invariant Consistent ?_ ?_
  · rintro _ ⟨incomingBudget, now, rfl⟩
    exact consistent_start incomingBudget now
  · rintro before step _ - consistent ⟨enabled, rfl⟩
    exact consistent.apply byteLength enabled

theorem stored_iff_room (consistent : link.Consistent) (outcome : Outcome Body) (fits : Bool)
    (found : link.executions[index]? = some execution) (unfinished : execution.completedAt = none) :
    ((link.apply byteLength (.complete index outcome fits)).peer.completedIncoming.get?
        execution.requestId).isSome = true ↔
      link.peer.HasRoom byteLength link.now execution.requestId outcome := by
  rcases apply_complete byteLength outcome fits found with ⟨peer, same, applied⟩
  have active := consistent.active_of_running found unfinished
  have absent := (consistent.running index execution found unfinished).2
  rw [applied]
  simp only [withPeer, same.completed]
  by_cases room : link.peer.HasRoom byteLength link.now execution.requestId outcome
  · rcases (Peer.rememberCompleted_of_room byteLength consistent.accounted consistent.reserved
      active absent room).own with ⟨entry, stored, -⟩
    simp [stored, room]
  · rw [Peer.rememberCompleted_of_full byteLength consistent.reserved active absent room]
    simp only [room, iff_false, Bool.not_eq_true]
    rw [Option.isSome_eq_false_iff, Option.isNone_iff_eq_none]
    exact Peer.get?_prune_of_none link.now absent

/-- In every run in which there is room whenever a handler completes, no request is executed again
within a minute of its completion. Room is needed: the result of a handler is stored exactly if
there is room for it. -/
theorem executes_at_most_once
    (reachable : ((system byteLength).restrict (RoomAtCompletion byteLength)).Reachable link) :
    link.AtMostOnce ∧ link.Remembers ∧
      link.peer.completedIncoming.size ≤ maxCompletedRequests ∧
      link.peer.completedIncoming.total (·.retainedBytes) ≤ maxCompletedRequestBytes ∧
      ∀ index execution outcome fits, link.executions[index]? = some execution →
        execution.completedAt = none →
          (((link.apply byteLength (.complete index outcome fits)).peer.completedIncoming.get?
              execution.requestId).isSome = true ↔
            link.peer.HasRoom byteLength link.now execution.requestId outcome) := by
  have consistent := consistent_of_reachable byteLength reachable.of_restrict
  have safe : link.Remembers ∧ link.AtMostOnce := by
    refine reachable.invariant (fun link => link.Remembers ∧ link.AtMostOnce) ?_ ?_
    · rintro _ ⟨incomingBudget, now, rfl⟩
      refine ⟨?_, ?_⟩
      · intro index execution completedAt found
        cases found
      · intro first second execution other before found
        cases found
    · rintro before step _ reached ⟨remembers, once⟩ ⟨room, enabled, rfl⟩
      exact remembers.apply byteLength once
        (consistent_of_reachable byteLength reached.of_restrict) enabled room
  refine ⟨safe.2, safe.1, consistent.size, ?_, ?_⟩
  · rw [← show link.peer.completedIncomingBytes = _ from consistent.accounted]
    exact consistent.bytes
  · intro index execution outcome fits found unfinished
    exact stored_iff_room byteLength consistent outcome fits found unfinished

end Steps

section Runs

/-- A request frame of ten bytes. -/
def requestMessage (requestId : String) : Message :=
  ⟨10, some ⟨"invoke", some requestId, none⟩⟩

/-- A response without header members and with a body of the given number of zeros. -/
def zeros (count : ℕ) : Outcome ℕ := .resolved .empty count

/-- The bytes that a response without a body retains. -/
def bareResponseBytes (requestId : String) : ℕ :=
  headerBytes ((zeros 0).header requestId)

/-- The largest response that is kept in full. -/
def largestResponse (requestId : String) : Outcome ℕ :=
  zeros (maxCompletedRequestBytes - completedTombstoneReserveBytes - bareResponseBytes requestId)

/-- Two requests complete before the first `finally` block runs, when only the reserved room is
left; then the second one is retried. -/
def fullCacheSteps : List (LinkStep ℕ) :=
  let reserve := zeros
    (completedTombstoneReserveBytes - tombstoneBytes "y" - bareResponseBytes "z")
  [.receive (requestMessage "z") true, .complete 0 reserve true, .release 0,
    .receive (requestMessage "x") true, .receive (requestMessage "y") true,
    .complete 1 (largestResponse "x") true, .complete 2 (zeros 0) true, .release 1, .release 2,
    .receive (requestMessage "y") true]

/-- The link after both requests and the retry. -/
def fullCacheLink : Link ℕ := fullCacheSteps.foldl (apply id) (start none 0)

theorem fullCacheLink_run :
    TransitionSystem.Follows (apply id) Enabled (start none 0) fullCacheSteps ∧
      fullCacheLink.executions =
        [⟨"z", 0, some 0, true⟩, ⟨"x", 0, some 0, true⟩, ⟨"y", 0, some 0, true⟩,
          ⟨"y", 0, none, false⟩] ∧
      (fullCacheLink.peer.completedIncoming.get? "y").isNone = true ∧ fullCacheLink.now = 0 := by
  decide +kernel

theorem executes_twice :
    (system id).Reachable fullCacheLink ∧ ¬fullCacheLink.AtMostOnce ∧
      ¬fullCacheLink.Remembers := by
  rcases fullCacheLink_run with ⟨follows, executions, forgotten, now⟩
  have initially : (system (id : ℕ → ℕ)).Reachable (start none 0) :=
    TransitionSystem.Reachable.start ⟨none, 0, rfl⟩
  refine ⟨?_, ?_, ?_⟩
  · exact initially.follow (apply id) Enabled (fun _ _ enabled => ⟨enabled, rfl⟩) follows
  · intro once
    rcases once 2 3 ⟨"y", 0, some 0, true⟩ ⟨"y", 0, none, false⟩ (by decide)
      (by rw [executions]; rfl) (by rw [executions]; rfl) rfl with ⟨completedAt, completed, later⟩
    cases completed
    exact absurd later (by decide)
  · intro remembers
    have execution : fullCacheLink.executions[2]? = some ⟨"y", 0, some 0, true⟩ := by
      rw [executions]
      rfl
    rcases (remembers 2 _ 0 execution rfl).2 (by rw [now]; decide) with ⟨entry, stored, -⟩
    rw [stored] at forgotten
    cases forgotten

/-- Two requests that complete one after the other, and a retry of the first. -/
theorem executes_at_most_once_retry :
    let steps : List (LinkStep ℕ) :=
      [.receive (requestMessage "x") true, .receive (requestMessage "y") true,
        .complete 1 (zeros 5) true, .complete 0 (zeros 7) true, .release 1, .release 0,
        .tick 59999, .receive (requestMessage "x") true]
    let link := steps.foldl (apply id) (start none 0)
    link.AtMostOnce ∧ link.executions.length = 2 := by
  intro steps link
  have initially : ((system (id : ℕ → ℕ)).restrict (RoomAtCompletion id)).Reachable
      (start none 0) := TransitionSystem.Reachable.start ⟨none, 0, rfl⟩
  have reachable : ((system id).restrict (RoomAtCompletion id)).Reachable link := by
    refine initially.follow (apply id)
      (fun link step => link.RoomAtCompletion id step ∧ link.Enabled step) ?_ ?_
    · rintro before step ⟨room, enabled⟩
      exact ⟨room, enabled, rfl⟩
    · decide +kernel
  exact ⟨(executes_at_most_once id reachable).1, by decide +kernel⟩

end Runs

end Link

end ServerFoundation.MeshLink
