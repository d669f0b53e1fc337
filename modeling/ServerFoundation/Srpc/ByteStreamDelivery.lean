import ServerFoundation.Data.TransitionSystem
import ServerFoundation.Srpc.ByteStream

/-!
# Delivery of byte streams

What a receiver that reaches its end has been given. Next to an endpoint we keep the operations
of the peer that have arrived for each stream id, and whether the endpoint has ever forgotten
data of that id: bytes had arrived, the finish had not, and neither a receiver nor a pending
receiver was left that holds bytes or an error. A TTL timer can bring this about, and so can the
destruction of a receiver.
-/

namespace ServerFoundation.Srpc

/-- What the peer sends on a stream id. -/
inductive PeerOperation where
  | write (chunk : Chunk)
  | finish
  | destroy
deriving DecidableEq

namespace PeerOperation

/-- The bytes that an operation carries. -/
def bytes : PeerOperation → List UInt8
  | write chunk => chunk
  | finish => []
  | destroy => []

/-- The bytes of all writes, in order. -/
def written (operations : List PeerOperation) : List UInt8 := operations.flatMap bytes

/-- Writes, and at most one finish after them. -/
def Orderly (operations : List PeerOperation) : Prop :=
  ∃ chunks : List Chunk, operations = chunks.map write ∨ operations = chunks.map write ++ [finish]

theorem written_append (operations : List PeerOperation) (operation : PeerOperation) :
    written (operations ++ [operation]) = written operations ++ operation.bytes := by
  simp [written]

theorem written_writes_finish (chunks : List Chunk) :
    written (chunks.map write ++ [finish]) = chunks.flatten := by
  simp [written, List.flatMap_map, bytes]

theorem finish_not_mem_writes (chunks : List Chunk) : finish ∉ chunks.map write := by
  simp

theorem Orderly.of_append {operations : List PeerOperation} {operation : PeerOperation}
    (orderly : Orderly (operations ++ [operation])) :
    Orderly operations ∧ finish ∉ operations ∧ operation ≠ destroy := by
  rcases orderly with ⟨chunks, onlyWrites | finished⟩
  · cases chunks using List.reverseRecOn with
    | nil => simp at onlyWrites
    | append_singleton init last _ =>
        rw [List.map_append, List.map_singleton] at onlyWrites
        rcases List.append_inj' onlyWrites rfl with ⟨rfl, sameLast⟩
        cases sameLast
        exact ⟨⟨init, Or.inl rfl⟩, finish_not_mem_writes init, by simp⟩
  · rcases List.append_inj' finished rfl with ⟨rfl, sameLast⟩
    cases sameLast
    exact ⟨⟨chunks, Or.inl rfl⟩, finish_not_mem_writes chunks, by simp⟩

end PeerOperation

/-- The operation of the peer that an event is, with its stream id. -/
def ByteStreamEvent.peerOperation : ByteStreamEvent → Option (ℕ × PeerOperation)
  | .write id chunk => some (id, .write chunk)
  | .finish id => some (id, .finish)
  | .destroy id _ _ => some (id, .destroy)
  | _ => none

/-- The stream id that a call of `createReceiver` attaches to. -/
def ByteStreamEvent.attachedId : ByteStreamEvent → Option ℕ
  | .createReceiver id _ => some id
  | _ => none

/-- Whether a stream id still has bytes, or an error in place of lost bytes. -/
def holdsData (receiver : Option Receiver) (pending : Option PendingReceiver) : Bool :=
  (receiver.any fun receiver => !receiver.destroyed && receiver.pushed.flatten ≠ []) ||
    pending.any fun pending => pending.destroyed || pending.chunks.flatten ≠ []

/-- The endpoint holds data of an id. -/
def Endpoint.holds (endpoint : Endpoint) (id : ℕ) : Bool :=
  holdsData (endpoint.info.receivers.get? id) (endpoint.info.pendingReceivers.get? id)

/-- A receiver of a stream id has ended without an error: its consumer has seen the end or will. -/
def Endpoint.EndsCleanly (endpoint : Endpoint) (id : ℕ) (receiver : Receiver) : Prop :=
  (id, receiver) ∈ endpoint.completed ∨
    (endpoint.info.receivers.get? id = some receiver ∧ receiver.ended = true ∧
      receiver.destroyed = false)

/-- An endpoint with the operations that have arrived and the ids whose data was forgotten. -/
structure ByteStreamHistory where
  endpoint : Endpoint
  arrived : ℕ → List PeerOperation
  forgotten : ℕ → Bool

namespace ByteStreamHistory

open PeerOperation

variable (remoteSenderIdParity : Option ℕ)

/-- Nothing has arrived. -/
def initial : ByteStreamHistory := ⟨.initial, fun _ => [], fun _ => false⟩

/-- The operations that have arrived after an event; nothing arrives on a closed transport. -/
def arrivals (history : ByteStreamHistory) (event : ByteStreamEvent) : ℕ → List PeerOperation :=
  if history.endpoint.closed then history.arrived
  else
    match event.peerOperation with
    | some (id, operation) =>
        Function.update history.arrived id (history.arrived id ++ [operation])
    | none => history.arrived

/-- An event, and what is remembered of it. -/
def advance (history : ByteStreamHistory) (event : ByteStreamEvent) : ByteStreamHistory :=
  let endpoint := history.endpoint.handle remoteSenderIdParity event
  let arrived := history.arrivals event
  { endpoint
    arrived
    forgotten id := history.forgotten id ||
      (written (arrived id) ≠ [] && finish ∉ arrived id && !endpoint.holds id) }

/-- All runs of an endpoint, under every order of events. -/
def system : TransitionSystem ByteStreamHistory ByteStreamEvent where
  Init history := history = initial
  Step before event after := after = before.advance remoteSenderIdParity event

/-- No receiver attaches to a stream whose data has been forgotten. -/
def AttachesInTime (history : ByteStreamHistory) (event : ByteStreamEvent) : Prop :=
  ∀ id ∈ event.attachedId, history.forgotten id = false

instance AttachesInTime.decidable : DecidableRel AttachesInTime := fun history event =>
  inferInstanceAs (Decidable (∀ id ∈ event.attachedId, history.forgotten id = false))

end ByteStreamHistory

section Slots

open PeerOperation

/-- After orderly operations, an undestroyed receiver or pending receiver that has ended, or may
still end, has everything that was written. -/
structure SlotIntact (operations : List PeerOperation) (forgotten : Bool)
    (receiver : Option Receiver) (pending : Option PendingReceiver) : Prop where
  exclusive : receiver ≠ none → pending = none
  finishedLive : ∀ live, receiver = some live → live.destroyed = false →
    live.remoteFinished = live.ended ∧ (live.ended = true → finish ∈ operations)
  pushedAll : ∀ live, receiver = some live → live.destroyed = false →
    live.ended = true ∨ finish ∉ operations → live.pushed.flatten = written operations
  finishedWaiting : ∀ waiting, pending = some waiting → waiting.destroyed = false →
    waiting.finished = true → finish ∈ operations
  bufferedAll : ∀ waiting, pending = some waiting → waiting.destroyed = false →
    forgotten = false → waiting.finished = true ∨ finish ∉ operations →
    waiting.chunks.flatten = written operations

/-- Bytes that arrived before the finish are held unless they were forgotten. -/
def Remembers (operations : List PeerOperation) (forgotten : Bool) (receiver : Option Receiver)
    (pending : Option PendingReceiver) : Prop :=
  forgotten = false → finish ∉ operations → written operations ≠ [] →
    holdsData receiver pending = true

namespace SlotIntact

variable {operations : List PeerOperation} {forgotten : Bool} {receiver : Option Receiver}
  {pending : Option PendingReceiver} {live : Receiver} {waiting : PendingReceiver}

theorem vacant : SlotIntact operations forgotten none none where
  exclusive absent := absurd rfl absent
  finishedLive live isLive := by cases isLive
  pushedAll live isLive := by cases isLive
  finishedWaiting waiting isWaiting := by cases isWaiting
  bufferedAll waiting isWaiting := by cases isWaiting

theorem of_destroyed {dead : Receiver} (destroyed : dead.destroyed = true)
    (noPending : pending = none) : SlotIntact operations forgotten (some dead) pending where
  exclusive _ := noPending
  finishedLive live isLive alive := by
    cases isLive
    rw [destroyed] at alive
    cases alive
  pushedAll live isLive alive := by
    cases isLive
    rw [destroyed] at alive
    cases alive
  finishedWaiting waiting isWaiting := by
    rw [noPending] at isWaiting
    cases isWaiting
  bufferedAll waiting isWaiting := by
    rw [noPending] at isWaiting
    cases isWaiting

theorem of_ended {ended : Option Receiver}
    (destroyed : (∃ dead, dead.destroyed = true ∧ ended = some dead) ∨ ended = none) :
    SlotIntact operations forgotten ended none := by
  rcases destroyed with ⟨dead, isDestroyed, rfl⟩ | rfl
  · exact of_destroyed isDestroyed rfl
  · exact vacant

theorem of_live (finished : live.remoteFinished = live.ended)
    (endedFinish : live.ended = true → finish ∈ operations)
    (all : live.ended = true ∨ finish ∉ operations → live.pushed.flatten = written operations) :
    SlotIntact operations forgotten (some live) none where
  exclusive _ := rfl
  finishedLive other isOther _ := by
    cases isOther
    exact ⟨finished, endedFinish⟩
  pushedAll other isOther _ := by
    cases isOther
    exact all
  finishedWaiting waiting isWaiting := by cases isWaiting
  bufferedAll waiting isWaiting := by cases isWaiting

theorem of_waiting
    (finishedFinish : waiting.destroyed = false → waiting.finished = true → finish ∈ operations)
    (all : waiting.destroyed = false → forgotten = false →
      waiting.finished = true ∨ finish ∉ operations →
        waiting.chunks.flatten = written operations) :
    SlotIntact operations forgotten none (some waiting) where
  exclusive absent := absurd rfl absent
  finishedLive live isLive := by cases isLive
  pushedAll live isLive := by cases isLive
  finishedWaiting other isOther alive := by
    cases isOther
    exact finishedFinish alive
  bufferedAll other isOther alive := by
    cases isOther
    exact all alive

theorem of_retained {retained : PendingReceiver} (destroyed : retained.destroyed = true) :
    SlotIntact operations forgotten none (some retained) := by
  apply of_waiting
  · intro alive
    cases alive.symm.trans destroyed
  · intro alive
    cases alive.symm.trans destroyed

theorem forget {later : Bool} (intact : SlotIntact operations forgotten receiver pending)
    (sticky : later = false → forgotten = false) :
    SlotIntact operations later receiver pending where
  exclusive := intact.exclusive
  finishedLive := intact.finishedLive
  pushedAll := intact.pushedAll
  finishedWaiting := intact.finishedWaiting
  bufferedAll waiting isWaiting alive notForgotten :=
    intact.bufferedAll waiting isWaiting alive (sticky notForgotten)

theorem push (intact : SlotIntact operations forgotten (some live) pending)
    (notFinished : finish ∉ operations) (chunk : Chunk) :
    SlotIntact (operations ++ [.write chunk]) forgotten (some (live.push chunk)) pending := by
  have noPending := intact.exclusive (by simp)
  cases destroyed : live.destroyed with
  | true =>
      apply of_destroyed _ noPending
      simp [Receiver.push, destroyed]
  | false =>
      rcases intact.finishedLive live rfl destroyed with ⟨finished, endedFinish⟩
      have all := intact.pushedAll live rfl destroyed (Or.inr notFinished)
      rw [noPending]
      simp only [Receiver.push, destroyed, Bool.false_eq_true, if_false]
      refine of_live finished ?_ ?_
      · intro ended
        exact absurd (endedFinish ended) notFinished
      · intro _
        rw [written_append, ← all]
        simp [bytes]

theorem finishLive (intact : SlotIntact operations forgotten (some live) pending)
    (notFinished : finish ∉ operations) :
    SlotIntact (operations ++ [.finish]) forgotten (some live.finish) pending := by
  have noPending := intact.exclusive (by simp)
  cases destroyed : live.destroyed with
  | true => exact of_destroyed destroyed noPending
  | false =>
      have all := intact.pushedAll live rfl destroyed (Or.inr notFinished)
      rw [noPending]
      apply of_live rfl
      · simp
      · intro _
        rw [written_append, ← all]
        simp [bytes, Receiver.finish]

section

variable (intact : SlotIntact operations forgotten none pending)
include intact

section

variable (remembers : Remembers operations forgotten none pending) {after : PendingReceiver}
include remembers

theorem required (notFinished : finish ∉ operations) (isRequired : waiting = pending.getD .fresh)
    (alive : waiting.destroyed = false) :
    waiting.finished = false ∧
      (forgotten = false → waiting.chunks.flatten = written operations) := by
  cases pending with
  | none =>
      rw [isRequired]
      refine ⟨rfl, ?_⟩
      intro notForgotten
      by_contra missing
      have held := remembers notForgotten notFinished fun empty => missing (by rw [empty]; rfl)
      simp [holdsData] at held
  | some stored =>
      simp only [Option.getD_some] at isRequired
      subst isRequired
      refine ⟨?_, fun notForgotten =>
        intact.bufferedAll waiting rfl alive notForgotten (Or.inr notFinished)⟩
      cases finished : waiting.finished with
      | false => rfl
      | true => exact absurd (intact.finishedWaiting waiting rfl alive finished) notFinished

theorem buffer (notFinished : finish ∉ operations) {chunk : Chunk}
    (isRequired : waiting = pending.getD .fresh) (buffered : after.destroyed = false →
      waiting.destroyed = false ∧ after.finished = waiting.finished ∧
        after.chunks = waiting.chunks ++ [chunk]) :
    SlotIntact (operations ++ [.write chunk]) forgotten none (some after) := by
  apply of_waiting
  · intro alive isFinished
    rcases buffered alive with ⟨waitingAlive, sameFinished, _⟩
    have unfinished := (intact.required remembers notFinished isRequired waitingAlive).1
    rw [sameFinished, unfinished] at isFinished
    cases isFinished
  · intro alive notForgotten _
    rcases buffered alive with ⟨waitingAlive, _, chunks⟩
    have all := (intact.required remembers notFinished isRequired waitingAlive).2 notForgotten
    rw [chunks, written_append, ← all]
    simp [bytes]

theorem finishWaiting (notFinished : finish ∉ operations)
    (isRequired : waiting = pending.getD .fresh) (marked : after.destroyed = false →
      waiting.destroyed = false ∧ after.chunks = waiting.chunks) :
    SlotIntact (operations ++ [.finish]) forgotten none (some after) := by
  apply of_waiting
  · intro _ _
    simp
  · intro alive notForgotten _
    rcases marked alive with ⟨waitingAlive, chunks⟩
    have all := (intact.required remembers notFinished isRequired waitingAlive).2 notForgotten
    rw [chunks, written_append, ← all]
    simp [bytes]

theorem attach (notForgotten : forgotten = false) :
    SlotIntact operations forgotten (flushedReceiver pending) none := by
  cases pending with
  | none =>
      refine of_live rfl (by simp [Receiver.fresh]) ?_
      intro mayEnd
      by_contra missing
      have notFinished : finish ∉ operations := by simpa [Receiver.fresh] using mayEnd
      have held := remembers notForgotten notFinished fun empty => missing (by rw [empty]; rfl)
      simp [holdsData] at held
  | some waiting =>
      cases destroyed : waiting.destroyed with
      | true =>
          simp only [flushedReceiver, destroyed, if_true]
          exact vacant
      | false =>
          have finishedWaiting := intact.finishedWaiting waiting rfl destroyed
          have all := intact.bufferedAll waiting rfl destroyed notForgotten
          simp only [flushedReceiver, destroyed, Bool.false_eq_true, if_false]
          cases finished : waiting.finished with
          | true =>
              refine of_live rfl (fun _ => finishedWaiting finished) ?_
              intro _
              exact all (Or.inl finished)
          | false =>
              refine of_live rfl (by simp [Receiver.fresh]) ?_
              intro mayEnd
              exact all (Or.inr (by simpa [Receiver.fresh] using mayEnd))

end

end

theorem filterDestroyed (intact : SlotIntact operations forgotten receiver pending) :
    SlotIntact operations forgotten (receiver.filter Receiver.destroyed) pending := by
  cases receiver with
  | none => exact intact
  | some live =>
      have noPending := intact.exclusive (by simp)
      cases destroyed : live.destroyed with
      | true =>
          simp only [Option.filter_some, destroyed, if_true]
          exact of_destroyed destroyed noPending
      | false =>
          simp only [Option.filter_some, destroyed, Bool.false_eq_true, if_false, noPending]
          exact vacant

theorem dropReceiver (intact : SlotIntact operations forgotten (some live) pending) :
    SlotIntact operations forgotten none pending := by
  rw [intact.exclusive (by simp)]
  exact vacant

theorem dropPending (intact : SlotIntact operations forgotten receiver pending) :
    SlotIntact operations forgotten receiver none where
  exclusive _ := rfl
  finishedLive := intact.finishedLive
  pushedAll := intact.pushedAll
  finishedWaiting waiting isWaiting := by cases isWaiting
  bufferedAll waiting isWaiting := by cases isWaiting

end SlotIntact

end Slots

/-- The stream id that an event is about. -/
def ByteStreamEvent.streamId : ByteStreamEvent → Option ℕ
  | .write id _ => some id
  | .finish id => some id
  | .destroy id _ _ => some id
  | .exceedCapacity id _ => some id
  | .createReceiver id _ => some id
  | .destroyReceiver id _ => some id
  | .destroySettled id => some id
  | .readToEnd id => some id
  | .expire id => some id
  | .createSender id _ => some id
  | .closeSender id _ => some id
  | .disconnect => none

namespace Endpoint

open ByteStreamInfo

variable {info : ByteStreamInfo}

/-- What an event leaves of a stream id that it is not about; a receiver can be lost with the
transport. -/
structure Undisturbed (id : ℕ) (before after : Endpoint) : Prop where
  receiver : after.info.receivers.get? id = before.info.receivers.get? id ∨
    after.info.receivers.get? id = (before.info.receivers.get? id).filter Receiver.destroyed
  pending : after.info.pendingReceivers.get? id = before.info.pendingReceivers.get? id
  completed : ∀ receiver, (id, receiver) ∈ after.completed → (id, receiver) ∈ before.completed

variable {endpoint : Endpoint} {id other : ℕ}

theorem Undisturbed.refl : Undisturbed id endpoint endpoint :=
  ⟨Or.inl rfl, rfl, fun _ isCompleted => isCompleted⟩

theorem Undisturbed.of_entries (receivers : info.receivers = endpoint.info.receivers)
    (pending : info.pendingReceivers = endpoint.info.pendingReceivers) :
    Undisturbed id endpoint { endpoint with info } where
  receiver := Or.inl (by simp only [receivers])
  pending := by simp only [pending]
  completed _ isCompleted := isCompleted

theorem Undisturbed.of_onlyAt (only : OnlyAt other endpoint.info info) (differ : id ≠ other) :
    Undisturbed id endpoint { endpoint with info } where
  receiver := Or.inl (only.receivers id differ)
  pending := only.pending id differ
  completed _ isCompleted := isCompleted

theorem disconnect_undisturbed (endpoint : Endpoint) (id : ℕ) :
    Undisturbed id endpoint endpoint.disconnect where
  receiver := Or.inr (OrderedMap.get?_filter _ _ _)
  pending := rfl
  completed _ isCompleted := isCompleted

theorem peerOperation_undisturbed {outcome : Option ByteStreamInfo} (differ : id ≠ other)
    (only : ∀ info, outcome = some info → OnlyAt other endpoint.info info) :
    Undisturbed id endpoint (endpoint.peerOperation outcome) := by
  cases outcome with
  | none => exact endpoint.disconnect_undisturbed id
  | some info => exact Undisturbed.of_onlyAt (only info rfl) differ

theorem destroyReceiver_undisturbed (differ : id ≠ other) (error : Option String) :
    Undisturbed id endpoint (endpoint.destroyReceiver other error) := by
  simp only [destroyReceiver]
  split
  · exact Undisturbed.of_onlyAt (endpoint.info.destroyReceiver_onlyAt other _ error) differ
  · exact Undisturbed.refl

theorem destroySettled_undisturbed (differ : id ≠ other) :
    Undisturbed id endpoint (endpoint.destroySettled other) := by
  simp only [destroySettled]
  split
  · split
    · exact Undisturbed.of_onlyAt (endpoint.info.cleanup_onlyAt other) differ
    · exact Undisturbed.refl
  · exact Undisturbed.refl

theorem readToEnd_undisturbed (differ : id ≠ other) :
    Undisturbed id endpoint (endpoint.readToEnd other) := by
  simp only [readToEnd]
  split
  · split
    · have only := endpoint.info.cleanup_onlyAt other
      refine ⟨Or.inl (only.receivers id differ), only.pending id differ, ?_⟩
      intro receiver isCompleted
      simpa [differ] using isCompleted
    · exact Undisturbed.refl
  · exact Undisturbed.refl

theorem createSender_undisturbed (remoteSenderIdParity : Option ℕ) (now : ℤ) :
    Undisturbed id endpoint (endpoint.createSender remoteSenderIdParity now other) := by
  simp only [createSender]
  split
  · exact Undisturbed.refl
  · split
    · exact Undisturbed.of_entries rfl rfl
    · split
      · exact Undisturbed.of_entries rfl rfl
      · exact Undisturbed.of_entries rfl rfl

theorem closeSender_undisturbed (terminalUntil : Option ℤ) :
    Undisturbed id endpoint (endpoint.closeSender other terminalUntil) := by
  simp only [closeSender]
  split
  · exact Undisturbed.of_entries rfl rfl
  · exact Undisturbed.refl

theorem handle_undisturbed (remoteSenderIdParity : Option ℕ) {event : ByteStreamEvent}
    (elsewhere : event.streamId ≠ some id) :
    Undisturbed id endpoint (endpoint.handle remoteSenderIdParity event) := by
  have differ : ∀ {other}, event.streamId = some other → id ≠ other := by
    rintro other about rfl
    exact elsewhere about
  have unlessClosed : ∀ after, Undisturbed id endpoint after →
      Undisturbed id endpoint (if endpoint.closed then endpoint else after) := by
    intro after undisturbed
    split
    · exact Undisturbed.refl
    · exact undisturbed
  cases event with
  | write other chunk =>
      apply unlessClosed
      exact peerOperation_undisturbed (differ rfl) fun _ => writeReceiver_onlyAt
  | finish other =>
      apply unlessClosed
      exact peerOperation_undisturbed (differ rfl) fun _ => finishReceiver_onlyAt
  | destroy other error now =>
      apply unlessClosed
      exact peerOperation_undisturbed (differ rfl) fun _ => receiveDestroy_onlyAt
  | exceedCapacity other now =>
      apply unlessClosed
      exact peerOperation_undisturbed (differ rfl) fun _ => receiveDestroy_onlyAt
  | createReceiver other now =>
      apply unlessClosed
      exact Undisturbed.of_onlyAt (endpoint.info.createReceiver_onlyAt _ _ other) (differ rfl)
  | destroyReceiver other error => exact destroyReceiver_undisturbed (differ rfl) error
  | destroySettled other => exact destroySettled_undisturbed (differ rfl)
  | readToEnd other => exact readToEnd_undisturbed (differ rfl)
  | expire other =>
      exact Undisturbed.of_onlyAt (endpoint.info.expirePending_onlyAt other) (differ rfl)
  | createSender other now =>
      apply unlessClosed
      exact createSender_undisturbed remoteSenderIdParity now
  | closeSender other terminalUntil => exact closeSender_undisturbed terminalUntil
  | disconnect => exact endpoint.disconnect_undisturbed id

end Endpoint

section Delivery

open PeerOperation ByteStreamInfo

/-- What an endpoint has made of the orderly operations of a stream id: its entries are intact, and
a receiver that was read to its end was given everything. -/
structure Delivers (operations : List PeerOperation) (forgotten : Bool) (endpoint : Endpoint)
    (id : ℕ) : Prop where
  intact : SlotIntact operations forgotten (endpoint.info.receivers.get? id)
    (endpoint.info.pendingReceivers.get? id)
  completedAll : ∀ receiver, (id, receiver) ∈ endpoint.completed →
    finish ∈ operations ∧ receiver.pushed.flatten = written operations

namespace Delivers

variable {operations : List PeerOperation} {forgotten : Bool} {endpoint : Endpoint} {id : ℕ}

section

variable (delivers : Delivers operations forgotten endpoint id) {operation : PeerOperation}
  {error : Option String} {receiver : Receiver}
include delivers

theorem undisturbed {after : Endpoint} (undisturbed : Endpoint.Undisturbed id endpoint after) :
    Delivers operations forgotten after id where
  intact := by
    rw [undisturbed.pending]
    rcases undisturbed.receiver with same | filtered
    · rw [same]
      exact delivers.intact
    · rw [filtered]
      exact delivers.intact.filterDestroyed
  completedAll receiver isCompleted :=
    delivers.completedAll receiver (undisturbed.completed receiver isCompleted)

theorem of_intact {info : ByteStreamInfo}
    (intact : SlotIntact operations forgotten (info.receivers.get? id)
      (info.pendingReceivers.get? id)) : Delivers operations forgotten { endpoint with info } id :=
  ⟨intact, delivers.completedAll⟩

theorem of_intact_append {after : Endpoint} (notFinished : finish ∉ operations)
    (sameCompleted : after.completed = endpoint.completed)
    (intact : SlotIntact (operations ++ [operation]) forgotten (after.info.receivers.get? id)
      (after.info.pendingReceivers.get? id)) :
    Delivers (operations ++ [operation]) forgotten after id where
  intact := intact
  completedAll receiver isCompleted := by
    rw [sameCompleted] at isCompleted
    exact absurd (delivers.completedAll receiver isCompleted).1 notFinished

theorem disconnect_append (notFinished : finish ∉ operations)
    (noReceiver : endpoint.info.receivers.get? id = none)
    (noPending : endpoint.info.pendingReceivers.get? id = none) :
    Delivers (operations ++ [operation]) forgotten endpoint.disconnect id := by
  refine delivers.of_intact_append notFinished rfl ?_
  have noneLeft : endpoint.disconnect.info.receivers.get? id = none := by
    simp only [Endpoint.disconnect, OrderedMap.get?_filter, noReceiver, Option.filter_none]
  have nonePending : endpoint.disconnect.info.pendingReceivers.get? id = none := noPending
  rw [noneLeft, nonePending]
  exact SlotIntact.vacant

theorem write {chunk : Chunk}
    (remembers : Remembers operations forgotten (endpoint.info.receivers.get? id)
      (endpoint.info.pendingReceivers.get? id)) (notFinished : finish ∉ operations) :
    Delivers (operations ++ [.write chunk]) forgotten
      (endpoint.peerOperation (endpoint.info.writeReceiver id chunk)) id := by
  have intact := delivers.intact
  cases outcome : endpoint.info.writeReceiver id chunk with
  | none =>
      rcases writeReceiver_eq_none outcome with ⟨noReceiver, noPending⟩
      exact delivers.disconnect_append notFinished noReceiver noPending
  | some info =>
      refine delivers.of_intact_append notFinished rfl ?_
      simp only [Endpoint.peerOperation]
      rcases writeReceiver_cases outcome with ⟨receiver, found, finished, rfl⟩ |
        ⟨receiver, found, _, rfl⟩ | ⟨absent, replacement, replaces, buffered⟩
      · rw [found] at intact
        rw [destroyReceiver_pending, intact.exclusive (by simp)]
        exact SlotIntact.of_ended (endpoint.info.destroyReceiver_receiver id receiver none)
      · rw [found] at intact
        simp only [setReceiver_receiver, if_true, setReceiver_pending]
        exact intact.push notFinished chunk
      · rw [absent] at intact remembers
        rw [replaces.receivers, replaces.pending, absent, if_pos rfl]
        exact intact.buffer remembers notFinished rfl buffered

theorem finish (remembers : Remembers operations forgotten (endpoint.info.receivers.get? id)
      (endpoint.info.pendingReceivers.get? id)) (notFinished : .finish ∉ operations) :
    Delivers (operations ++ [.finish]) forgotten
      (endpoint.peerOperation (endpoint.info.finishReceiver id)) id := by
  have intact := delivers.intact
  cases outcome : endpoint.info.finishReceiver id with
  | none =>
      rcases finishReceiver_eq_none outcome with ⟨noReceiver, noPending⟩
      exact delivers.disconnect_append notFinished noReceiver noPending
  | some info =>
      refine delivers.of_intact_append notFinished rfl ?_
      simp only [Endpoint.peerOperation]
      rcases finishReceiver_cases outcome with ⟨receiver, found, rfl⟩ |
        ⟨absent, replacement, replaces, marked⟩
      · rw [found] at intact
        simp only [setReceiver_receiver, if_true, setReceiver_pending]
        exact intact.finishLive notFinished
      · rw [absent] at intact remembers
        rw [replaces.receivers, replaces.pending, absent, if_pos rfl]
        exact intact.finishWaiting remembers notFinished rfl marked

theorem receiveDestroy {now : ℤ} :
    Delivers operations forgotten
      (endpoint.peerOperation (endpoint.info.receiveDestroy now id error)) id := by
  have intact := delivers.intact
  cases outcome : endpoint.info.receiveDestroy now id error with
  | none => exact delivers.undisturbed (endpoint.disconnect_undisturbed id)
  | some info =>
      refine delivers.of_intact ?_
      rcases receiveDestroy_cases outcome with ⟨attached, receiver, reason, rfl⟩ |
        ⟨receivers, pending⟩ | ⟨absent, retained, destroyed, replaces⟩
      · have noPending : (endpoint.info.pruneTerminalSenders now).pendingReceivers.get? id = none :=
          intact.exclusive attached
        rw [destroyReceiver_pending, noPending]
        exact SlotIntact.of_ended (destroyReceiver_receiver _ id receiver reason)
      · rw [receivers, pending]
        exact intact
      · rw [replaces.receivers, replaces.pending, absent, if_pos rfl]
        exact SlotIntact.of_retained destroyed

theorem createReceiver {remoteSenderIdParity : Option ℕ} {now : ℤ}
    (remembers : Remembers operations forgotten (endpoint.info.receivers.get? id)
      (endpoint.info.pendingReceivers.get? id)) (notForgotten : forgotten = false) :
    Delivers operations forgotten
      { endpoint with info := endpoint.info.createReceiver remoteSenderIdParity now id } id := by
  have intact := delivers.intact
  refine delivers.of_intact ?_
  rcases endpoint.info.createReceiver_cases remoteSenderIdParity now id with
    ⟨receivers, pending⟩ | ⟨absent, attached⟩
  · rw [receivers, pending]
    exact intact
  · rw [absent] at intact remembers
    rw [attached, flushPendingReceiver_receiver, flushPendingReceiver_pending]
    exact intact.attach remembers notForgotten

theorem destroyReceiver : Delivers operations forgotten (endpoint.destroyReceiver id error) id := by
  have intact := delivers.intact
  simp only [Endpoint.destroyReceiver]
  split
  · rename_i receiver found
    rw [found] at intact
    refine delivers.of_intact ?_
    rw [destroyReceiver_pending, intact.exclusive (by simp)]
    exact SlotIntact.of_ended (endpoint.info.destroyReceiver_receiver id receiver error)
  · exact delivers

theorem cleanup (found : endpoint.info.receivers.get? id = some receiver) :
    SlotIntact operations forgotten ((endpoint.info.cleanup id).receivers.get? id)
      ((endpoint.info.cleanup id).pendingReceivers.get? id) := by
  have intact := delivers.intact
  rw [found] at intact
  simp only [cleanup_receiver, if_true, cleanup_pending]
  exact intact.dropReceiver

theorem destroySettled : Delivers operations forgotten (endpoint.destroySettled id) id := by
  simp only [Endpoint.destroySettled]
  split
  · rename_i receiver found
    split
    · exact delivers.of_intact (delivers.cleanup found)
    · exact delivers
  · exact delivers

theorem readToEnd : Delivers operations forgotten (endpoint.readToEnd id) id := by
  simp only [Endpoint.readToEnd]
  split
  · rename_i receiver found
    split
    · rename_i ending
      rcases ending with ⟨ended, notDestroyed⟩
      have alive : receiver.destroyed = false := by simpa using notDestroyed
      have finished := (delivers.intact.finishedLive receiver found alive).2 ended
      have all := delivers.intact.pushedAll receiver found alive (Or.inl ended)
      refine ⟨delivers.cleanup found, ?_⟩
      intro other isCompleted
      simp only [List.mem_append, List.mem_singleton, Prod.mk.injEq, true_and] at isCompleted
      rcases isCompleted with earlier | rfl
      · exact delivers.completedAll other earlier
      · exact ⟨finished, all⟩
    · exact delivers
  · exact delivers

theorem expire :
    Delivers operations forgotten { endpoint with info := endpoint.info.expirePending id } id := by
  refine delivers.of_intact ?_
  rw [expirePending_receivers, expirePending_pending, if_pos rfl]
  exact delivers.intact.dropPending

theorem endsCleanly (endsCleanly : endpoint.EndsCleanly id receiver) :
    .finish ∈ operations ∧ receiver.pushed.flatten = written operations := by
  rcases endsCleanly with isCompleted | ⟨found, ended, alive⟩
  · exact delivers.completedAll receiver isCompleted
  · exact ⟨(delivers.intact.finishedLive receiver found alive).2 ended,
      delivers.intact.pushedAll receiver found alive (Or.inl ended)⟩

end

end Delivers

end Delivery

namespace ByteStreamHistory

open PeerOperation

variable {remoteSenderIdParity : Option ℕ} {history : ByteStreamHistory} {event : ByteStreamEvent}
  {id : ℕ}

theorem arrivals_elsewhere (elsewhere : ∀ operation, event.peerOperation ≠ some (id, operation)) :
    history.arrivals event id = history.arrived id := by
  simp only [arrivals]
  split
  · rfl
  · cases isOperation : event.peerOperation with
    | none => rfl
    | some arrival =>
        rcases arrival with ⟨other, operation⟩
        have differ : id ≠ other := by
          rintro rfl
          exact elsewhere operation isOperation
        exact Function.update_of_ne differ _ _

/-- What holds of a stream id whose operations have been orderly so far. -/
def Intact (history : ByteStreamHistory) (id : ℕ) : Prop :=
  Orderly (history.arrived id) →
    Delivers (history.arrived id) (history.forgotten id) history.endpoint id ∧
      Remembers (history.arrived id) (history.forgotten id)
        (history.endpoint.info.receivers.get? id) (history.endpoint.info.pendingReceivers.get? id)

theorem delivers_peerOperation {operation : PeerOperation} (intact : history.Intact id)
    (isOperation : event.peerOperation = some (id, operation))
    (orderly : Orderly (history.arrivals event id)) :
    Delivers (history.arrivals event id) (history.forgotten id)
      (history.endpoint.handle remoteSenderIdParity event) id := by
  cases closed : history.endpoint.closed with
  | true =>
      have arrivals : history.arrivals event = history.arrived := by
        simp [ByteStreamHistory.arrivals, closed]
      have unchanged : history.endpoint.handle remoteSenderIdParity event = history.endpoint := by
        cases event <;> cases isOperation <;> simp [Endpoint.handle, closed]
      rw [arrivals] at orderly ⊢
      rw [unchanged]
      exact (intact orderly).1
  | false =>
      have arrivals : history.arrivals event id = history.arrived id ++ [operation] := by
        simp [ByteStreamHistory.arrivals, closed, isOperation]
      rw [arrivals] at orderly ⊢
      rcases orderly.of_append with ⟨before, notFinished, notDestroy⟩
      rcases intact before with ⟨delivers, remembers⟩
      cases operation with
      | write chunk =>
          have isWrite : event = .write id chunk := by
            cases event <;> cases isOperation
            rfl
          rw [isWrite]
          simp only [Endpoint.handle, closed, Bool.false_eq_true, if_false]
          exact delivers.write remembers notFinished
      | finish =>
          have isFinish : event = .finish id := by
            cases event <;> cases isOperation
            rfl
          rw [isFinish]
          simp only [Endpoint.handle, closed, Bool.false_eq_true, if_false]
          exact delivers.finish remembers notFinished
      | destroy => exact absurd rfl notDestroy

theorem delivers_localEvent (intact : history.Intact id)
    (elsewhere : ∀ operation, event.peerOperation ≠ some (id, operation))
    (inTime : AttachesInTime history event) (orderly : Orderly (history.arrived id)) :
    Delivers (history.arrived id) (history.forgotten id)
      (history.endpoint.handle remoteSenderIdParity event) id := by
  rcases intact orderly with ⟨delivers, remembers⟩
  have unlessClosed : ∀ {after}, Delivers (history.arrived id) (history.forgotten id) after id →
      Delivers (history.arrived id) (history.forgotten id)
        (if history.endpoint.closed then history.endpoint else after) id := by
    intro after delivered
    split
    · exact delivers
    · exact delivered
  by_cases about : event.streamId = some id
  · cases event with
    | write other chunk =>
        cases about
        exact absurd rfl (elsewhere (.write chunk))
    | finish other =>
        cases about
        exact absurd rfl (elsewhere .finish)
    | destroy other error now =>
        cases about
        exact absurd rfl (elsewhere .destroy)
    | exceedCapacity other now =>
        cases about
        exact unlessClosed delivers.receiveDestroy
    | createReceiver other now =>
        cases about
        exact unlessClosed (delivers.createReceiver remembers (inTime id rfl))
    | destroyReceiver other error =>
        cases about
        exact delivers.destroyReceiver
    | destroySettled other =>
        cases about
        exact delivers.destroySettled
    | readToEnd other =>
        cases about
        exact delivers.readToEnd
    | expire other =>
        cases about
        exact delivers.expire
    | createSender other now =>
        cases about
        exact unlessClosed (delivers.undisturbed (Endpoint.createSender_undisturbed _ now))
    | closeSender other terminalUntil =>
        cases about
        exact delivers.undisturbed (Endpoint.closeSender_undisturbed terminalUntil)
    | disconnect => cases about
  · exact delivers.undisturbed (Endpoint.handle_undisturbed remoteSenderIdParity about)

theorem advance_remembers (history : ByteStreamHistory) (event : ByteStreamEvent) (id : ℕ) :
    let after := history.advance remoteSenderIdParity event
    Remembers (after.arrived id) (after.forgotten id) (after.endpoint.info.receivers.get? id)
      (after.endpoint.info.pendingReceivers.get? id) := by
  intro after notForgotten notFinished someWritten
  have forgets := (Bool.or_eq_false_iff.mp notForgotten).2
  simp only [Bool.and_eq_false_iff, decide_eq_false_iff_not, Bool.not_eq_false'] at forgets
  rcases forgets with (nothingWritten | finished) | held
  · exact absurd someWritten nothingWritten
  · exact absurd notFinished finished
  · exact held

theorem advance_intact (intact : history.Intact id) (inTime : AttachesInTime history event) :
    (history.advance remoteSenderIdParity event).Intact id := by
  intro orderly
  have delivers : Delivers (history.arrivals event id) (history.forgotten id)
      (history.endpoint.handle remoteSenderIdParity event) id := by
    by_cases isOperation : ∃ operation, event.peerOperation = some (id, operation)
    · rcases isOperation with ⟨operation, isOperation⟩
      exact delivers_peerOperation intact isOperation orderly
    · have elsewhere : ∀ operation, event.peerOperation ≠ some (id, operation) :=
        fun operation isOperation' => isOperation ⟨operation, isOperation'⟩
      have unchanged : history.arrivals event id = history.arrived id :=
        arrivals_elsewhere elsewhere
      have stays : Orderly (history.arrivals event id) := orderly
      rw [unchanged] at stays ⊢
      exact delivers_localEvent intact elsewhere inTime stays
  have sticky : (history.advance remoteSenderIdParity event).forgotten id = false →
      history.forgotten id = false := by
    intro notForgotten
    exact (Bool.or_eq_false_iff.mp notForgotten).1
  exact ⟨⟨delivers.intact.forget sticky, delivers.completedAll⟩,
    history.advance_remembers event id⟩

theorem initial_intact (id : ℕ) : initial.Intact id := by
  intro _
  refine ⟨⟨SlotIntact.vacant, ?_⟩, ?_⟩
  · intro receiver isCompleted
    cases isCompleted
  · intro _ _ someWritten
    exact absurd rfl someWritten

theorem reachable_intact
    (reachable : ((system remoteSenderIdParity).restrict AttachesInTime).Reachable history)
    (id : ℕ) : history.Intact id := by
  refine reachable.invariant (fun history => ∀ id, history.Intact id) ?_ ?_ id
  · rintro _ rfl
    exact initial_intact
  · rintro before event _ _ intact ⟨inTime, rfl⟩ id
    exact advance_intact (intact id) inTime

/-- A receiver that ends without an error has been given all that the peer wrote before its
finish, in order and once. -/
def DeliversWhole (history : ByteStreamHistory) (id : ℕ) : Prop :=
  ∀ (chunks : List Chunk) (receiver : Receiver),
    history.arrived id = chunks.map .write ∨
      history.arrived id = chunks.map .write ++ [.finish] →
    history.endpoint.EndsCleanly id receiver →
    history.arrived id = chunks.map .write ++ [.finish] ∧ receiver.pushed.flatten = chunks.flatten

theorem orderly_streams_delivered_whole
    (reachable : ((system remoteSenderIdParity).restrict AttachesInTime).Reachable history)
    (id : ℕ) : history.DeliversWhole id := by
  intro chunks receiver orderly endsCleanly
  rcases reachable_intact reachable id ⟨chunks, orderly⟩ with ⟨delivers, _⟩
  rcases delivers.endsCleanly endsCleanly with ⟨finished, all⟩
  rcases orderly with onlyWrites | finishes
  · rw [onlyWrites] at finished
    exact absurd finished (finish_not_mem_writes chunks)
  · refine ⟨finishes, ?_⟩
    rw [all, finishes, written_writes_finish]

/-- A receiver attaches after the first write. -/
def lateAttachRun : List ByteStreamEvent :=
  [.write 1 [97], .createReceiver 1 0, .write 1 [98], .finish 1, .readToEnd 1]

/-- Bytes that arrive before and after the attachment reach the end of the stream. -/
theorem delivered_whole_at_late_attach : ∃ history : ByteStreamHistory,
    ((system (some 1)).restrict AttachesInTime).Reachable history ∧
      history.endpoint.EndsCleanly 1 ⟨[[97], [98]], true, true, false, false, none⟩ ∧
      history.DeliversWhole 1 := by
  have evaluated :
      TransitionSystem.Follows (advance (some 1)) AttachesInTime initial lateAttachRun ∧
        (lateAttachRun.foldl (advance (some 1)) initial).endpoint.completed =
          [(1, ⟨[[97], [98]], true, true, false, false, none⟩)] := by decide +kernel
  rcases evaluated with ⟨follows, completed⟩
  have started : ((system (some 1)).restrict AttachesInTime).Reachable initial := .start rfl
  have reached := started.follow _ _ (fun _ _ inTime => ⟨inTime, rfl⟩) follows
  refine ⟨_, reached, Or.inl ?_, orderly_streams_delivered_whole reached 1⟩
  rw [completed]
  exact List.mem_singleton.mpr rfl

/-- A receiver attaches after the timer has fired. -/
def expiredRun : List ByteStreamEvent :=
  [.write 1 [97], .expire 1, .write 1 [98], .finish 1, .createReceiver 1 0, .readToEnd 1]

/-- A TTL timer discards the first chunk of a stream whose receiver attaches later and ends without
an error. -/
theorem not_delivered_whole_after_expiry :
    ¬∀ history : ByteStreamHistory, (system (some 1)).Reachable history →
      ∀ id, history.DeliversWhole id := by
  intro claimed
  have evaluated :
      TransitionSystem.Follows (advance (some 1)) (fun _ _ => True) initial expiredRun ∧
        (expiredRun.foldl (advance (some 1)) initial).arrived 1 =
          [[97], [98]].map .write ++ [.finish] ∧
        (expiredRun.foldl (advance (some 1)) initial).endpoint.completed =
          [(1, ⟨[[98]], true, true, false, false, none⟩)] := by decide +kernel
  rcases evaluated with ⟨follows, arrived, completed⟩
  have started : (system (some 1)).Reachable initial := .start rfl
  have reached := started.follow _ _ (fun _ _ _ => rfl) follows
  have endsCleanly : (expiredRun.foldl (advance (some 1)) initial).endpoint.EndsCleanly 1
      ⟨[[98]], true, true, false, false, none⟩ := by
    left
    rw [completed]
    exact List.mem_singleton.mpr rfl
  have whole := claimed _ reached 1 [[97], [98]] _ (Or.inr arrived) endsCleanly
  exact absurd whole.2 (by decide)

end ByteStreamHistory

end ServerFoundation.Srpc
