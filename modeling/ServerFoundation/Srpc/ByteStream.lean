import Mathlib.Data.Finset.Insert
import Mathlib.Data.Finset.Erase
import ServerFoundation.Data.OrderedMap

/-!
# Multiplexed byte streams

The receiving side of `SrpcByteStream` on one transport. Operations of the peer
reach the receiver that is attached for their stream id, or else a pending
receiver that is created on demand, bounded in bytes and in number, deleted when
its TTL timer fires and flushed into the receiver that attaches later.

A receiver is modelled by what is pushed into it and by how it ends. Reading it is
left to its consumer: the event `readToEnd` is the consumer reaching the end of
the stream. Destroying a receiver removes it from the transport at once when the
peer caused it or had finished, and otherwise after the destroy message to the
peer has settled.
-/

namespace ServerFoundation.Srpc

/-- The bytes of one write. -/
abbrev Chunk := List UInt8

/-- A receiving `SrpcByteStream`. -/
structure Receiver where
  pushed : List Chunk
  ended : Bool
  remoteFinished : Bool
  remotelyDestroyed : Bool
  destroyed : Bool
  error : Option String
deriving DecidableEq

namespace Receiver

/-- A receiver as its constructor leaves it. -/
def fresh : Receiver := ⟨[], false, false, false, false, none⟩

/-- `push(chunk)`, which a destroyed stream ignores. -/
def push (receiver : Receiver) (chunk : Chunk) : Receiver :=
  if receiver.destroyed then receiver
  else { receiver with pushed := receiver.pushed ++ [chunk] }

/-- `remoteFinished = true` and `push(null)`. -/
def finish (receiver : Receiver) : Receiver :=
  { receiver with remoteFinished := true, ended := true }

end Receiver

/-- `IPendingReceiver`. -/
structure PendingReceiver where
  chunks : List Chunk
  bytes : ℕ
  errorBytes : ℕ
  finished : Bool
  destroyed : Bool
  destroyedError : Option String
deriving DecidableEq

/-- An empty pending receiver. -/
def PendingReceiver.fresh : PendingReceiver := ⟨[], 0, 0, false, false, none⟩

section Limits

/-- Bytes of one pending receiver. -/
def pendingReceiverMaxBytes : ℕ := 2 * 1024 * 1024

/-- Bytes of the chunks of all pending receivers. -/
def pendingReceiverMaxChunkTotalBytes : ℕ := 2 * 1024 * 1024

/-- The number of pending receivers. -/
def pendingReceiverMaxCount : ℕ := 1024

/-- The greatest id of a stream. -/
def maxByteStreamId : ℕ := 0x7fffffff

/-- Bytes of the error of a pending receiver. -/
def pendingDestroyErrorMaxBytes : ℕ := 1024

/-- Bytes of all pending receivers, errors included. -/
def pendingReceiverMaxTotalBytes : ℕ :=
  pendingReceiverMaxChunkTotalBytes + pendingReceiverMaxCount * pendingDestroyErrorMaxBytes

/-- The number of senders that are remembered. -/
def terminalSenderMaxCount : ℕ := 65536

end Limits

section TruncateUtf8

/-- The number of bytes of a text. -/
def utf8Size (chars : List Char) : ℕ := (chars.map Char.utf8Size).sum

/-- The characters that fit into the first bytes of a text, and a replacement character for one that
is cut. -/
def decodePrefix (maxBytes : ℕ) : List Char → List Char
  | [] => []
  | char :: rest =>
      if char.utf8Size ≤ maxBytes then char :: decodePrefix (maxBytes - char.utf8Size) rest
      else if maxBytes = 0 then [] else [Char.ofNat 0xFFFD]

/-- The loop `while (Buffer.byteLength(truncated) > maxBytes) truncated = truncated.slice(0, -1)`
on the reversed text. -/
def dropUntilFits (maxBytes : ℕ) : List Char → List Char
  | [] => []
  | last :: rest =>
      if maxBytes < utf8Size (last :: rest) then dropUntilFits maxBytes rest else last :: rest

/-- `truncateUtf8`. -/
def truncateUtf8 (value : String) (maxBytes : ℕ) : String :=
  if maxBytes = 0 then ""
  else if utf8Size value.toList ≤ maxBytes then value
  else
    String.ofList (dropUntilFits maxBytes (decodePrefix maxBytes value.toList).reverse).reverse

end TruncateUtf8

/-- `IByteStreamInfo`: the byte streams of one transport. -/
structure ByteStreamInfo where
  receivers : OrderedMap ℕ Receiver
  senders : Finset ℕ
  pendingReceivers : OrderedMap ℕ PendingReceiver
  pendingReceiverBytes : ℕ
  pendingReceiverChunkBytes : ℕ
  terminalSenders : OrderedMap ℕ ℤ

namespace ByteStreamInfo

/-- A transport without streams. -/
def empty : ByteStreamInfo := ⟨.empty, ∅, .empty, 0, 0, .empty⟩

/-- The receiver of an id is replaced. -/
def setReceiver (info : ByteStreamInfo) (id : ℕ) (receiver : Receiver) : ByteStreamInfo :=
  { info with receivers := info.receivers.set id receiver }

/-- `cleanup` of a receiver that owns its entry. -/
def cleanup (info : ByteStreamInfo) (id : ℕ) : ByteStreamInfo :=
  { info with receivers := info.receivers.erase id }

/-- The pending receiver of an id is replaced. -/
def setPending (info : ByteStreamInfo) (id : ℕ) (pending : PendingReceiver) : ByteStreamInfo :=
  { info with pendingReceivers := info.pendingReceivers.set id pending }

/-- `receiver.destroy(error)`: the entry stays until the destroy message has settled unless there is
none to send. -/
def destroyReceiver (info : ByteStreamInfo) (id : ℕ) (receiver : Receiver)
    (error : Option String) : ByteStreamInfo :=
  if receiver.destroyed then info.setReceiver id receiver
  else if receiver.remotelyDestroyed ∨ receiver.remoteFinished then info.cleanup id
  else info.setReceiver id { receiver with destroyed := true, error }

/-- The counters without the bytes that a pending receiver holds. -/
def releasePendingReceiverBytes (info : ByteStreamInfo) (pending : PendingReceiver) :
    ByteStreamInfo :=
  { info with
    pendingReceiverBytes := info.pendingReceiverBytes - pending.bytes - pending.errorBytes
    pendingReceiverChunkBytes := info.pendingReceiverChunkBytes - pending.bytes }

/-- `deletePendingReceiver`. -/
def deletePendingReceiver (info : ByteStreamInfo) (id : ℕ) (pending : PendingReceiver) :
    ByteStreamInfo :=
  let info := info.releasePendingReceiverBytes pending
  { info with pendingReceivers := info.pendingReceivers.erase id }

/-- `requirePendingReceiver`: none when there are too many, which the source reports by throwing. -/
def requirePendingReceiver (info : ByteStreamInfo) (id : ℕ) : Option PendingReceiver :=
  match info.pendingReceivers.get? id with
  | some pending => some pending
  | none =>
      if pendingReceiverMaxCount ≤ info.pendingReceivers.size then none else some .fresh

/-- Turn a pending receiver into a retained destroy, with as much of its error as fits. -/
def retainPendingDestroy (info : ByteStreamInfo) (id : ℕ) (pending : PendingReceiver)
    (error : Option String) : ByteStreamInfo :=
  let info := info.releasePendingReceiverBytes pending
  let pending := { pending with
    chunks := [], bytes := 0, errorBytes := 0, destroyed := true, destroyedError := none }
  match error with
  | none => info.setPending id pending
  | some message =>
      let availableBytes := min pendingDestroyErrorMaxBytes
        (pendingReceiverMaxTotalBytes - info.pendingReceiverBytes)
      let message := truncateUtf8 message availableBytes
      let errorBytes := utf8Size message.toList
      { info.setPending id { pending with destroyedError := some message, errorBytes } with
        pendingReceiverBytes := info.pendingReceiverBytes + errorBytes }

/-- Whether one more chunk would exceed a limit of pending data. -/
def exceedsLimits (info : ByteStreamInfo) (pending : PendingReceiver) (chunk : Chunk) : Bool :=
  pendingReceiverMaxBytes < pending.bytes + chunk.length ∨
    pendingReceiverMaxChunkTotalBytes < info.pendingReceiverChunkBytes + chunk.length ∨
    pendingReceiverMaxTotalBytes < info.pendingReceiverBytes + chunk.length

/-- The error of a write that follows the finish. -/
def afterFinishMessage (id : ℕ) : String :=
  "SRPC byte stream " ++ Nat.repr id ++ " received data after finish"

/-- The branch of `writeReceiver` without an attached receiver. -/
def writePending (info : ByteStreamInfo) (id : ℕ) (pending : PendingReceiver) (chunk : Chunk) :
    ByteStreamInfo :=
  if pending.destroyed then info.setPending id pending
  else if pending.finished then info.retainPendingDestroy id pending (some (afterFinishMessage id))
  else if info.exceedsLimits pending chunk then
    info.retainPendingDestroy id pending (some "Pending receiver exceeded max buffered bytes")
  else
    { info.setPending id { pending with
        chunks := pending.chunks ++ [chunk], bytes := pending.bytes + chunk.length } with
      pendingReceiverChunkBytes := info.pendingReceiverChunkBytes + chunk.length
      pendingReceiverBytes := info.pendingReceiverBytes + chunk.length }

/-- `writeReceiver`; none when the source throws. The abort of a write after the finish passes its
error on only when the stream has an error listener. -/
def writeReceiver (info : ByteStreamInfo) (id : ℕ) (chunk : Chunk) : Option ByteStreamInfo :=
  match info.receivers.get? id with
  | some receiver =>
      if receiver.remoteFinished then some (info.destroyReceiver id receiver none)
      else some (info.setReceiver id (receiver.push chunk))
  | none =>
      (info.requirePendingReceiver id).map fun pending => info.writePending id pending chunk

/-- `finishReceiver`; none when the source throws. -/
def finishReceiver (info : ByteStreamInfo) (id : ℕ) : Option ByteStreamInfo :=
  match info.receivers.get? id with
  | some receiver => some (info.setReceiver id receiver.finish)
  | none =>
      (info.requirePendingReceiver id).map fun pending =>
        if pending.destroyed then info.setPending id pending
        else info.setPending id { pending with finished := true }

/-- `destroySubstream`; none when the source throws. A destroyed sender leaves the table. -/
def destroySubstream (info : ByteStreamInfo) (id : ℕ) (error : Option String) :
    Option ByteStreamInfo :=
  let error := error.map fun message => truncateUtf8 message pendingDestroyErrorMaxBytes
  match info.receivers.get? id with
  | some receiver =>
      some (info.destroyReceiver id { receiver with remotelyDestroyed := true } error)
  | none =>
      if id ∈ info.senders then some { info with senders := info.senders.erase id }
      else
        (info.requirePendingReceiver id).map fun pending =>
          info.retainPendingDestroy id pending error

/-- `pruneTerminalSenders`. -/
def pruneTerminalSenders (info : ByteStreamInfo) (now : ℤ) : ByteStreamInfo :=
  { info with terminalSenders := info.terminalSenders.filter fun expiresAt => now < expiresAt }

/-- The destroy branch of the handlers of peer operations: a destroy that belongs to a sender
that has just finished is consumed. -/
def receiveDestroy (info : ByteStreamInfo) (now : ℤ) (id : ℕ) (error : Option String) :
    Option ByteStreamInfo :=
  let info := info.pruneTerminalSenders now
  if (info.terminalSenders.get? id).isSome then
    some { info with terminalSenders := info.terminalSenders.erase id }
  else info.destroySubstream id error

/-- `flushPendingReceiver` on a receiver that was just attached. -/
def flushPendingReceiver (info : ByteStreamInfo) (id : ℕ) : ByteStreamInfo :=
  match info.pendingReceivers.get? id with
  | none => info.setReceiver id .fresh
  | some pending =>
      let info := info.deletePendingReceiver id pending
      if pending.destroyed then
        info.destroyReceiver id { Receiver.fresh with remotelyDestroyed := true }
          pending.destroyedError
      else
        let receiver := { Receiver.fresh with pushed := pending.chunks }
        info.setReceiver id (if pending.finished then receiver.finish else receiver)

/-- `createReceiver`; a call that throws attaches nothing. -/
def createReceiver (info : ByteStreamInfo) (remoteSenderIdParity : Option ℕ) (now : ℤ) (id : ℕ) :
    ByteStreamInfo :=
  if id = 0 ∨ maxByteStreamId < id then info
  else
    let info := info.pruneTerminalSenders now
    if ∃ parity ∈ remoteSenderIdParity, id % 2 ≠ parity then info
    else if id ∈ info.senders ∨ (info.terminalSenders.get? id).isSome ∨
        (info.receivers.get? id).isSome then info
    else info.flushPendingReceiver id

/-- The TTL timer of a pending receiver. -/
def expirePending (info : ByteStreamInfo) (id : ℕ) : ByteStreamInfo :=
  match info.pendingReceivers.get? id with
  | some pending => info.deletePendingReceiver id pending
  | none => info

end ByteStreamInfo

/-- One endpoint of a transport, with the receivers whose consumers have seen the end. -/
structure Endpoint where
  info : ByteStreamInfo
  closed : Bool
  completed : List (ℕ × Receiver)

/-- Operations of the peer, giving up a stream that holds too much, calls of the application, timers
and the loss of the transport. -/
inductive ByteStreamEvent where
  | write (id : ℕ) (chunk : Chunk)
  | finish (id : ℕ)
  | destroy (id : ℕ) (error : Option String) (now : ℤ)
  | exceedCapacity (id : ℕ) (now : ℤ)
  | createReceiver (id : ℕ) (now : ℤ)
  | destroyReceiver (id : ℕ) (error : Option String)
  | destroySettled (id : ℕ)
  | readToEnd (id : ℕ)
  | expire (id : ℕ)
  | createSender (id : ℕ) (now : ℤ)
  | closeSender (id : ℕ) (terminalUntil : Option ℤ)
  | disconnect
deriving DecidableEq

/-- The error of a stream that the endpoint gives up. -/
def capacityMessage : String := "Remote sRPC byte stream receiver capacity exceeded"

namespace Endpoint

/-- A transport that has not been used. -/
def initial : Endpoint := ⟨.empty, false, []⟩

/-- The transport is gone: every stream that is not destroyed yet is, and leaves its table. -/
def disconnect (endpoint : Endpoint) : Endpoint :=
  { endpoint with
    closed := true
    info := { endpoint.info with
      receivers := endpoint.info.receivers.filter Receiver.destroyed
      senders := ∅ } }

/-- An operation of the peer; the transport is fenced when it throws. -/
def peerOperation (endpoint : Endpoint) (outcome : Option ByteStreamInfo) : Endpoint :=
  match outcome with
  | some info => { endpoint with info }
  | none => endpoint.disconnect

/-- The consumer of a receiver reads everything and sees the end, which releases the entry. -/
def readToEnd (endpoint : Endpoint) (id : ℕ) : Endpoint :=
  match endpoint.info.receivers.get? id with
  | some receiver =>
      if receiver.ended ∧ ¬receiver.destroyed then
        { endpoint with
          info := endpoint.info.cleanup id
          completed := endpoint.completed ++ [(id, receiver)] }
      else endpoint
  | none => endpoint

/-- The application, or a pressure limit of the endpoint, destroys a receiver. -/
def destroyReceiver (endpoint : Endpoint) (id : ℕ) (error : Option String) : Endpoint :=
  match endpoint.info.receivers.get? id with
  | some receiver =>
      { endpoint with info := endpoint.info.destroyReceiver id receiver error }
  | none => endpoint

/-- The destroy message of a destroyed receiver has settled. -/
def destroySettled (endpoint : Endpoint) (id : ℕ) : Endpoint :=
  match endpoint.info.receivers.get? id with
  | some receiver =>
      if receiver.destroyed then { endpoint with info := endpoint.info.cleanup id } else endpoint
  | none => endpoint

/-- A sender with an allocated id; its constructor throws when the id is taken or the peer's. -/
def createSender (endpoint : Endpoint) (remoteSenderIdParity : Option ℕ) (now : ℤ) (id : ℕ) :
    Endpoint :=
  if id = 0 ∨ maxByteStreamId < id then endpoint
  else
    let info := endpoint.info.pruneTerminalSenders now
    if terminalSenderMaxCount ≤ info.terminalSenders.size then { endpoint with info }
    else if id ∈ info.senders ∨ (info.receivers.get? id).isSome ∨
        (info.pendingReceivers.get? id).isSome ∨ (info.terminalSenders.get? id).isSome ∨
        ∃ parity ∈ remoteSenderIdParity, id % 2 = parity then { endpoint with info }
    else { endpoint with info := { info with senders := insert id info.senders } }

/-- A sender leaves its table; one that finished is remembered for a while. -/
def closeSender (endpoint : Endpoint) (id : ℕ) (terminalUntil : Option ℤ) : Endpoint :=
  if id ∈ endpoint.info.senders then
    { endpoint with info := { endpoint.info with
        senders := endpoint.info.senders.erase id
        terminalSenders :=
          match terminalUntil with
          | some expiresAt => endpoint.info.terminalSenders.set id expiresAt
          | none => endpoint.info.terminalSenders } }
  else endpoint

variable (remoteSenderIdParity : Option ℕ)

/-- Nothing arrives and nothing attaches on a transport that is gone. -/
def handle (endpoint : Endpoint) : ByteStreamEvent → Endpoint
  | .write id chunk =>
      if endpoint.closed then endpoint
      else endpoint.peerOperation (endpoint.info.writeReceiver id chunk)
  | .finish id =>
      if endpoint.closed then endpoint
      else endpoint.peerOperation (endpoint.info.finishReceiver id)
  | .destroy id error now =>
      if endpoint.closed then endpoint
      else endpoint.peerOperation (endpoint.info.receiveDestroy now id error)
  | .exceedCapacity id now =>
      if endpoint.closed then endpoint
      else endpoint.peerOperation (endpoint.info.receiveDestroy now id (some capacityMessage))
  | .createReceiver id now =>
      if endpoint.closed then endpoint
      else { endpoint with info := endpoint.info.createReceiver remoteSenderIdParity now id }
  | .destroyReceiver id error => endpoint.destroyReceiver id error
  | .destroySettled id => endpoint.destroySettled id
  | .readToEnd id => endpoint.readToEnd id
  | .expire id => { endpoint with info := endpoint.info.expirePending id }
  | .createSender id now =>
      if endpoint.closed then endpoint
      else endpoint.createSender remoteSenderIdParity now id
  | .closeSender id terminalUntil => endpoint.closeSender id terminalUntil
  | .disconnect => endpoint.disconnect

end Endpoint

/-- The receiver that `flushPendingReceiver` leaves attached, by what was pending. -/
def flushedReceiver : Option PendingReceiver → Option Receiver
  | none => some .fresh
  | some pending =>
      if pending.destroyed then none
      else
        let receiver := { Receiver.fresh with pushed := pending.chunks }
        some (if pending.finished then receiver.finish else receiver)

namespace ByteStreamInfo

section Entries

variable (info : ByteStreamInfo) (id other : ℕ) (receiver : Receiver) (pending : PendingReceiver)
  {before after : ByteStreamInfo} (error : Option String)

@[simp]
theorem setReceiver_receiver :
    (info.setReceiver id receiver).receivers.get? other =
      if other = id then some receiver else info.receivers.get? other :=
  OrderedMap.get?_set _ _ _ _

@[simp]
theorem setReceiver_pending :
    (info.setReceiver id receiver).pendingReceivers = info.pendingReceivers := rfl

@[simp]
theorem cleanup_receiver : (info.cleanup id).receivers.get? other =
    if other = id then none else info.receivers.get? other :=
  OrderedMap.get?_erase _ _ _

@[simp]
theorem cleanup_pending : (info.cleanup id).pendingReceivers = info.pendingReceivers := rfl

@[simp]
theorem deletePendingReceiver_pending :
    (info.deletePendingReceiver id pending).pendingReceivers.get? other =
      if other = id then none else info.pendingReceivers.get? other :=
  OrderedMap.get?_erase _ _ _

theorem eq_getD_of_requirePendingReceiver {pending : PendingReceiver}
    (isRequired : info.requirePendingReceiver id = some pending) :
    pending = (info.pendingReceivers.get? id).getD .fresh := by
  simp only [requirePendingReceiver] at isRequired
  cases found : info.pendingReceivers.get? id with
  | some stored =>
      rw [found] at isRequired
      cases isRequired
      rfl
  | none =>
      rw [found] at isRequired
      simp only at isRequired
      split at isRequired
      · cases isRequired
      · cases isRequired
        rfl

theorem requirePendingReceiver_eq_none (refused : info.requirePendingReceiver id = none) :
    info.pendingReceivers.get? id = none := by
  simp only [requirePendingReceiver] at refused
  split at refused
  · cases refused
  · rename_i absent
    exact absent

/-- The operations of one id leave the entries of the others alone. -/
structure OnlyAt (before after : ByteStreamInfo) : Prop where
  receivers : ∀ other, other ≠ id → after.receivers.get? other = before.receivers.get? other
  pending : ∀ other, other ≠ id →
    after.pendingReceivers.get? other = before.pendingReceivers.get? other

theorem OnlyAt.trans {id : ℕ} {middle : ByteStreamInfo} (first : OnlyAt id before middle)
    (second : OnlyAt id middle after) :
    OnlyAt id before after where
  receivers other differ := (second.receivers other differ).trans (first.receivers other differ)
  pending other differ := (second.pending other differ).trans (first.pending other differ)

theorem OnlyAt.of_entries {id : ℕ} (receivers : after.receivers = before.receivers)
    (pending : after.pendingReceivers = before.pendingReceivers) : OnlyAt id before after where
  receivers _ _ := by rw [receivers]
  pending _ _ := by rw [pending]

theorem setReceiver_onlyAt :
    OnlyAt id info (info.setReceiver id receiver) where
  receivers other differ := by simp [differ]
  pending _ _ := rfl

theorem cleanup_onlyAt : OnlyAt id info (info.cleanup id) where
  receivers other differ := by simp [differ]
  pending _ _ := rfl

theorem destroyReceiver_onlyAt : OnlyAt id info (info.destroyReceiver id receiver error) := by
  simp only [destroyReceiver]
  split
  · exact info.setReceiver_onlyAt id _
  · split
    · exact info.cleanup_onlyAt id
    · exact info.setReceiver_onlyAt id _

theorem destroyReceiver_receiver :
    (∃ dead, dead.destroyed = true ∧
        (info.destroyReceiver id receiver error).receivers.get? id = some dead) ∨
      (info.destroyReceiver id receiver error).receivers.get? id = none := by
  simp only [destroyReceiver]
  split
  · rename_i destroyed
    exact Or.inl ⟨receiver, destroyed, by simp⟩
  · split
    · exact Or.inr (by simp)
    · exact Or.inl ⟨{ receiver with destroyed := true, error }, rfl, by simp⟩

theorem destroyReceiver_pending :
    (info.destroyReceiver id receiver error).pendingReceivers = info.pendingReceivers := by
  simp only [destroyReceiver]
  split
  · rfl
  · split <;> rfl

/-- An operation that only replaces the pending receiver of its id. -/
structure ReplacesPending (before : ByteStreamInfo) (replacement : PendingReceiver)
    (after : ByteStreamInfo) : Prop where
  receivers : after.receivers = before.receivers
  pending : ∀ other, after.pendingReceivers.get? other =
    if other = id then some replacement else before.pendingReceivers.get? other

theorem ReplacesPending.onlyAt {replacement : PendingReceiver} {id : ℕ}
    (replaces : ReplacesPending id before replacement after) : OnlyAt id before after where
  receivers other _ := by rw [replaces.receivers]
  pending other differ := by rw [replaces.pending, if_neg differ]

theorem setPending_replaces : ReplacesPending id info pending (info.setPending id pending) :=
  ⟨rfl, fun _ => OrderedMap.get?_set _ _ _ _⟩

theorem retainPendingDestroy_replaces :
    ∃ retained, retained.destroyed = true ∧
      ReplacesPending id info retained (info.retainPendingDestroy id pending error) := by
  cases error with
  | none => exact ⟨_, rfl, rfl, fun _ => OrderedMap.get?_set _ _ _ _⟩
  | some message => exact ⟨_, rfl, rfl, fun _ => OrderedMap.get?_set _ _ _ _⟩

theorem writePending_replaces (chunk : Chunk) :
    ∃ after, ReplacesPending id info after (info.writePending id pending chunk) ∧
      (after.destroyed = false → pending.destroyed = false ∧
        after.finished = pending.finished ∧ after.chunks = pending.chunks ++ [chunk]) := by
  have retained := fun error => info.retainPendingDestroy_replaces id pending error
  have whenDestroyed : ∀ {after : PendingReceiver}, after.destroyed = true →
      after.destroyed = false → pending.destroyed = false ∧
        after.finished = pending.finished ∧ after.chunks = pending.chunks ++ [chunk] := by
    intro after destroyed alive
    rw [destroyed] at alive
    cases alive
  simp only [writePending]
  split
  · rename_i destroyed
    exact ⟨pending, info.setPending_replaces id pending, whenDestroyed destroyed⟩
  · rename_i alive
    split
    · rcases retained (some (afterFinishMessage id)) with ⟨after, destroyed, replaces⟩
      exact ⟨after, replaces, whenDestroyed destroyed⟩
    · split
      · rcases retained (some "Pending receiver exceeded max buffered bytes") with
          ⟨after, destroyed, replaces⟩
        exact ⟨after, replaces, whenDestroyed destroyed⟩
      · exact ⟨_, ⟨rfl, fun _ => OrderedMap.get?_set _ _ _ _⟩,
          fun _ => ⟨by simpa using alive, rfl, rfl⟩⟩

end Entries

section Operations

variable {info after : ByteStreamInfo} {id : ℕ} {chunk : Chunk} {error : Option String}

theorem writeReceiver_cases (written : info.writeReceiver id chunk = some after) :
    (∃ receiver, info.receivers.get? id = some receiver ∧ receiver.remoteFinished = true ∧
        after = info.destroyReceiver id receiver none) ∨
      (∃ receiver, info.receivers.get? id = some receiver ∧ receiver.remoteFinished = false ∧
        after = info.setReceiver id (receiver.push chunk)) ∨
      (info.receivers.get? id = none ∧ ∃ replacement, ReplacesPending id info replacement after ∧
        (replacement.destroyed = false →
          ((info.pendingReceivers.get? id).getD .fresh).destroyed = false ∧
          replacement.finished = ((info.pendingReceivers.get? id).getD .fresh).finished ∧
          replacement.chunks = ((info.pendingReceivers.get? id).getD .fresh).chunks ++
              [chunk])) := by
  simp only [writeReceiver] at written
  split at written
  · rename_i receiver found
    split at written
    · rename_i finished
      cases written
      exact Or.inl ⟨receiver, found, finished, rfl⟩
    · rename_i unfinished
      cases written
      exact Or.inr (Or.inl ⟨receiver, found, by simpa using unfinished, rfl⟩)
  · rename_i absent
    rw [Option.map_eq_some_iff] at written
    rcases written with ⟨pending, isRequired, rfl⟩
    rw [← info.eq_getD_of_requirePendingReceiver id isRequired]
    exact Or.inr (Or.inr ⟨absent, info.writePending_replaces id pending chunk⟩)

theorem writeReceiver_eq_none (refused : info.writeReceiver id chunk = none) :
    info.receivers.get? id = none ∧ info.pendingReceivers.get? id = none := by
  simp only [writeReceiver] at refused
  split at refused
  · split at refused <;> cases refused
  · rename_i absent
    rw [Option.map_eq_none_iff] at refused
    exact ⟨absent, info.requirePendingReceiver_eq_none id refused⟩

theorem finishReceiver_cases (finished : info.finishReceiver id = some after) :
    (∃ receiver, info.receivers.get? id = some receiver ∧
        after = info.setReceiver id receiver.finish) ∨
      (info.receivers.get? id = none ∧ ∃ replacement, ReplacesPending id info replacement after ∧
        (replacement.destroyed = false →
          ((info.pendingReceivers.get? id).getD .fresh).destroyed = false ∧
          replacement.chunks = ((info.pendingReceivers.get? id).getD .fresh).chunks)) := by
  simp only [finishReceiver] at finished
  split at finished
  · rename_i receiver found
    cases finished
    exact Or.inl ⟨receiver, found, rfl⟩
  · rename_i absent
    rw [Option.map_eq_some_iff] at finished
    rcases finished with ⟨pending, isRequired, rfl⟩
    rw [← info.eq_getD_of_requirePendingReceiver id isRequired]
    refine Or.inr ⟨absent, ?_⟩
    split
    · exact ⟨pending, info.setPending_replaces id pending, fun alive => ⟨alive, rfl⟩⟩
    · exact ⟨{ pending with finished := true }, info.setPending_replaces id _,
        fun alive => ⟨alive, rfl⟩⟩

theorem finishReceiver_eq_none (refused : info.finishReceiver id = none) :
    info.receivers.get? id = none ∧ info.pendingReceivers.get? id = none := by
  simp only [finishReceiver] at refused
  split at refused
  · cases refused
  · rename_i absent
    rw [Option.map_eq_none_iff] at refused
    exact ⟨absent, info.requirePendingReceiver_eq_none id refused⟩

theorem receiveDestroy_cases {now : ℤ} (received : info.receiveDestroy now id error = some after) :
    (info.receivers.get? id ≠ none ∧ ∃ receiver reason,
        after = (info.pruneTerminalSenders now).destroyReceiver id receiver reason) ∨
      (after.receivers = info.receivers ∧ after.pendingReceivers = info.pendingReceivers) ∨
      (info.receivers.get? id = none ∧
        ∃ retained, retained.destroyed = true ∧ ReplacesPending id info retained after) := by
  simp only [receiveDestroy] at received
  split at received
  · cases received
    exact Or.inr (Or.inl ⟨rfl, rfl⟩)
  · simp only [destroySubstream] at received
    split at received
    · rename_i receiver found
      cases received
      have attached : info.receivers.get? id ≠ none :=
        fun absent => Option.some_ne_none receiver (found.symm.trans absent)
      exact Or.inl ⟨attached, _, _, rfl⟩
    · rename_i absent
      split at received
      · cases received
        exact Or.inr (Or.inl ⟨rfl, rfl⟩)
      · rw [Option.map_eq_some_iff] at received
        rcases received with ⟨pending, _, rfl⟩
        rcases (info.pruneTerminalSenders now).retainPendingDestroy_replaces id pending
          (error.map fun message => truncateUtf8 message pendingDestroyErrorMaxBytes) with
          ⟨retained, destroyed, receivers, entries⟩
        exact Or.inr (Or.inr ⟨absent, retained, destroyed, receivers, entries⟩)

theorem flushPendingReceiver_onlyAt (info : ByteStreamInfo) (id : ℕ) :
    OnlyAt id info (info.flushPendingReceiver id) := by
  simp only [flushPendingReceiver]
  split
  · exact info.setReceiver_onlyAt id _
  · rename_i pending _
    have deleted : OnlyAt id info (info.deletePendingReceiver id pending) :=
      ⟨fun _ _ => rfl, fun other differ => by simp [differ]⟩
    split
    · exact deleted.trans (destroyReceiver_onlyAt _ id _ _)
    · exact deleted.trans (setReceiver_onlyAt _ id _)

theorem flushPendingReceiver_receiver (info : ByteStreamInfo) (id : ℕ) :
    (info.flushPendingReceiver id).receivers.get? id =
      flushedReceiver (info.pendingReceivers.get? id) := by
  simp only [flushPendingReceiver, flushedReceiver]
  cases info.pendingReceivers.get? id with
  | none => simp
  | some pending =>
      cases destroyed : pending.destroyed with
      | true => simp [destroyed, destroyReceiver, Receiver.fresh]
      | false => simp [destroyed]

theorem flushPendingReceiver_pending (info : ByteStreamInfo) (id : ℕ) :
    (info.flushPendingReceiver id).pendingReceivers.get? id = none := by
  simp only [flushPendingReceiver]
  split
  · rename_i absent
    exact absent
  · split
    · rw [destroyReceiver_pending]
      simp
    · simp

theorem createReceiver_cases (info : ByteStreamInfo) (remoteSenderIdParity : Option ℕ) (now : ℤ)
    (id : ℕ) :
    ((info.createReceiver remoteSenderIdParity now id).receivers = info.receivers ∧
        (info.createReceiver remoteSenderIdParity now id).pendingReceivers =
          info.pendingReceivers) ∨
      (info.receivers.get? id = none ∧ info.createReceiver remoteSenderIdParity now id =
        (info.pruneTerminalSenders now).flushPendingReceiver id) := by
  simp only [createReceiver]
  split
  · exact Or.inl ⟨rfl, rfl⟩
  · split
    · exact Or.inl ⟨rfl, rfl⟩
    · split
      · exact Or.inl ⟨rfl, rfl⟩
      · rename_i unused
        simp only [not_or, Bool.not_eq_true, Option.isSome_eq_false_iff,
          Option.isNone_iff_eq_none] at unused
        exact Or.inr ⟨unused.2.2, rfl⟩

theorem expirePending_receivers (info : ByteStreamInfo) (id : ℕ) :
    (info.expirePending id).receivers = info.receivers := by
  simp only [expirePending]
  split <;> rfl

theorem expirePending_pending (info : ByteStreamInfo) (id other : ℕ) :
    (info.expirePending id).pendingReceivers.get? other =
      if other = id then none else info.pendingReceivers.get? other := by
  simp only [expirePending]
  split
  · simp
  · rename_i absent
    split
    · rename_i same
      rw [same, absent]
    · rfl

theorem writeReceiver_onlyAt (written : info.writeReceiver id chunk = some after) :
    OnlyAt id info after := by
  rcases writeReceiver_cases written with ⟨receiver, _, _, rfl⟩ | ⟨receiver, _, _, rfl⟩ |
    ⟨_, _, replaces, _⟩
  · exact info.destroyReceiver_onlyAt id _ _
  · exact info.setReceiver_onlyAt id _
  · exact replaces.onlyAt

theorem finishReceiver_onlyAt (finished : info.finishReceiver id = some after) :
    OnlyAt id info after := by
  rcases finishReceiver_cases finished with ⟨receiver, _, rfl⟩ | ⟨_, _, replaces, _⟩
  · exact info.setReceiver_onlyAt id _
  · exact replaces.onlyAt

theorem receiveDestroy_onlyAt {now : ℤ} (received : info.receiveDestroy now id error = some after) :
    OnlyAt id info after := by
  rcases receiveDestroy_cases received with ⟨_, receiver, reason, rfl⟩ | ⟨receivers, pending⟩ |
    ⟨_, _, _, replaces⟩
  · rcases (info.pruneTerminalSenders now).destroyReceiver_onlyAt id receiver reason with
      ⟨receivers, pending⟩
    exact ⟨receivers, pending⟩
  · exact OnlyAt.of_entries receivers pending
  · exact replaces.onlyAt

theorem createReceiver_onlyAt (info : ByteStreamInfo) (remoteSenderIdParity : Option ℕ) (now : ℤ)
    (id : ℕ) : OnlyAt id info (info.createReceiver remoteSenderIdParity now id) := by
  rcases info.createReceiver_cases remoteSenderIdParity now id with ⟨receivers, pending⟩ |
    ⟨_, attached⟩
  · exact OnlyAt.of_entries receivers pending
  · rcases (info.pruneTerminalSenders now).flushPendingReceiver_onlyAt id with
      ⟨receivers, pending⟩
    rw [attached]
    exact ⟨receivers, pending⟩

theorem expirePending_onlyAt (info : ByteStreamInfo) (id : ℕ) :
    OnlyAt id info (info.expirePending id) where
  receivers _ _ := by rw [expirePending_receivers]
  pending other differ := by rw [expirePending_pending, if_neg differ]

end Operations

end ByteStreamInfo

end ServerFoundation.Srpc
