import ServerFoundation.Data.TransitionSystem
import ServerFoundation.Srpc.Envelope
import ServerFoundation.Srpc.ServerLimits

/-!
# One stream of an SRPC server

What `SrpcServer` keeps for a stream from its attachment to its revocation: the client requests
that wait for activation and those that are being handled, and the server requests that wait for
a reply, with the tombstones of those that timed out. A stream that has been revoked is never
current again, so it dispatches and writes nothing.

Observers and handlers are user code that runs in the middle of a step. What they call on the
stream is a step of its own; whether they have closed it in the middle of a step is part of that
step, as is the state of the socket. Each call of `invoke` has a serial number, and its promise
takes the first outcome that it is given.
-/

namespace ServerFoundation.Srpc

/-- `SrpcDisconnectCause`. -/
inductive DisconnectCause where
  | disconnect
  | conflict
  | supersede
  | timeout
  | badArg
deriving DecidableEq, Repr

/-- How the promise of an `invoke` is settled. -/
inductive InvokeOutcome (Payload : Type) where
  | resolved (reply : Envelope Payload)
  | invalidResponse (reply : Envelope Payload)
  | remoteError (reply : Envelope Payload)
  | indeterminate
  | disconnected (cause : DisconnectCause)
  | notConnected
  | threw
  | duplicate
  | notEncodable
  | tooManyRequests
  | tooManyBytes
deriving DecidableEq, Repr

/-- An `IQueuedRequest` with what its closures hold on to. -/
structure QueuedRequest where
  serial : ℕ
  resultType : String
  bytes : ℕ
  timeoutMs : ℕ
  acknowledged : Bool
deriving DecidableEq, Repr

/-- The limits of a server, and the sizes that its codec gives to the frames that the stream
writes by itself. -/
structure StreamConfig where
  limits : StreamLimits
  protocolVersion : ℕ
  acknowledgmentBytes : String → ℕ
  pongBytes : ℕ

/-- What the socket and the callbacks do during a step. -/
structure Turn where
  observerCloses : Bool
  wsOpen : Bool
  bufferedAmount : ℕ
  sendThrows : Bool
  outboundCloses : Bool
  validByteStream : Bool
  handlerCloses : Bool
deriving DecidableEq, Repr

/-- The socket takes a frame of this size. -/
def Turn.Accepts (config : StreamConfig) (bytes : ℕ) (turn : Turn) : Prop :=
  turn.wsOpen = true ∧ bytes ≤ config.limits.maxMessageBytes ∧
    turn.bufferedAmount + bytes ≤ config.limits.maxBufferedBytes ∧ turn.sendThrows = false

/-- The queue of sent requests with its accounting, the tombstones, and the outcomes of the
promises. -/
structure ServerRequests (Payload : Type) where
  queue : OrderedMap String QueuedRequest
  pendingServerRequestBytes : ℕ
  retained : List ℕ
  lateReplyTombstones : OrderedMap String ℤ
  invocations : ℕ
  settled : List (ℕ × InvokeOutcome Payload)

namespace ServerRequests

variable {Payload : Type} (requests : ServerRequests Payload)

/-- No request has been sent. -/
def empty : ServerRequests Payload := ⟨.empty, 0, [], .empty, 0, []⟩

/-- The promise of an invocation keeps its first outcome. -/
def settle (serial : ℕ) (outcome : InvokeOutcome Payload) : ServerRequests Payload :=
  if serial ∈ requests.settled.map Prod.fst then requests
  else { requests with settled := (serial, outcome) :: requests.settled }

/-- `releaseRetainedBytes`. -/
def releaseRetainedBytes (serial bytes : ℕ) : ServerRequests Payload :=
  if serial ∈ requests.retained then
    { requests with
      retained := requests.retained.erase serial
      pendingServerRequestBytes := requests.pendingServerRequestBytes - bytes }
  else requests

/-- `resolve` and `reject` of a queued request. -/
def conclude (queued : QueuedRequest) (outcome : InvokeOutcome Payload) : ServerRequests Payload :=
  (requests.releaseRetainedBytes queued.serial queued.bytes).settle queued.serial outcome

/-- The part of `revokeStream` that rejects every queued request. -/
def rejectAll (cause : DisconnectCause) : ServerRequests Payload :=
  let rejected := requests.queue.entries.foldl
    (fun (requests : ServerRequests Payload) entry =>
      requests.conclude entry.2 (.disconnected cause)) requests
  { rejected with queue := .empty, pendingServerRequestBytes := 0 }

/-- A receipt for a queued request. -/
def acknowledge (requestId : String) (queued : QueuedRequest) : ServerRequests Payload :=
  { requests with queue := requests.queue.set requestId { queued with acknowledged := true } }

/-- The tombstones that one stream may have. -/
def maxLateReplyTombstonesPerStream : ℕ := 256

/-- `pruneLateReplyTombstones`. -/
def pruneLateReplyTombstones (now : ℤ) : ServerRequests Payload :=
  { requests with
    lateReplyTombstones := requests.lateReplyTombstones.filter fun expiresAt => now < expiresAt }

/-- `addLateReplyTombstone`; the loop deletes the oldest entry while there are too many. -/
def addLateReplyTombstone (now ttlMs : ℤ) (requestId : String) : ServerRequests Payload :=
  let tombstones :=
    (requests.pruneLateReplyTombstones now).lateReplyTombstones.set requestId (now + ttlMs)
  { requests with
    lateReplyTombstones :=
      OrderedMap.dropOldest^[tombstones.size - maxLateReplyTombstonesPerStream] tombstones }

/-- The answer of `isLateReply`, after it has pruned the tombstones. -/
def isLateReply (now : ℤ) (requestId : String) : Bool :=
  ((requests.pruneLateReplyTombstones now).lateReplyTombstones.get? requestId).any (now < ·)

/-- The outcome that a reply gives to the request that it answers. -/
def replyOutcome (data : Envelope Payload) (queued : QueuedRequest) : InvokeOutcome Payload :=
  if data.error.isSome then .remoteError data
  else if ((data.fields.lookup queued.resultType).bind id).isSome then .resolved data
  else .invalidResponse data

/-- A reply to a queued request. -/
def answer (data : Envelope Payload) (requestId : String) (queued : QueuedRequest) :
    ServerRequests Payload :=
  { requests with queue := requests.queue.erase requestId }.conclude queued
    (replyOutcome data queued)

/-- A request times out. -/
def abandon (now ttlMs : ℤ) (requestId : String) (queued : QueuedRequest) :
    ServerRequests Payload :=
  ({ requests with queue := requests.queue.erase requestId }.addLateReplyTombstone now ttlMs
    requestId).conclude queued .indeterminate

/-- A request that has been admitted is retained and queued. -/
def register (requestId : String) (queued : QueuedRequest) : ServerRequests Payload :=
  { requests with
    pendingServerRequestBytes := requests.pendingServerRequestBytes + queued.bytes
    retained := queued.serial :: requests.retained
    queue := requests.queue.set requestId queued }

/-- The frame of a request could not be sent. -/
def sendFailed (requestId : String) (queued : QueuedRequest) : ServerRequests Payload :=
  { requests with queue := requests.queue.erase requestId }.conclude queued .notConnected

/-- Sending the frame of a request threw. -/
def sendThrew (requestId : String) (queued : QueuedRequest) : ServerRequests Payload :=
  let removed :=
    if (requests.queue.get? requestId).map (·.serial) = some queued.serial then
      { requests with queue := requests.queue.erase requestId }
    else requests
  removed.conclude queued .threw

end ServerRequests

/-- The requests that wait for activation, the accounting of those that are handled, and every
message whose handler was started. -/
structure ClientRequests (Payload : Type) where
  blocked : Bool
  pending : List (Envelope Payload × ℕ)
  pendingBytes : ℕ
  inFlight : ℕ
  inFlightBytes : ℕ
  dispatched : List (Envelope Payload)

namespace ClientRequests

variable {Payload : Type} (requests : ClientRequests Payload)

/-- The part of `revokeStream` on client requests. -/
def drop : ClientRequests Payload := ⟨false, [], 0, 0, 0, requests.dispatched⟩

/-- A request waits for activation. -/
def enqueue (data : Envelope Payload) (retainedBytes : ℕ) : ClientRequests Payload :=
  { requests with
    pending := requests.pending ++ [(data, retainedBytes)]
    pendingBytes := requests.pendingBytes + retainedBytes }

/-- A handler is started. -/
def start (data : Envelope Payload) (retainedBytes : ℕ) : ClientRequests Payload :=
  { requests with
    inFlight := requests.inFlight + 1
    inFlightBytes := requests.inFlightBytes + retainedBytes
    dispatched := requests.dispatched ++ [data] }

/-- A handler ends. -/
def finish (retainedBytes : ℕ) : ClientRequests Payload :=
  { requests with
    inFlight := requests.inFlight - 1, inFlightBytes := requests.inFlightBytes - retainedBytes }

/-- `openClientRequests` before its loop. -/
def unblock : ClientRequests Payload :=
  { requests with blocked := false, pending := [], pendingBytes := 0 }

end ClientRequests

/-- The state of one stream. -/
structure ServerStream (Payload : Type) where
  now : ℤ
  revoked : Bool
  isActivated : Bool
  clientRequests : ClientRequests Payload
  serverRequests : ServerRequests Payload
  closings : List (DisconnectCause × String)

namespace ServerStream

variable {Payload : Type} (config : StreamConfig) (stream : ServerStream Payload)

/-- A stream that `handleStreamEstablished` has just entered into the registry. -/
def established (now : ℤ) : ServerStream Payload :=
  ⟨now, false, false, ⟨true, [], 0, 0, 0, []⟩, .empty, []⟩

/-- `revokeStream`. -/
def revokeStream (cause : DisconnectCause) : ServerStream Payload :=
  if stream.revoked then stream
  else
    { stream with
      revoked := true
      clientRequests := stream.clientRequests.drop
      serverRequests := stream.serverRequests.rejectAll cause }

/-- `closeStreamWithError`. -/
def closeStreamWithError (cause : DisconnectCause) (message : String) : ServerStream Payload :=
  if stream.revoked then stream
  else { stream.revokeStream cause with closings := (cause, message) :: stream.closings }

/-- A callback that closes the stream, if it does. -/
def interrupted (closes : Bool) : ServerStream Payload :=
  if closes then stream.revokeStream .disconnect else stream

/-- `writeEncodedToStream`: whether the frame was sent. -/
def writeEncodedToStream (bytes : ℕ) (turn : Turn) : ServerStream Payload × Bool :=
  if stream.revoked ∨ ¬turn.wsOpen then (stream, false)
  else if config.limits.maxMessageBytes < bytes then
    (stream.closeStreamWithError .badArg "sRPC stream outgoing message limit exceeded", false)
  else if config.limits.maxBufferedBytes < turn.bufferedAmount + bytes then
    (stream.closeStreamWithError .badArg "sRPC stream outgoing buffer limit exceeded", false)
  else if turn.sendThrows then
    (stream.closeStreamWithError .badArg "Failed to send response", false)
  else (stream.interrupted turn.outboundCloses, true)

theorem writeEncodedToStream_cases (bytes : ℕ) (turn : Turn) :
    ((stream.revoked = true ∨ ¬turn.Accepts config bytes) ∧
        (stream.writeEncodedToStream config bytes turn = (stream, false) ∨
          ∃ message, stream.writeEncodedToStream config bytes turn =
            (stream.closeStreamWithError .badArg message, false))) ∨
      (stream.revoked = false ∧ turn.Accepts config bytes ∧
        stream.writeEncodedToStream config bytes turn =
          (stream.interrupted turn.outboundCloses, true)) := by
  rw [writeEncodedToStream]
  split
  · rename_i unavailable
    refine Or.inl ⟨?_, Or.inl rfl⟩
    rcases unavailable with revoked | notOpen
    · exact Or.inl revoked
    · exact Or.inr fun accepts => notOpen accepts.1
  · rename_i available
    simp only [not_or, Bool.not_eq_true, Bool.not_eq_false] at available
    split
    · rename_i tooLong
      exact Or.inl ⟨Or.inr fun accepts => tooLong.not_ge accepts.2.1, Or.inr ⟨_, rfl⟩⟩
    · rename_i fits
      split
      · rename_i tooMuch
        exact Or.inl ⟨Or.inr fun accepts => tooMuch.not_ge accepts.2.2.1, Or.inr ⟨_, rfl⟩⟩
      · rename_i buffered
        split
        · rename_i throws
          refine Or.inl ⟨Or.inr fun accepts => ?_, Or.inr ⟨_, rfl⟩⟩
          cases accepts.2.2.2.symm.trans throws
        · rename_i sends
          exact Or.inr ⟨available.1, ⟨available.2, not_lt.mp fits, not_lt.mp buffered,
            by simpa using sends⟩, rfl⟩

/-- A receipt or reply for a request that is not queued. -/
def receiveLate (requestId : String) : ServerStream Payload :=
  let pruned :=
    { stream with serverRequests := stream.serverRequests.pruneLateReplyTombstones stream.now }
  if stream.serverRequests.isLateReply stream.now requestId then pruned
  else pruned.closeStreamWithError .badArg "Unknown request ID"

/-- A receipt arrives. -/
def receiveAcknowledgment (data : Envelope Payload) : ServerStream Payload :=
  match data.requestId? with
  | none => stream.closeStreamWithError .badArg "Invalid request acknowledgment"
  | some requestId =>
      if config.protocolVersion < 4 ∨ data.isSrpcRequestAcknowledgment = false then
        stream.closeStreamWithError .badArg "Invalid request acknowledgment"
      else
        match stream.serverRequests.queue.get? requestId with
        | some queued =>
            { stream with serverRequests := stream.serverRequests.acknowledge requestId queued }
        | none => stream.receiveLate requestId

/-- A ping is answered with a pong after activation. -/
def receivePingPong (type : PingPongType) (turn : Turn) : ServerStream Payload :=
  if stream.isActivated ∧ (type = .ping ∨ type = .unspecified) then
    (stream.writeEncodedToStream config config.pongBytes turn).1
  else stream

/-- A reply arrives. -/
def receiveReply (data : Envelope Payload) (requestId : String) : ServerStream Payload :=
  match stream.serverRequests.queue.get? requestId with
  | none => stream.receiveLate requestId
  | some queued =>
      { stream with serverRequests := stream.serverRequests.answer data requestId queued }

/-- A client request or notification before activation. -/
def queueClientRequest (data : Envelope Payload) (retainedBytes : ℕ) : ServerStream Payload :=
  if config.limits.maxPendingClientRequests ≤ stream.clientRequests.pending.length then
    stream.closeStreamWithError .badArg "Too many pending client requests"
  else if config.limits.maxPendingClientRequestBytes <
      stream.clientRequests.pendingBytes + retainedBytes then
    stream.closeStreamWithError .badArg "Too many pending client request bytes"
  else { stream with clientRequests := stream.clientRequests.enqueue data retainedBytes }

/-- The handler of a client request or notification is started. -/
def startHandler (data : Envelope Payload) (retainedBytes : ℕ) (turn : Turn) :
    ServerStream Payload :=
  { stream with clientRequests := stream.clientRequests.start data retainedBytes }.interrupted
    turn.handlerCloses

/-- A client request or notification after activation. -/
def dispatchClientRequest (data : Envelope Payload) (retainedBytes : ℕ) (turn : Turn) :
    ServerStream Payload :=
  if config.limits.maxInFlightClientRequests ≤ stream.clientRequests.inFlight then
    stream.closeStreamWithError .badArg "Too many in-flight client requests"
  else if config.limits.maxInFlightClientRequestBytes <
      stream.clientRequests.inFlightBytes + retainedBytes then
    stream.closeStreamWithError .badArg "Too many in-flight client request bytes"
  else if data.isSrpcNotification = false ∧ 4 ≤ config.protocolVersion then
    match stream.writeEncodedToStream config
        (config.acknowledgmentBytes (data.requestId.getD "")) turn with
    | (stream, false) => stream
    | (stream, true) => stream.startHandler data retainedBytes turn
  else stream.startHandler data retainedBytes turn

/-- A client request or notification. -/
def receiveClientRequest (data : Envelope Payload) (retainedBytes : ℕ) (turn : Turn) :
    ServerStream Payload :=
  if stream.isActivated = false ∨ stream.clientRequests.blocked then
    stream.queueClientRequest config data retainedBytes
  else stream.dispatchClientRequest config data retainedBytes turn

/-- `handleStreamDataReceived` after the observers have seen the message. -/
def dispatchMessage (data : Envelope Payload) (retainedBytes : ℕ) (turn : Turn) :
    ServerStream Payload :=
  if data.requestAck then stream.receiveAcknowledgment config data
  else
    match data.pingPong with
    | some type => stream.receivePingPong config (type.getD .unspecified) turn
    | none =>
        if data.byteStreamOperation.isSome then
          if turn.validByteStream then stream
          else stream.closeStreamWithError .badArg "Invalid byte stream ID"
        else if data.requestId?.isNone ∧ data.isSrpcNotification = false then
          stream.closeStreamWithError .badArg "Invalid request ID"
        else
          match data.reply, data.requestId? with
          | true, some requestId => stream.receiveReply data requestId
          | _, _ => stream.receiveClientRequest config data retainedBytes turn

/-- `handleStreamDataReceived`. -/
def handleStreamDataReceived (data : Envelope Payload) (retainedBytes : ℕ) (turn : Turn) :
    ServerStream Payload :=
  if stream.revoked then stream
  else (stream.interrupted turn.observerCloses).dispatchMessage config data retainedBytes turn

/-- The loop of `openClientRequests`, with one turn for each message. -/
def replay : ServerStream Payload → List ((Envelope Payload × ℕ) × Turn) → ServerStream Payload
  | stream, [] => stream
  | stream, (message, turn) :: rest =>
      replay (stream.handleStreamDataReceived config message.1 message.2 turn) rest

/-- `openClientRequests`. -/
def openClientRequests (turns : List Turn) : ServerStream Payload :=
  { stream with clientRequests := stream.clientRequests.unblock }.replay config
    (stream.clientRequests.pending.zip turns)

/-- The promise executor of an `invoke` that has been admitted. A logger may throw after the frame
was sent. -/
def sendRequest (requestId : String) (queued : QueuedRequest) (turn : Turn) (loggerThrows : Bool) :
    ServerStream Payload :=
  let registered :=
    { stream with serverRequests := stream.serverRequests.register requestId queued }
  match registered.writeEncodedToStream config queued.bytes turn with
  | (sent, true) =>
      if loggerThrows then
        { sent with serverRequests := sent.serverRequests.sendThrew requestId queued }
      else sent
  | (failed, false) =>
      { failed with serverRequests := failed.serverRequests.sendFailed requestId queued }

/-- `invokeWithRequestId`; the codec may fail to encode the request. -/
def invokeWithRequestId (requestId resultType : String) (encoded : Option ℕ) (timeoutMs : ℕ)
    (turn : Turn) (loggerThrows : Bool) : ServerStream Payload :=
  let serial := stream.serverRequests.invocations
  let requests := { stream.serverRequests with invocations := serial + 1 }
  if (requests.queue.get? requestId).isSome then
    { stream with serverRequests := requests.settle serial .duplicate }
  else
    match encoded with
    | none => { stream with serverRequests := requests.settle serial .notEncodable }
    | some bytes =>
        if config.limits.maxPendingServerRequests ≤ requests.queue.size then
          { stream with serverRequests := requests.settle serial .tooManyRequests }
        else if config.limits.maxPendingServerRequestBytes <
            requests.pendingServerRequestBytes + bytes then
          { stream with serverRequests := requests.settle serial .tooManyBytes }
        else
          { stream with serverRequests := requests }.sendRequest config requestId
            ⟨serial, resultType, bytes, timeoutMs, false⟩ turn loggerThrows

/-- `SrpcClientRequestAckDelayMs`. -/
def srpcClientRequestAckDelayMs : ℕ := 3000

/-- The timer of an `invoke`, which is cleared when the request leaves the queue. -/
def requestTimeout (requestId : String) : ServerStream Payload :=
  match stream.serverRequests.queue.get? requestId with
  | none => stream
  | some queued =>
      let abandoned := { stream with
        serverRequests := stream.serverRequests.abandon stream.now
          config.limits.lateReplyTombstoneTtlMs requestId queued }
      if config.limits.disconnectOnRequestTimeout = true ∧ 4 ≤ config.protocolVersion ∧
          srpcClientRequestAckDelayMs < queued.timeoutMs ∧ queued.acknowledged = false then
        abandoned.revokeStream .timeout
      else abandoned

end ServerStream

/-- What happens on a stream. -/
inductive StreamEvent (Payload : Type) where
  | elapse (time : ℤ)
  | receive (data : Envelope Payload) (retainedBytes : ℕ) (turn : Turn)
  | activate
  | openClientRequests (turns : List Turn)
  | handlerFinished (retainedBytes : ℕ)
  | invoke (requestId resultType : String) (encoded : Option ℕ) (timeoutMs : ℕ) (turn : Turn)
      (loggerThrows : Bool)
  | requestTimeout (requestId : String)
  | write (bytes : ℕ) (turn : Turn)
  | revoke (cause : DisconnectCause)

/-- A stream with the request ids that were used and the requests that were abandoned, newest
first. -/
structure StreamHistory (Payload : Type) where
  stream : ServerStream Payload
  requestIds : List String
  abandoned : List (String × ℤ)

namespace StreamHistory

variable {Payload : Type} (config : StreamConfig)

/-- A stream on which nothing has happened. -/
def initial (now : ℤ) : StreamHistory Payload := ⟨.established now, [], []⟩

/-- What an event does to the stream. -/
def advance (history : StreamHistory Payload) : StreamEvent Payload → StreamHistory Payload
  | .elapse time => { history with stream := { history.stream with now := time } }
  | .receive data retainedBytes turn =>
      { history with
        stream := history.stream.handleStreamDataReceived config data retainedBytes turn }
  | .activate => { history with stream := { history.stream with isActivated := true } }
  | .openClientRequests turns =>
      { history with stream := history.stream.openClientRequests config turns }
  | .handlerFinished retainedBytes =>
      { history with
        stream := { history.stream with
          clientRequests := history.stream.clientRequests.finish retainedBytes } }
  | .invoke requestId resultType encoded timeoutMs turn loggerThrows =>
      { history with
        stream := history.stream.invokeWithRequestId config requestId resultType encoded timeoutMs
          turn loggerThrows
        requestIds := requestId :: history.requestIds }
  | .requestTimeout requestId =>
      { history with
        stream := history.stream.requestTimeout config requestId
        abandoned :=
          if (history.stream.serverRequests.queue.get? requestId).isSome then
            (requestId, history.stream.now) :: history.abandoned
          else history.abandoned }
  | .write bytes turn =>
      { history with stream := (history.stream.writeEncodedToStream config bytes turn).1 }
  | .revoke cause => { history with stream := history.stream.revokeStream cause }

/-- Time does not run backwards, request ids are new, and the queued client requests are opened
once the stream is active. -/
def Feasible (history : StreamHistory Payload) : StreamEvent Payload → Prop
  | .elapse time => history.stream.now ≤ time
  | .activate => history.stream.revoked = false
  | .openClientRequests turns =>
      history.stream.revoked = false ∧ history.stream.isActivated = true ∧
        turns.length = history.stream.clientRequests.pending.length
  | .invoke requestId _ _ _ _ _ => requestId ∉ history.requestIds
  | _ => True

instance Feasible.decidable : DecidableRel (@Feasible Payload)
  | history, .elapse time => inferInstanceAs (Decidable (history.stream.now ≤ time))
  | history, .activate => inferInstanceAs (Decidable (history.stream.revoked = false))
  | history, .openClientRequests turns =>
      inferInstanceAs (Decidable (history.stream.revoked = false ∧
        history.stream.isActivated = true ∧
        turns.length = history.stream.clientRequests.pending.length))
  | history, .invoke requestId _ _ _ _ _ =>
      inferInstanceAs (Decidable (requestId ∉ history.requestIds))
  | _, .receive _ _ _ => isTrue trivial
  | _, .handlerFinished _ => isTrue trivial
  | _, .requestTimeout _ => isTrue trivial
  | _, .write _ _ => isTrue trivial
  | _, .revoke _ => isTrue trivial

/-- The runs of one stream. -/
def system : TransitionSystem (StreamHistory Payload) (StreamEvent Payload) where
  Init history := ∃ now, history = initial now
  Step before event after := before.Feasible event ∧ after = before.advance config event

end StreamHistory

end ServerFoundation.Srpc
