import ServerFoundation.Srpc.ClientSession
import ServerFoundation.Srpc.LateReplies

/-!
# A client and a server

An `SrpcClient` that talks to an `SrpcServer` over one socket after the other. A
socket is a pair of first-in first-out channels, which the model keeps as the
frames that were sent and the number of them that have arrived; frames that were
lost with the connection never arrive. Each generation of the client has its own
stream on the server, whose activation goes through the steps of
`handleStreamEstablished`. Nothing forces the stream of a generation to wait until
the client has opened it, so there are more runs than a real server has.

A codec that does not know the type of a `PingPong` drops it.
-/

namespace ServerFoundation.Srpc

/-- Both sides speak the version of the protocol that the handshake has agreed on. -/
structure ConversationConfig where
  client : ClientConfig
  stream : StreamConfig
  keepsPingPongType : Bool
  helloBytes : ℕ
  activatedBytes : ℕ
  agreed : client.protocolVersion = stream.protocolVersion

variable {Payload : Type}

/-- A frame as the other side decodes it. -/
def ConversationConfig.decode (config : ConversationConfig) (data : Envelope Payload) :
    Envelope Payload :=
  if config.keepsPingPongType then data
  else { data with pingPong := data.pingPong.map fun _ => none }

namespace Envelope

/-- The id of a request that the server sends, where the frame is one. -/
def serverRequestId? (data : Envelope Payload) : Option String :=
  if data.requestAck ∨ data.pingPong.isSome ∨ data.byteStreamOperation.isSome ∨ data.reply then none
  else data.requestId?

/-- The frame that `invokeWithRequestId` sends. -/
def serverRequest (requestId requestType : String) (payload : Option Payload) :
    Envelope Payload :=
  ⟨some requestId, false, none, none, false, none, none, [(requestType, payload)]⟩

end Envelope

namespace ServerStream

variable (config : StreamConfig) (stream : ServerStream Payload)

/-- The size of the frame that an invocation sends, if it sends one. -/
def invocationSent (requestId : String) (encoded : Option ℕ) (turn : Turn) : Option ℕ :=
  if (stream.serverRequests.queue.get? requestId).isSome then none
  else
    encoded.filter fun bytes =>
      stream.serverRequests.queue.size < config.limits.maxPendingServerRequests ∧
        stream.serverRequests.pendingServerRequestBytes + bytes ≤
          config.limits.maxPendingServerRequestBytes ∧
        (stream.writeEncodedToStream config bytes turn).2

/-- Whether the arrival of a message makes the stream send a pong. -/
def pongSent (data : Envelope Payload) (turn : Turn) : Bool :=
  let observed := stream.interrupted turn.observerCloses
  !stream.revoked && !data.requestAck && observed.isActivated &&
    data.pingPong.any (fun type =>
      type.getD .unspecified == .ping || type.getD .unspecified == .unspecified) &&
    (observed.writeEncodedToStream config config.pongBytes turn).2

end ServerStream

/-- How far `handleStreamEstablished` has come. -/
inductive ActivationPhase where
  | established
  | greeted
  | activated
deriving DecidableEq, Repr

/-- The stream of a generation and its socket: the frames of the server, and how many frames have
arrived at either end. -/
structure Link (Payload : Type) where
  history : StreamHistory Payload
  phase : ActivationPhase
  outgoing : List (Envelope Payload × ℕ)
  delivered : ℕ
  received : ℕ

namespace Link

/-- The link of a new stream. -/
def opened (now : ℤ) : Link Payload := ⟨.initial now, .established, [], 0, 0⟩

variable (config : ConversationConfig) (link : Link Payload)

/-- A step of the stream that sends no frame to this client. -/
def advance (event : StreamEvent Payload) : Link Payload :=
  { link with history := link.history.advance config.stream event }

/-- `writeToStream`. -/
def writeToStream (data : Envelope Payload) (bytes : ℕ) (turn : Turn) : Link Payload :=
  { link.advance config (.write bytes turn) with
    outgoing :=
      if (link.history.stream.writeEncodedToStream config.stream bytes turn).2 then
        link.outgoing ++ [(data, bytes)]
      else link.outgoing }

/-- A frame of the handshake, without which the stream is cleaned up. -/
def writeOrCleanup (data : Envelope Payload) (bytes : ℕ) (turn : Turn) : Link Payload :=
  if (link.history.stream.writeEncodedToStream config.stream bytes turn).2 then
    link.writeToStream config data bytes turn
  else (link.writeToStream config data bytes turn).advance config (.revoke .disconnect)

/-- `postEstablishCheck` has let the stream through. -/
def hello (turn : Turn) : Link Payload :=
  { link.writeOrCleanup config (.ofPingPong (some .hello)) config.helloBytes turn with
    phase := .greeted }

/-- `activateStream`, with the observers that it notifies. -/
def activateStream (turn : Turn) : Link Payload :=
  let activated := { link.advance config .activate with phase := .activated }
  if turn.observerCloses then activated.advance config (.revoke .disconnect) else activated

/-- The connection handlers have completed. -/
def activate (turn : Turn) : Link Payload :=
  (link.activateStream config turn).writeOrCleanup config (.ofPingPong (some .activated))
    config.activatedBytes turn

/-- `invoke`. -/
def invoke (requestId method : String) (payload : Option Payload) (encoded : Option ℕ)
    (timeoutMs : ℕ) (turn : Turn) (loggerThrows : Bool) : Link Payload :=
  { link.advance config (.invoke requestId (method ++ "Response") encoded timeoutMs turn
      loggerThrows) with
    outgoing :=
      link.outgoing ++
        ((link.history.stream.invocationSent config.stream requestId encoded turn).map
          fun bytes => (.serverRequest requestId (method ++ "Request") payload, bytes)).toList }

/-- A frame of the client arrives. Nobody listens before the stream has been greeted. -/
def receive (data : Envelope Payload) (bytes : ℕ) (turn : Turn) : Link Payload :=
  if link.phase = .established then link
  else
    { link.advance config (.receive data bytes turn) with
      outgoing :=
        if link.history.stream.pongSent config.stream data turn then
          link.outgoing ++ [(.ofPingPong (some .pong), config.stream.pongBytes)]
        else link.outgoing }

end Link

/-- A client with its links. -/
structure Conversation (Payload : Type) where
  client : ClientSession Payload
  links : ℕ → Link Payload

/-- What happens at either end, or in between. -/
inductive ConversationEvent (Payload : Type) where
  | connect (accepted : Bool)
  | revokeGeneration
  | write (message : Envelope Payload) (outcome : WriteOutcome)
  | acknowledgmentTimer (key : ℕ) (outcome : WriteOutcome)
  | handlerFinished (key : ℕ) (error : Option String) (userError : Option Bool)
      (fields : List (String × Option Payload)) (outcome : WriteOutcome)
  | deliverToClient (generation : ℕ) (turn : ClientTurn)
  | deliverToServer (generation bytes : ℕ) (turn : Turn)
  | hello (generation : ℕ) (turn : Turn)
  | activate (generation : ℕ) (turn : Turn)
  | invoke (generation : ℕ) (requestId method : String) (payload : Option Payload)
      (encoded : Option ℕ) (timeoutMs : ℕ) (turn : Turn) (loggerThrows : Bool)
  | writeToStream (generation : ℕ) (data : Envelope Payload) (bytes : ℕ) (turn : Turn)
  | stream (generation : ℕ) (event : StreamEvent Payload)

/-- The steps of a stream by itself. -/
def StreamEvent.isInternal : StreamEvent Payload → Bool
  | .elapse _ => true
  | .openClientRequests _ => true
  | .handlerFinished _ => true
  | .requestTimeout _ => true
  | .revoke _ => true
  | .receive _ _ _ => false
  | .activate => false
  | .invoke _ _ _ _ _ _ => false
  | .write _ _ => false

namespace Conversation

/-- Nothing has been sent. -/
def initial (now : ℕ → ℤ) : Conversation Payload :=
  ⟨.initial, fun generation => .opened (now generation)⟩

variable (config : ConversationConfig)

/-- The link of a generation is replaced. -/
def setLink (conversation : Conversation Payload) (generation : ℕ) (link : Link Payload) :
    Conversation Payload :=
  { conversation with links := Function.update conversation.links generation link }

/-- The next frame of the server arrives at the client. -/
def deliverToClient (conversation : Conversation Payload) (generation : ℕ) (turn : ClientTurn) :
    Conversation Payload :=
  let link := conversation.links generation
  match link.outgoing[link.delivered]? with
  | none => conversation
  | some (data, bytes) =>
      { conversation.setLink generation { link with delivered := link.delivered + 1 } with
        client := conversation.client.receive config.client generation (config.decode data) bytes
          turn }

/-- The next frame of the client arrives at the server. -/
def deliverToServer (conversation : Conversation Payload) (generation bytes : ℕ) (turn : Turn) :
    Conversation Payload :=
  let link := conversation.links generation
  match (conversation.client.sent generation)[link.received]? with
  | none => conversation
  | some data =>
      conversation.setLink generation
        { link.receive config (config.decode data) bytes turn with received := link.received + 1 }

/-- What an event does to the conversation. -/
def advance (conversation : Conversation Payload) :
    ConversationEvent Payload → Conversation Payload
  | .connect accepted => { conversation with client := conversation.client.connect accepted }
  | .revokeGeneration =>
      { conversation with
        client := conversation.client.revokeGeneration conversation.client.generation }
  | .write message outcome =>
      { conversation with
        client :=
          (conversation.client.writeMessage conversation.client.generation message outcome).1 }
  | .acknowledgmentTimer key outcome =>
      { conversation with client := conversation.client.acknowledgmentTimer key outcome }
  | .handlerFinished key error userError fields outcome =>
      { conversation with
        client := conversation.client.handlerFinished key error userError fields outcome }
  | .deliverToClient generation turn => conversation.deliverToClient config generation turn
  | .deliverToServer generation bytes turn =>
      conversation.deliverToServer config generation bytes turn
  | .hello generation turn =>
      conversation.setLink generation ((conversation.links generation).hello config turn)
  | .activate generation turn =>
      conversation.setLink generation ((conversation.links generation).activate config turn)
  | .invoke generation requestId method payload encoded timeoutMs turn loggerThrows =>
      conversation.setLink generation
        ((conversation.links generation).invoke config requestId method payload encoded timeoutMs
          turn loggerThrows)
  | .writeToStream generation data bytes turn =>
      conversation.setLink generation
        ((conversation.links generation).writeToStream config data bytes turn)
  | .stream generation event =>
      conversation.setLink generation ((conversation.links generation).advance config event)

/-- The client answers only requests that it handles; the server greets and asks in its own steps,
and activates a stream once it has been greeted. -/
def Feasible (conversation : Conversation Payload) : ConversationEvent Payload → Prop
  | .write message _ => message.requestAck = false ∧ message.reply = false
  | .hello generation _ =>
      (conversation.links generation).phase = .established ∧
        (conversation.links generation).history.stream.revoked = false
  | .activate generation _ =>
      (conversation.links generation).phase = .greeted ∧
        (conversation.links generation).history.stream.revoked = false
  | .invoke generation requestId _ _ _ _ _ _ =>
      requestId ∉ (conversation.links generation).history.requestIds
  | .writeToStream _ data _ _ => data.pingPong = none ∧ data.serverRequestId? = none
  | .stream generation event =>
      event.isInternal = true ∧ (conversation.links generation).history.Feasible event
  | _ => True

instance Feasible.decidable : DecidableRel (@Feasible Payload)
  | _, .write message _ =>
      inferInstanceAs (Decidable (message.requestAck = false ∧ message.reply = false))
  | conversation, .hello generation _ =>
      inferInstanceAs (Decidable ((conversation.links generation).phase = .established ∧
        (conversation.links generation).history.stream.revoked = false))
  | conversation, .activate generation _ =>
      inferInstanceAs (Decidable ((conversation.links generation).phase = .greeted ∧
        (conversation.links generation).history.stream.revoked = false))
  | conversation, .invoke generation requestId _ _ _ _ _ _ =>
      inferInstanceAs (Decidable (requestId ∉ (conversation.links generation).history.requestIds))
  | _, .writeToStream _ data _ _ =>
      inferInstanceAs (Decidable (data.pingPong = none ∧ data.serverRequestId? = none))
  | conversation, .stream generation event =>
      inferInstanceAs (Decidable (event.isInternal = true ∧
        (conversation.links generation).history.Feasible event))
  | _, .connect _ => isTrue trivial
  | _, .revokeGeneration => isTrue trivial
  | _, .acknowledgmentTimer _ _ => isTrue trivial
  | _, .handlerFinished _ _ _ _ _ => isTrue trivial
  | _, .deliverToClient _ _ => isTrue trivial
  | _, .deliverToServer _ _ _ => isTrue trivial

/-- The runs of a client and a server. -/
def system : TransitionSystem (Conversation Payload) (ConversationEvent Payload) where
  Init conversation := ∃ now, conversation = initial now
  Step before event after := before.Feasible event ∧ after = before.advance config event

end Conversation

end ServerFoundation.Srpc
