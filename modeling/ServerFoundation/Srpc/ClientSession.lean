import ServerFoundation.Data.OrderedMap
import ServerFoundation.Srpc.Envelope

/-!
# Sessions of an SRPC client

What `SrpcClient` does with the frames of the server: the initial handshake, the
completion of a connection, the requests that it serves and the delayed receipts
of protocol 4. Each `connect()` opens a generation with its own socket, and a frame
is written only on the socket of the current generation.

`disconnect()`, a closed or failed socket, a timeout and a protocol error all end
in `revokeGeneration`. User callbacks run after it or before a `connect()`, and
what they call is a step of its own. A handler has its result when
`handleServerRequest` writes the reply, and the timer of the receipt is cancelled
before any other timer can run.
-/

namespace ServerFoundation.Srpc

/-- What becomes of a frame that the client writes. -/
inductive WriteOutcome where
  | notEncodable
  | notOpen
  | overLimit
  | threw
  | sent (loggerDisconnects : Bool)
deriving DecidableEq, Repr

/-- What the codec, the socket, the logger and the client's own requests do during a step. -/
structure ClientTurn where
  decodes : Bool
  loggerDisconnects : Bool
  knownRequest : Bool
  validByteStream : Bool
  outcome : WriteOutcome
deriving DecidableEq, Repr

/-- The options of a client. -/
structure ClientConfig where
  protocolVersion : ℕ
  maxMessageBytes : ℕ
  maxInFlightServerRequests : ℕ
  maxInFlightServerRequestBytes : ℕ

/-- A message that is being handled, and whether its receipt is still to be sent. -/
structure HandledMessage (Payload : Type) where
  generation : ℕ
  data : Envelope Payload
  bytes : ℕ
  timer : Bool

/-- Who gets the next frame of the current socket. -/
inductive MessageListener where
  | handleInitialHandshake
  | handleMessage
  | nobody
deriving DecidableEq, Repr

/-- A client with the frames that each socket has taken and the generations whose connection was
completed, newest first. -/
structure ClientSession (Payload : Type) where
  generation : ℕ
  ws : Option ℕ
  isConnected : Bool
  listener : MessageListener
  awaitingActivation : Option (ℕ × Bool)
  inFlight : ℕ
  inFlightBytes : ℕ
  handled : OrderedMap ℕ (HandledMessage Payload)
  nextHandled : ℕ
  sent : ℕ → List (Envelope Payload)
  completed : List ℕ

namespace ClientSession

variable {Payload : Type}

/-- A client that has not been connected. -/
def initial : ClientSession Payload :=
  ⟨0, none, false, .nobody, none, 0, 0, .empty, 0, fun _ => [], []⟩

variable (config : ClientConfig) (client : ClientSession Payload)

/-- The generation is current. -/
def IsCurrent (generation : ℕ) : Prop :=
  client.ws = some generation ∧ client.generation = generation

instance (generation : ℕ) : Decidable (client.IsCurrent generation) :=
  inferInstanceAs (Decidable (_ ∧ _))

/-- The connection of this generation is being set up. -/
def isActivating (generation : ℕ) : Bool :=
  client.awaitingActivation.any (·.1 == generation)

/-- `connect()`. It throws before there is a new socket when the URL cannot be built. -/
def connect (accepted : Bool) : ClientSession Payload :=
  { client with
    generation := client.generation + 1
    ws := if accepted then some (client.generation + 1) else none
    isConnected := false
    listener := .handleInitialHandshake
    awaitingActivation := none
    inFlight := 0
    inFlightBytes := 0 }

/-- The receipts of a generation are cancelled. -/
def cancelAcknowledgments (generation : ℕ) : OrderedMap ℕ (HandledMessage Payload) :=
  client.handled.mapValues fun message =>
    { message with timer := message.timer && message.generation != generation }

/-- `revokeGeneration`. -/
def revokeGeneration (generation : ℕ) : ClientSession Payload :=
  if client.IsCurrent generation then
    { client with
      ws := none
      isConnected := false
      awaitingActivation := none
      inFlight := 0
      inFlightBytes := 0
      handled := client.cancelAcknowledgments generation }
  else client

/-- A logger that disconnects the client, if it does. -/
def interrupted (disconnects : Bool) : ClientSession Payload :=
  if disconnects then client.revokeGeneration client.generation else client

/-- The socket takes a frame. -/
def send (generation : ℕ) (message : Envelope Payload) : ClientSession Payload :=
  { client with
    sent := Function.update client.sent generation (client.sent generation ++ [message]) }

/-- `writeMessage`: whether the frame was sent. -/
def writeMessage (generation : ℕ) (message : Envelope Payload) (outcome : WriteOutcome) :
    ClientSession Payload × Bool :=
  match outcome with
  | .notEncodable => (client, false)
  | .notOpen => (client, false)
  | .overLimit => (client.revokeGeneration generation, false)
  | .threw => (client.revokeGeneration generation, false)
  | .sent loggerDisconnects =>
      if client.IsCurrent generation then
        ((client.send generation message).interrupted loggerDisconnects, true)
      else (client, false)

/-- `completeConnection` up to the connection handlers. -/
def completeConnection (generation : ℕ) : ClientSession Payload :=
  if client.IsCurrent generation ∧ client.isConnected = false then
    { client with
      awaitingActivation := none
      isConnected := true
      completed := generation :: client.completed }
  else client

end ClientSession

namespace Envelope

variable {Payload : Type}

/-- A ping or a pong. -/
def ofPingPong (type : Option PingPongType) : Envelope Payload :=
  ⟨none, false, none, none, false, some type, none, []⟩

/-- The receipt of a request. -/
def receiptFor (requestId : String) : Envelope Payload :=
  ⟨some requestId, false, none, none, true, none, none, []⟩

/-- The reply to a request, with the result of its handler or an error. -/
def replyTo (requestId : String) (error : Option String) (userError : Option Bool)
    (fields : List (String × Option Payload)) : Envelope Payload :=
  ⟨some requestId, true, error, userError, false, none, none, fields⟩

/-- The answer to a greeting of this type. -/
def helloAnswer (type : PingPongType) : Envelope Payload :=
  ofPingPong (if type = .hello then some .helloAck else none)

end Envelope

namespace ClientSession

variable {Payload : Type} (config : ClientConfig) (client : ClientSession Payload)

/-- A ping of this type greets the client. -/
def IsGreeting (type : PingPongType) : Prop := type = .hello ∨ type = .unspecified

instance (type : PingPongType) : Decidable (IsGreeting type) := inferInstanceAs (Decidable (_ ∨ _))

/-- The answer to the first ping, if it is a greeting; whether to go on. -/
def greet (generation : ℕ) (type : PingPongType) (outcome : WriteOutcome) :
    ClientSession Payload × Bool :=
  if IsGreeting type then
    { client with listener := .nobody }.writeMessage generation (.helloAnswer type) outcome
  else ({ client with listener := .nobody }, true)

/-- `handleInitialHandshake`, for the first frame of a socket. -/
def handleInitialHandshake (generation : ℕ) (data : Envelope Payload) (turn : ClientTurn) :
    ClientSession Payload :=
  match turn.decodes, data.pingPong with
  | true, some received =>
      let type := received.getD .unspecified
      let greeted := client.greet generation type turn.outcome
      if greeted.2 = false ∨ ¬greeted.1.IsCurrent generation then greeted.1
      else
        let awaiting :=
          { greeted.1 with
            awaitingActivation := some (generation, decide (IsGreeting type))
            listener := .handleMessage }
        if type = .activated then awaiting.completeConnection generation else awaiting
  | _, _ => client.revokeGeneration generation

/-- A ping of the server, in any of its meanings. -/
def receivePingPong (generation : ℕ) (type : PingPongType) (turn : ClientTurn) :
    ClientSession Payload :=
  let isActivating := client.isActivating generation
  let helloReceived := client.awaitingActivation.any Prod.snd
  if type = .hello ∨ type = .unspecified ∧ isActivating ∧ ¬helloReceived then
    let (answered, written) := client.writeMessage generation (.helloAnswer type) turn.outcome
    if written ∧ answered.IsCurrent generation ∧ isActivating then
      { answered with awaitingActivation := some (generation, true) }
    else answered
  else if type = .activated ∨ type = .unspecified ∧ isActivating then
    client.completeConnection generation
  else client

/-- A request or notification of the server, if the client has room for it. -/
def startHandler (generation : ℕ) (data : Envelope Payload) (bytes : ℕ) :
    ClientSession Payload :=
  if config.maxInFlightServerRequests ≤ client.inFlight ∨
      config.maxInFlightServerRequestBytes < client.inFlightBytes + bytes then
    client.revokeGeneration generation
  else
    { client with
      inFlight := client.inFlight + 1
      inFlightBytes := client.inFlightBytes + bytes
      handled := client.handled.set client.nextHandled
        ⟨generation, data, bytes, !data.isSrpcNotification && config.protocolVersion == 4⟩
      nextHandled := client.nextHandled + 1 }

/-- `handleMessage` after the traffic was logged. -/
def dispatchMessage (generation : ℕ) (data : Envelope Payload) (bytes : ℕ) (turn : ClientTurn) :
    ClientSession Payload :=
  if data.requestAck then
    if config.protocolVersion ≠ 4 ∨ data.isSrpcRequestAcknowledgment = false ∨
        turn.knownRequest = false then client.revokeGeneration generation
    else client
  else
    match data.pingPong with
    | some type => client.receivePingPong generation (type.getD .unspecified) turn
    | none =>
        if client.isConnected = false ∧ client.isActivating generation = false then client
        else if data.byteStreamOperation.isSome then
          if turn.validByteStream then client else client.revokeGeneration generation
        else if data.requestId?.isNone ∧ data.isSrpcNotification = false then
          client.revokeGeneration generation
        else if data.reply ∧ data.requestId?.isSome then
          if turn.knownRequest then client else client.revokeGeneration generation
        else client.startHandler config generation data bytes

/-- `handleMessage`. -/
def handleMessage (generation : ℕ) (data : Envelope Payload) (bytes : ℕ) (turn : ClientTurn) :
    ClientSession Payload :=
  if config.maxMessageBytes < bytes then client.revokeGeneration generation
  else if turn.decodes = false then client.revokeGeneration generation
  else (client.interrupted turn.loggerDisconnects).dispatchMessage config generation data bytes turn

/-- A frame arrives on the socket of a generation. -/
def receive (generation : ℕ) (data : Envelope Payload) (bytes : ℕ) (turn : ClientTurn) :
    ClientSession Payload :=
  if client.IsCurrent generation then
    match client.listener with
    | .handleInitialHandshake => client.handleInitialHandshake generation data turn
    | .handleMessage => client.handleMessage config generation data bytes turn
    | .nobody => client
  else client

/-- The timer of `scheduleRequestAcknowledgment`. -/
def acknowledgmentTimer (key : ℕ) (outcome : WriteOutcome) : ClientSession Payload :=
  match client.handled.get? key with
  | none => client
  | some message =>
      if message.timer then
        ({ client with
          handled := client.handled.set key { message with timer := false } }.writeMessage
            message.generation (.receiptFor (message.data.requestId.getD "")) outcome).1
      else client

/-- `handleServerRequest` after the handler; a notification has no reply. -/
def writeReply (message : HandledMessage Payload) (error : Option String)
    (userError : Option Bool) (fields : List (String × Option Payload)) (outcome : WriteOutcome) :
    ClientSession Payload :=
  if message.data.isSrpcNotification then client
  else (client.writeMessage message.generation
    (.replyTo (message.data.requestId.getD "") error userError fields) outcome).1

/-- The end of `handleMessage`: the receipt is cancelled, and the pressure of the generation goes
down. -/
def forget (key : ℕ) (message : HandledMessage Payload) : ClientSession Payload :=
  if client.IsCurrent message.generation then
    { client with
      handled := client.handled.erase key
      inFlight := client.inFlight - 1
      inFlightBytes := client.inFlightBytes - message.bytes }
  else { client with handled := client.handled.erase key }

/-- The handler of a message has its result. -/
def handlerFinished (key : ℕ) (error : Option String) (userError : Option Bool)
    (fields : List (String × Option Payload)) (outcome : WriteOutcome) : ClientSession Payload :=
  match client.handled.get? key with
  | none => client
  | some message => (client.writeReply message error userError fields outcome).forget key message

end ClientSession

end ServerFoundation.Srpc
