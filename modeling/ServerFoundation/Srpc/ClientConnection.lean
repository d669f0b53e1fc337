import ServerFoundation.Data.TransitionSystem

/-!
# Connections of an SRPC client

`connect()`, `disconnect()` and `revokeGeneration` of `SrpcClient`, with the user
callbacks that run in the middle of them. A disconnect handler may call back into
the client at once, so an API call comes with the calls that the disconnect
handlers make if it makes them run. Connection handlers run last in
`completeConnection` and their calls are ordinary ones.

Each `connect()` opens a new generation, so a generation names its WebSocket, its
connect timeout and the promise that the call returned. The model remembers which
promises were returned and which have been settled.
-/

namespace ServerFoundation.Srpc

/-- A call of the API, with the calls of the disconnect handlers that it runs. A connect is not
accepted when the URL cannot be built, a send is refused when the socket throws. -/
inductive ClientCall where
  | connect (accepted : Bool) (handlers : List ClientCall)
  | disconnect (handlers : List ClientCall)
  | send (refused : Bool) (handlers : List ClientCall)

/-- `SrpcClient`. -/
structure SrpcClient where
  generation : ℕ
  ws : Option ℕ
  wsOpen : Bool
  isConnected : Bool
  intentionalDisconnect : Bool
  enableReconnect : Bool
  reconnectionTimeout : Bool
  connectTimeout : Option ℕ
  connectPair : Option ℕ
  returned : List ℕ
  settled : List ℕ
deriving DecidableEq, Repr

namespace SrpcClient

/-- A client that has not been connected. -/
def initial (enableReconnect : Bool) : SrpcClient :=
  ⟨0, none, false, false, false, enableReconnect, false, none, none, [], []⟩

variable (client : SrpcClient)

/-- The generation is current. -/
def IsCurrent (generation : ℕ) : Prop :=
  client.ws = some generation ∧ client.generation = generation

instance (generation : ℕ) : Decidable (client.IsCurrent generation) :=
  inferInstanceAs (Decidable (_ ∧ _))

/-- `connectResolve` or `connectReject` is called and the pair is forgotten. -/
def settlePair : SrpcClient :=
  { client with settled := client.connectPair.toList ++ client.settled, connectPair := none }

/-- `connect()` up to the disconnect handlers. -/
def beginConnect : SrpcClient :=
  { client.settlePair with
    reconnectionTimeout := false, connectTimeout := none, isConnected := false }

/-- `connect()` after the disconnect handlers. It throws before there is a new socket when the
URL cannot be built. -/
def finishConnect (accepted : Bool) : SrpcClient :=
  let generation := client.generation + 1
  if accepted then
    { client with
      generation
      intentionalDisconnect := false
      ws := some generation
      wsOpen := false
      connectTimeout := some generation
      connectPair := some generation
      returned := generation :: client.returned }
  else { client with generation, intentionalDisconnect := false, ws := none, wsOpen := false }

/-- `revokeGeneration` up to the disconnect handlers. -/
def beginRevoke : SrpcClient :=
  { client.settlePair with
    connectTimeout := none, isConnected := false, ws := none, wsOpen := false }

/-- `revokeGeneration` after the disconnect handlers. -/
def finishRevoke (suppressReconnect : Bool) : SrpcClient :=
  if client.enableReconnect = true ∧ suppressReconnect = false ∧
      client.intentionalDisconnect = false ∧ client.reconnectionTimeout = false then
    { client with reconnectionTimeout := true }
  else client

/-- `disconnect()` up to `revokeGeneration`. -/
def beginDisconnect : SrpcClient :=
  { client with
    enableReconnect := false
    intentionalDisconnect := true
    connectTimeout := none
    reconnectionTimeout := false }

/-- Whether a send reaches the limits and the socket. -/
def CanSend : Prop := client.IsCurrent client.generation ∧ client.wsOpen = true

instance : Decidable client.CanSend := inferInstanceAs (Decidable (_ ∧ _))

mutual

/-- The effect of one call. -/
def run (client : SrpcClient) : ClientCall → SrpcClient
  | .connect accepted handlers =>
      let handled :=
        if client.isConnected then client.beginConnect.runAll handlers else client.beginConnect
      handled.finishConnect accepted
  | .disconnect handlers =>
      if client.IsCurrent client.generation then
        let handled :=
          if client.isConnected then client.beginDisconnect.beginRevoke.runAll handlers
          else client.beginDisconnect.beginRevoke
        handled.finishRevoke true
      else client.beginDisconnect
  | .send refused handlers =>
      if client.CanSend ∧ refused = true then
        let handled :=
          if client.isConnected then client.beginRevoke.runAll handlers else client.beginRevoke
        handled.finishRevoke false
      else client

/-- The effect of the calls of handlers, in order. -/
def runAll (client : SrpcClient) : List ClientCall → SrpcClient
  | [] => client
  | call :: rest => (client.run call).runAll rest

end

/-- `revokeGeneration`. -/
def revokeGeneration (generation : ℕ) (suppressReconnect : Bool) (handlers : List ClientCall) :
    SrpcClient :=
  if client.IsCurrent generation then
    let handled :=
      if client.isConnected then client.beginRevoke.runAll handlers else client.beginRevoke
    handled.finishRevoke suppressReconnect
  else client

/-- `completeConnection` up to the connection handlers. -/
def completeConnection (generation : ℕ) : SrpcClient :=
  if client.IsCurrent generation ∧ client.isConnected = false then
    { client.settlePair with connectTimeout := none, isConnected := true }
  else client

end SrpcClient

/-- What happens to a client. Socket events carry the generation of their socket. -/
inductive ClientEvent where
  | call (call : ClientCall)
  | opened (generation : ℕ)
  | activated (generation : ℕ) (handlers : List ClientCall)
  | closed (generation : ℕ) (conflict : Bool) (handlers : List ClientCall)
  | failed (generation : ℕ) (handlers : List ClientCall)
  | protocolError (generation : ℕ) (handlers : List ClientCall)
  | connectTimeout (generation : ℕ) (handlers : List ClientCall)
  | reconnect (accepted : Bool) (handlers : List ClientCall)

namespace SrpcClient

/-- What an event does to the client. -/
def advance (client : SrpcClient) : ClientEvent → SrpcClient
  | .call call => client.run call
  | .opened generation =>
      if client.IsCurrent generation then { client with wsOpen := true } else client
  | .activated generation handlers =>
      if client.IsCurrent generation ∧ client.isConnected = false then
        (client.completeConnection generation).runAll handlers
      else client
  | .closed generation conflict handlers => client.revokeGeneration generation conflict handlers
  | .failed generation handlers => client.revokeGeneration generation false handlers
  | .protocolError generation handlers => client.revokeGeneration generation false handlers
  | .connectTimeout generation handlers =>
      if client.connectTimeout = some generation then
        client.revokeGeneration generation false handlers
      else client
  | .reconnect accepted handlers =>
      if client.reconnectionTimeout then
        { client with reconnectionTimeout := false }.run (.connect accepted handlers)
      else client

/-- The runs of a client, with any choice of `enableReconnect`. -/
def system : TransitionSystem SrpcClient ClientEvent where
  Init client := ∃ enableReconnect, client = initial enableReconnect
  Step before event after := after = before.advance event

end SrpcClient

end ServerFoundation.Srpc
