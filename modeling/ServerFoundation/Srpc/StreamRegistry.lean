import ServerFoundation.Data.OrderedMap
import ServerFoundation.Data.TransitionSystem

/-!
# The stream registry of an SRPC server

The maps in which `SrpcServer` keeps its streams, and the flags of each stream object that say
how far its life has come. A stream object has a number; the maps refer to objects. The
asynchronous chain that `handleStreamEstablished` starts is one step for each of its awaits, so
that anything may happen in between.

Handlers, observers and loggers are user code that runs in the middle of a step. What such a
callback does to the registry is to revoke streams, and a step lists the streams that its
callbacks revoke, with those that further callbacks revoke in turn. A callback knows no stream
that is not yet in the registry.
-/

namespace ServerFoundation.Srpc

/-- What the chain of `handleStreamEstablished` waits for. -/
inductive EstablishPhase where
  | postEstablishCheck
  | onStreamWillActivate
  | onStreamConnected
  | onStreamActivated
  | finished
deriving DecidableEq, Repr

/-- The part of a stream object that the registry uses. -/
structure StreamRecord where
  id : String
  clientId : String
  protocolVersion : ℕ
  supersede : Bool
  lastPingAt : ℤ
  isActivated : Bool
  isListening : Bool
  phase : EstablishPhase
deriving DecidableEq, Repr

/-- The maps of a server and its stream objects. -/
structure StreamRegistry where
  now : ℤ
  created : ℕ
  streams : OrderedMap ℕ StreamRecord
  streamsById : OrderedMap String ℕ
  streamsByClientId : OrderedMap String ℕ
  pendingStreamsByClientId : OrderedMap String ℕ

namespace StreamRegistry

/-- A server without streams. -/
def initial (now : ℤ) : StreamRegistry := ⟨now, 0, .empty, .empty, .empty, .empty⟩

variable (registry : StreamRegistry)

/-- `getCurrentStreamByClientId`. -/
def getCurrentStreamByClientId (clientId : String) : Option ℕ :=
  registry.pendingStreamsByClientId.get? clientId <|> registry.streamsByClientId.get? clientId

/-- `isStreamDispatchAvailable`: the stream is not revoked, and it is the current one. -/
def isAvailable (stream : ℕ) : Bool :=
  (registry.streams.get? stream).any fun record =>
    0 ≤ record.lastPingAt ∧ registry.getCurrentStreamByClientId record.clientId = some stream

/-- A stream object is changed. -/
def modify (stream : ℕ) (change : StreamRecord → StreamRecord) : StreamRegistry :=
  match registry.streams.get? stream with
  | none => registry
  | some record => { registry with streams := registry.streams.set stream (change record) }

/-- The entry of a client id is removed if it refers to this stream. -/
def removeEntry (map : OrderedMap String ℕ) (clientId : String) (stream : ℕ) :
    OrderedMap String ℕ :=
  if map.get? clientId = some stream then map.erase clientId else map

/-- `revokeStream` up to its callbacks. -/
def revokeStream (stream : ℕ) : StreamRegistry :=
  match registry.streams.get? stream with
  | none => registry
  | some record =>
      if record.lastPingAt < 0 then registry
      else
        { registry with
          streams := registry.streams.set stream { record with lastPingAt := -1 }
          streamsById := registry.streamsById.erase record.id
          pendingStreamsByClientId :=
            removeEntry registry.pendingStreamsByClientId record.clientId stream
          streamsByClientId := removeEntry registry.streamsByClientId record.clientId stream }

/-- Callbacks revoke streams, one after the other. -/
def callbacks (revoked : List ℕ) : StreamRegistry := revoked.foldl revokeStream registry

/-- `cleanupStream`, `closeStreamWithError` and `closeStreamGracefully`. -/
def cleanupStream (stream : ℕ) (revoked : List ℕ) : StreamRegistry :=
  (registry.revokeStream stream).callbacks revoked

/-- The stream is entered as the pending one of its client id. -/
def enter (stream : ℕ) (record : StreamRecord) : StreamRegistry :=
  { registry with
    streamsById := registry.streamsById.set record.id stream
    pendingStreamsByClientId := registry.pendingStreamsByClientId.set record.clientId stream }

/-- `handleStreamEstablished` up to `postEstablishCheck`. -/
def handleStreamEstablished (stream : ℕ) (record : StreamRecord) (revoked : List ℕ) :
    StreamRegistry :=
  match registry.getCurrentStreamByClientId record.clientId with
  | some conflictingStream =>
      if 2 ≤ record.protocolVersion ∧ record.supersede = false then
        registry.cleanupStream stream revoked
      else (registry.cleanupStream conflictingStream revoked).enter stream record
  | none => registry.enter stream record

/-- `createStream`. -/
def createStream (id clientId : String) (protocolVersion : ℕ) (supersede : Bool) : StreamRecord :=
  ⟨id, clientId, protocolVersion, supersede, registry.now, false, false, .postEstablishCheck⟩

/-- `attachConnection` with the stream that `createStream` makes. -/
def attachConnection (maxActiveStreams : ℕ) (record : StreamRecord) (revoked : List ℕ) :
    StreamRegistry :=
  if maxActiveStreams ≤ registry.streamsById.size then registry
  else
    { registry with
      created := registry.created + 1
      streams := registry.streams.set registry.created record }.handleStreamEstablished
        registry.created record revoked

/-- A frame is written: outbound observers run, or the stream is cleaned up. -/
def writeOrCleanup (stream : ℕ) (sent : Bool) (revoked : List ℕ) : StreamRegistry :=
  if sent ∧ registry.isAvailable stream then registry.callbacks revoked
  else registry.cleanupStream stream revoked

/-- `postEstablishCheck` has completed. -/
def established (stream : ℕ) (rejected sent : Bool) (revoked : List ℕ) : StreamRegistry :=
  if rejected ∨ registry.isAvailable stream = false then
    registry.modify stream fun record => { record with phase := .finished }
  else
    (registry.modify stream fun record =>
      { record with isListening := true, phase := .onStreamWillActivate }).writeOrCleanup stream
        sent revoked

/-- `onStreamWillActivate` has completed. -/
def willActivate (stream : ℕ) : StreamRegistry :=
  if registry.isAvailable stream = false then
    registry.modify stream fun record => { record with phase := .finished }
  else registry.modify stream fun record => { record with phase := .onStreamConnected }

/-- `activateStream`, with the observers that it notifies. -/
def activateStream (stream : ℕ) (revoked : List ℕ) : StreamRegistry :=
  match registry.streams.get? stream with
  | none => registry
  | some record =>
      if registry.isAvailable stream = false then registry
      else
        { registry with
          pendingStreamsByClientId := registry.pendingStreamsByClientId.erase record.clientId
          streams := registry.streams.set stream { record with isActivated := true }
          streamsByClientId :=
            registry.streamsByClientId.set record.clientId stream }.callbacks revoked

/-- `onStreamConnected` has completed. -/
def connected (stream : ℕ) (observers : List ℕ) (sent : Bool) (revoked : List ℕ) :
    StreamRegistry :=
  if registry.isAvailable stream = false then
    registry.modify stream fun record => { record with phase := .finished }
  else
    ((registry.modify stream fun record =>
      { record with phase := .onStreamActivated }).activateStream stream observers).writeOrCleanup
        stream sent revoked

/-- `onStreamActivated` has completed; the queued client requests may close the stream. -/
def activated (stream : ℕ) (revoked : List ℕ) : StreamRegistry :=
  (registry.modify stream fun record => { record with phase := .finished }).callbacks revoked

/-- The chain of `handleStreamEstablished` has failed. -/
def failed (stream : ℕ) (revoked : List ℕ) : StreamRegistry :=
  (registry.modify stream fun record => { record with phase := .finished }).cleanupStream stream
    revoked

/-- `handleStreamDataReceived`. Observers and the logger see the message first; a ping then
refreshes the stream; what follows may close it. -/
def handleStreamDataReceived (stream : ℕ) (isPing : Bool) (observers revoked : List ℕ) :
    StreamRegistry :=
  if registry.isAvailable stream = false then registry
  else
    let observed := registry.callbacks observers
    let refreshed :=
      if isPing then
        observed.modify stream fun record => { record with lastPingAt := registry.now }
      else observed
    refreshed.callbacks revoked

/-- The streams that `terminateInactiveStreams` finds inactive are cleaned up in order, each with
the streams that its callbacks revoke. -/
def terminateInactiveStreams (revoked : ℕ → List ℕ) : StreamRegistry :=
  registry.streamsById.entries.foldl (fun registry entry =>
    match registry.streams.get? entry.2 with
    | none => registry
    | some record =>
        if 0 ≤ record.lastPingAt ∧ record.lastPingAt < registry.now - 75000 then
          registry.cleanupStream entry.2 (revoked entry.2)
        else registry) registry

/-- `disconnectClient`, by client id or by stream. -/
def disconnectClient (streamOrClientId : ℕ ⊕ String) (revoked : List ℕ) : StreamRegistry :=
  let found :=
    match streamOrClientId with
    | .inl stream => some stream
    | .inr clientId => registry.streamsByClientId.get? clientId
  match found with
  | none => registry
  | some stream =>
      match registry.streams.get? stream with
      | none => registry
      | some record =>
          if registry.streamsById.get? record.id = some stream then
            registry.cleanupStream stream revoked
          else registry

/-- `close()` cleans up every stream. -/
def close (revoked : ℕ → List ℕ) : StreamRegistry :=
  registry.streamsById.entries.foldl
    (fun registry entry => registry.cleanupStream entry.2 (revoked entry.2)) registry

end StreamRegistry

/-- What happens on a server. -/
inductive RegistryEvent where
  | elapse (time : ℤ)
  | attach (id clientId : String) (protocolVersion : ℕ) (supersede : Bool) (revoked : List ℕ)
  | established (stream : ℕ) (rejected sent : Bool) (revoked : List ℕ)
  | willActivate (stream : ℕ)
  | connected (stream : ℕ) (observers : List ℕ) (sent : Bool) (revoked : List ℕ)
  | activated (stream : ℕ) (revoked : List ℕ)
  | failed (stream : ℕ) (revoked : List ℕ)
  | receive (stream : ℕ) (isPing : Bool) (observers revoked : List ℕ)
  | socketClosed (stream : ℕ) (revoked : List ℕ)
  | terminateInactiveStreams (revoked : ℕ → List ℕ)
  | disconnectClient (streamOrClientId : ℕ ⊕ String) (revoked : List ℕ)
  | close (revoked : ℕ → List ℕ)

namespace StreamRegistry

/-- What an event does to the registry. -/
def advance (maxActiveStreams : ℕ) (registry : StreamRegistry) : RegistryEvent → StreamRegistry
  | .elapse time => { registry with now := time }
  | .attach id clientId protocolVersion supersede revoked =>
      registry.attachConnection maxActiveStreams
        (registry.createStream id clientId protocolVersion supersede) revoked
  | .established stream rejected sent revoked => registry.established stream rejected sent revoked
  | .willActivate stream => registry.willActivate stream
  | .connected stream observers sent revoked => registry.connected stream observers sent revoked
  | .activated stream revoked => registry.activated stream revoked
  | .failed stream revoked => registry.failed stream revoked
  | .receive stream isPing observers revoked =>
      registry.handleStreamDataReceived stream isPing observers revoked
  | .socketClosed stream revoked => registry.cleanupStream stream revoked
  | .terminateInactiveStreams revoked => registry.terminateInactiveStreams revoked
  | .disconnectClient streamOrClientId revoked =>
      registry.disconnectClient streamOrClientId revoked
  | .close revoked => registry.close revoked

/-- The chain of the stream waits for this. -/
def Waits (registry : StreamRegistry) (stream : ℕ) (phase : EstablishPhase) : Prop :=
  (registry.streams.get? stream).map StreamRecord.phase = some phase

instance (registry : StreamRegistry) (stream : ℕ) (phase : EstablishPhase) :
    Decidable (registry.Waits stream phase) := inferInstanceAs (Decidable (_ = _))

/-- Time does not run backwards, stream ids are new, and each step of the chain follows its await.
-/
def Feasible (registry : StreamRegistry) : RegistryEvent → Prop
  | .elapse time => registry.now ≤ time
  | .attach id _ _ _ revoked =>
      (∀ entry ∈ registry.streams.entries, entry.2.id ≠ id) ∧
        ∀ stream ∈ revoked, stream < registry.created
  | .established stream _ _ _ => registry.Waits stream .postEstablishCheck
  | .willActivate stream => registry.Waits stream .onStreamWillActivate
  | .connected stream _ _ _ => registry.Waits stream .onStreamConnected
  | .activated stream _ => registry.Waits stream .onStreamActivated
  | .failed stream _ => ¬registry.Waits stream .finished
  | .receive stream _ _ _ =>
      (registry.streams.get? stream).map StreamRecord.isListening = some true
  | _ => True

instance Feasible.decidable : DecidableRel Feasible
  | registry, .elapse time => inferInstanceAs (Decidable (registry.now ≤ time))
  | registry, .attach id _ _ _ revoked =>
      inferInstanceAs (Decidable ((∀ entry ∈ registry.streams.entries, entry.2.id ≠ id) ∧
        ∀ stream ∈ revoked, stream < registry.created))
  | registry, .established stream _ _ _ =>
      inferInstanceAs (Decidable (registry.Waits stream .postEstablishCheck))
  | registry, .willActivate stream =>
      inferInstanceAs (Decidable (registry.Waits stream .onStreamWillActivate))
  | registry, .connected stream _ _ _ =>
      inferInstanceAs (Decidable (registry.Waits stream .onStreamConnected))
  | registry, .activated stream _ =>
      inferInstanceAs (Decidable (registry.Waits stream .onStreamActivated))
  | registry, .failed stream _ => inferInstanceAs (Decidable (¬registry.Waits stream .finished))
  | registry, .receive stream _ _ _ =>
      inferInstanceAs (Decidable
        ((registry.streams.get? stream).map StreamRecord.isListening = some true))
  | _, .socketClosed _ _ => isTrue trivial
  | _, .terminateInactiveStreams _ => isTrue trivial
  | _, .disconnectClient _ _ => isTrue trivial
  | _, .close _ => isTrue trivial

/-- The runs of a registry. -/
def system (maxActiveStreams : ℕ) : TransitionSystem StreamRegistry RegistryEvent where
  Init registry := ∃ now, 0 ≤ now ∧ registry = initial now
  Step before event after :=
    before.Feasible event ∧ after = before.advance maxActiveStreams event

end StreamRegistry

end ServerFoundation.Srpc
