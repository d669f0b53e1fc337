import ServerFoundation.Data.JsObject
import ServerFoundation.Data.Json
import ServerFoundation.Data.TransitionSystem

/-!
# Mesh link peers

One end of an authenticated link between two processes. A request frame starts a
handler, and its result is kept for a minute so that a retry is answered without
running the handler again. Room for a small tombstone is reserved when a request is
admitted; the reservation is given back in the `finally` block of the handler, which
runs in a later microtask than the one that stores the result.

Headers are objects whose members are already written as JSON. Bodies are of an
arbitrary type with a byte length. Whether a frame that the socket is open for can be
sent, given its size and what is buffered, is decided by the environment.
-/

namespace ServerFoundation.MeshLink

/-- Requests in flight at one time. -/
def maxInFlightRequests : ℕ := 4096

/-- Their bytes. -/
def maxInFlightRequestBytes : ℕ := 64 * 1024 * 1024

/-- Completed requests that are remembered. -/
def maxCompletedRequests : ℕ := 4096

/-- Their bytes. -/
def maxCompletedRequestBytes : ℕ := 64 * 1024 * 1024

/-- Bytes that are reserved for tombstones. -/
def completedTombstoneReserveBytes : ℕ := 2 * 1024 * 1024

/-- How long a completed request is remembered. -/
def completedRequestTtlMs : ℕ := 60000

/-- `Omit<MeshLinkFrameHeader, 'version'>`, with the values of its members written. -/
abbrev Header := JsObject (List Char)

/-- `Buffer.byteLength(JSON.stringify(header))`. -/
def headerBytes (header : Header) : ℕ :=
  (String.ofList (Json.object (JsObject.ownEntries header))).utf8ByteSize

/-- What `handleMessage` reads of a decoded frame. -/
structure FrameHeader where
  type : String
  id : Option String
  replyTo : Option String
deriving DecidableEq, Repr

/-- A received message: its length, and its frame if `decodeMeshLinkFrame` accepts it. -/
structure Message where
  length : ℕ
  header : Option FrameHeader
deriving DecidableEq, Repr

/-- A property that is present and not the empty string. -/
def truthy (property : Option String) : Option String := property.filter (· ≠ "")

/-- `PendingRequest`. -/
structure PendingRequest where
  clientId : String
  accepted : Bool
  dispatched : Bool
deriving DecidableEq, Repr

/-- `CompletedIncomingRequest`. -/
structure CompletedIncomingRequest (Body : Type) where
  header : Header
  body : Option Body
  expiresAt : ℕ
  retainedBytes : ℕ

/-- `MeshLinkIncomingBudget`, which all peers of a runtime share. -/
structure IncomingBudget where
  activeRequests : ℕ
  activeBytes : ℕ
deriving DecidableEq, Repr

/-- `MeshLinkPeer`, with the frames that it has sent. -/
structure Peer (Body : Type) where
  pending : OrderedMap String PendingRequest
  closed : Bool
  activeIncomingRequests : ℕ
  activeIncomingBytes : ℕ
  activeIncoming : OrderedMap String ℕ
  activeIncomingTombstones : OrderedMap String ℕ
  activeIncomingTombstoneBytes : ℕ
  completedIncoming : OrderedMap String (CompletedIncomingRequest Body)
  completedIncomingBytes : ℕ
  incomingBudget : Option IncomingBudget
  sent : List (Header × Option Body)

/-- How a handler settles: with a response, or with an error of which the reply carries the
message, the name, and whether it is a user error. -/
inductive Outcome (Body : Type) where
  | resolved (header : Header) (body : Body)
  | rejected (error : String) (errorName : Option String) (userError : Option Bool)

section Headers

/-- A string as JSON writes it. -/
def quoted (text : String) : List Char := Json.quote text

/-- A flag as JSON writes it. -/
def written (value : Bool) : List Char := if value then "true".toList else "false".toList

/-- The reply to a request that is accepted. -/
def acceptedHeader (requestId : String) : Header :=
  JsObject.fromEntries [("type", quoted "accepted"), ("replyTo", quoted requestId)]

/-- A failed result with a text and an error name. -/
def failureHeader (requestId error errorName : String) : Header :=
  JsObject.fromEntries
    [("type", quoted "result"), ("replyTo", quoted requestId), ("ok", written false),
      ("error", quoted error), ("errorName", quoted errorName)]

/-- The refusal of a request beyond the limits. -/
def tooManyHeader (requestId : String) : Header :=
  failureHeader requestId "Too many in-flight sRPC mesh requests or bytes" "SrpcBackpressureError"

/-- The refusal when nothing can be remembered. -/
def dedupeFullHeader (requestId : String) : Header :=
  failureHeader requestId "Completed sRPC mesh request dedupe capacity is full"
    "SrpcBackpressureError"

/-- The reply that a tombstone stands for. -/
def tombstoneHeader (requestId : String) : Header :=
  failureHeader requestId "Completed sRPC mesh response is no longer replayable"
    "SrpcIndeterminateDeliveryError"

/-- `Buffer.byteLength(JSON.stringify(header))` for the header of a tombstone. -/
def tombstoneBytes (requestId : String) : ℕ := headerBytes (tombstoneHeader requestId)

/-- The header under which the outcome of a handler is stored and sent. -/
def Outcome.header {Body : Type} (requestId : String) : Outcome Body → Header
  | .resolved header _ =>
      JsObject.define (JsObject.spread .empty header)
        [("type", quoted "result"), ("replyTo", quoted requestId), ("ok", written true)]
  | .rejected error errorName userError =>
      JsObject.fromEntries
        ([("type", quoted "result"), ("replyTo", quoted requestId), ("ok", written false),
          ("error", quoted error)] ++
          errorName.toList.map (fun name => ("errorName", quoted name)) ++
          userError.toList.map fun flag => ("userError", written flag))

/-- The body of an outcome. -/
def Outcome.body {Body : Type} : Outcome Body → Option Body
  | .resolved _ body => some body
  | .rejected _ _ _ => none

end Headers

namespace Peer

variable {Body : Type} (byteLength : Body → ℕ) (peer : Peer Body)

/-- A peer without requests. -/
def fresh (incomingBudget : Option IncomingBudget) : Peer Body where
  pending := .empty
  closed := false
  activeIncomingRequests := 0
  activeIncomingBytes := 0
  activeIncoming := .empty
  activeIncomingTombstones := .empty
  activeIncomingTombstoneBytes := 0
  completedIncoming := .empty
  completedIncomingBytes := 0
  incomingBudget
  sent := []

/-- `close`, which rejects all pending requests of this side. -/
def close : Peer Body := { peer with closed := true, pending := .empty }

/-- `send`, or nothing when it throws. -/
def send (fits : Bool) (header : Header) (body : Option Body) : Option (Peer Body) :=
  if peer.closed = false ∧ fits then some { peer with sent := peer.sent ++ [(header, body)] }
  else none

/-- `sendReply`. -/
def sendReply (fits : Bool) (header : Header) (body : Option Body) : Peer Body :=
  (peer.send fits header body).getD peer.close

section Completed

/-- `removeCompleted`. -/
def removeCompleted (requestId : String) : Peer Body :=
  match peer.completedIncoming.get? requestId with
  | none => peer
  | some completed =>
      { peer with
        completedIncoming := peer.completedIncoming.erase requestId
        completedIncomingBytes := peer.completedIncomingBytes - completed.retainedBytes }

/-- One round of the loop in `pruneCompletedIncoming`. -/
def removeExpired (now : ℕ) (entry : String × CompletedIncomingRequest Body) : Peer Body :=
  if entry.2.expiresAt ≤ now then peer.removeCompleted entry.1 else peer

/-- `pruneCompletedIncoming`. -/
def pruneCompletedIncoming (now : ℕ) : Peer Body :=
  peer.completedIncoming.entries.foldl (removeExpired · now) peer

/-- `createCompletedTombstone`. -/
def createCompletedTombstone (now : ℕ) (requestId : String) : CompletedIncomingRequest Body where
  header := tombstoneHeader requestId
  body := none
  expiresAt := now + completedRequestTtlMs
  retainedBytes := tombstoneBytes requestId

/-- `canReserveCompletedRequest`. -/
def canReserveCompletedRequest (bytes : ℕ) : Bool :=
  peer.completedIncoming.size + peer.activeIncoming.size < maxCompletedRequests ∧
    peer.completedIncomingBytes + peer.activeIncomingTombstoneBytes + bytes ≤
      maxCompletedRequestBytes

/-- `projectedCount` of `storeCompleted`, of a pruned peer. -/
def projectedCount (requestId : String) : ℤ :=
  let existing := peer.completedIncoming.get? requestId
  let activeTombstoneBytes := (peer.activeIncomingTombstones.get? requestId).getD 0
  let activeReservationCount : ℕ := if activeTombstoneBytes = 0 then 0 else 1
  peer.completedIncoming.size - (if existing.isSome then 1 else 0 : ℕ) + 1 +
    peer.activeIncoming.size - activeReservationCount

/-- `projectedBytes` of `storeCompleted`, of a pruned peer. -/
def projectedBytes (requestId : String) (retainedBytes : ℕ) : ℤ :=
  let existing := peer.completedIncoming.get? requestId
  let activeTombstoneBytes := (peer.activeIncomingTombstones.get? requestId).getD 0
  peer.completedIncomingBytes - ((existing.map (·.retainedBytes)).getD 0 : ℕ) + retainedBytes +
    peer.activeIncomingTombstoneBytes - activeTombstoneBytes

/-- The peer with the entry stored, or nothing when `storeCompleted` returns false. -/
def storeCompleted (now : ℕ) (requestId : String) (completed : CompletedIncomingRequest Body) :
    Option (Peer Body) :=
  let pruned := peer.pruneCompletedIncoming now
  if pruned.projectedCount requestId > maxCompletedRequests ∨
      pruned.projectedBytes requestId completed.retainedBytes > maxCompletedRequestBytes then none
  else
    let removed := pruned.removeCompleted requestId
    some { removed with
      completedIncoming := removed.completedIncoming.set requestId completed
      completedIncomingBytes := removed.completedIncomingBytes + completed.retainedBytes }

/-- The entry that holds the full outcome. -/
def fullEntry (now : ℕ) (requestId : String) (outcome : Outcome Body) :
    CompletedIncomingRequest Body where
  header := outcome.header requestId
  body := outcome.body
  expiresAt := now + completedRequestTtlMs
  retainedBytes :=
    headerBytes (outcome.header requestId) + (outcome.body.map byteLength).getD 0

/-- A failed `storeCompleted` still prunes. -/
def rememberCompleted (now : ℕ) (requestId : String) (outcome : Outcome Body) : Peer Body :=
  let full := fullEntry byteLength now requestId outcome
  let tombstone := createCompletedTombstone now requestId
  let stored :=
    if full.retainedBytes ≤ maxCompletedRequestBytes - completedTombstoneReserveBytes then
      peer.storeCompleted now requestId full
    else none
  (stored.or (peer.storeCompleted now requestId tombstone)).getD
    (peer.pruneCompletedIncoming now)

end Completed

section Incoming

/-- The request is charged to the peer and to the shared budget. -/
def charge (requestId : String) (requestBytes : ℕ) : Peer Body :=
  { peer with
    activeIncomingRequests := peer.activeIncomingRequests + 1
    activeIncomingBytes := peer.activeIncomingBytes + requestBytes
    activeIncoming := peer.activeIncoming.set requestId requestBytes
    activeIncomingTombstones :=
      peer.activeIncomingTombstones.set requestId (tombstoneBytes requestId)
    activeIncomingTombstoneBytes := peer.activeIncomingTombstoneBytes + tombstoneBytes requestId
    incomingBudget := peer.incomingBudget.map fun budget =>
      ⟨budget.activeRequests + 1, budget.activeBytes + requestBytes⟩ }

/-- `releaseIncomingRequest`. -/
def releaseIncomingRequest (requestId : String) : Peer Body :=
  match peer.activeIncoming.get? requestId with
  | none => peer
  | some requestBytes =>
      { peer with
        activeIncoming := peer.activeIncoming.erase requestId
        activeIncomingRequests := peer.activeIncomingRequests - 1
        activeIncomingBytes := peer.activeIncomingBytes - requestBytes
        activeIncomingTombstones := peer.activeIncomingTombstones.erase requestId
        activeIncomingTombstoneBytes :=
          peer.activeIncomingTombstoneBytes -
            (peer.activeIncomingTombstones.get? requestId).getD 0
        incomingBudget := peer.incomingBudget.map fun budget =>
          ⟨budget.activeRequests - 1, budget.activeBytes - requestBytes⟩ }

/-- The request would exceed the limits on requests in flight. -/
def overInFlightLimits (requestBytes : ℕ) : Bool :=
  maxInFlightRequests ≤ peer.activeIncomingRequests ∨
    maxInFlightRequestBytes < peer.activeIncomingBytes + requestBytes ∨
    peer.incomingBudget.any fun budget =>
      maxInFlightRequests ≤ budget.activeRequests ∨
        maxInFlightRequestBytes < budget.activeBytes + requestBytes

/-- `handleMessage` for a request frame, and whether its handler is started. -/
def handleRequest (now : ℕ) (fits : Bool) (requestId : String) (requestBytes : ℕ) :
    Peer Body × Bool :=
  let pruned := peer.pruneCompletedIncoming now
  if (pruned.activeIncoming.get? requestId).isSome then
    (pruned.sendReply fits (acceptedHeader requestId) none, false)
  else
    match pruned.completedIncoming.get? requestId with
    | some completed => (pruned.sendReply fits completed.header completed.body, false)
    | none =>
        if pruned.overInFlightLimits requestBytes then
          (pruned.sendReply fits (tooManyHeader requestId) none, false)
        else if pruned.canReserveCompletedRequest (tombstoneBytes requestId) = false then
          (pruned.sendReply fits (dedupeFullHeader requestId) none, false)
        else
          let admitted := pruned.charge requestId requestBytes
          match admitted.send fits (acceptedHeader requestId) none with
          | some sent => (sent, true)
          | none => ((admitted.releaseIncomingRequest requestId).close, false)

/-- `handleMessage` for a reply to a request of this side. -/
def handleReply (type replyTo : String) : Peer Body :=
  match peer.pending.get? replyTo with
  | none => peer
  | some request =>
      { peer with
        pending :=
          if type = "accepted" then peer.pending.set replyTo { request with accepted := true }
          else peer.pending.erase replyTo }

/-- `handleMessage`, with the request whose handler is started, if any. -/
def handleMessage (now : ℕ) (fits : Bool) (message : Message) : Peer Body × Option String :=
  match message.header with
  | none => (peer.close, none)
  | some header =>
      match truthy header.replyTo with
      | some replyTo => (peer.handleReply header.type replyTo, none)
      | none =>
          match truthy header.id with
          | none => (peer.close, none)
          | some requestId =>
              let handled := peer.handleRequest now fits requestId message.length
              (handled.1, if handled.2 then some requestId else none)

end Incoming

end Peer

end ServerFoundation.MeshLink
