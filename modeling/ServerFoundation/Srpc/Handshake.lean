import Mathlib.Data.List.Dedup
import Mathlib.Data.Finset.Dedup
import ServerFoundation.Data.JsObject
import ServerFoundation.Data.Json

/-!
# The sRPC handshake

What `SrpcServer.verifyClient` and `validateClientAuth` do with the query of a
WebSocket upgrade under the built-in HMAC authentication, from the first check to
the `StreamInfo` that the connection is created with. The work is cut where the
source awaits: checks up to the key lookup, the signature check that follows it,
the consumption of the replay token, and the construction of the stream
information.

The key lookup, the HMAC and the admission hook are supplied from outside. The
query arrives as the decoded list of its parameters.
-/

namespace ServerFoundation.Srpc

/-- A query as an object, as `Object.fromEntries(url.searchParams.entries())` builds it. -/
abbrev Query := JsObject String

section Metadata

/-- The parameters that are no metadata. -/
def systemQueryParameterNames : List String :=
  ["pv", "_v", "appv", "ts", "nonce", "aud", "id", "cid", "signature", "cap", "supersede",
    "_supersede"]

/-- `key.slice(3)` of a key that starts with `m--`. -/
def legacyKey (key : String) : Option String :=
  match key.toList with
  | 'm' :: '-' :: '-' :: rest => some (String.ofList rest)
  | _ => none

/-- The loop body of `srpcQueryMetadata` on `legacyMetadata` and `metadata`. -/
def collectMetadata (collected : Query × Query) (entry : String × String) : Query × Query :=
  if entry.1 ∈ systemQueryParameterNames then collected
  else
    match legacyKey entry.1 with
    | some key => (JsObject.assign collected.1 key entry.2, collected.2)
    | none => (collected.1, JsObject.assign collected.2 entry.1 entry.2)

/-- `srpcQueryMetadata`. -/
def srpcQueryMetadata (query : Query) : Query :=
  let (legacyMetadata, metadata) :=
    (JsObject.ownEntries query).foldl collectMetadata (.empty, .empty)
  JsObject.spread (JsObject.spread .empty legacyMetadata) metadata

/-- The sign of a comparison by code units. -/
def compareCodeUnits (left right : String) : ℤ :=
  if JsText.units left < JsText.units right then -1
  else if JsText.units right < JsText.units left then 1 else 0

/-- `normalizeMetadata`. -/
def normalizeMetadata (query : Query) : Query :=
  JsObject.fromEntries ((JsObject.ownEntries query).insertionSort fun left right =>
    compareCodeUnits left.1 right.1 ≤ 0)

end Metadata

section Capabilities

/-- Unique, sorted and joined by commas. -/
def normalizeCapabilities (capabilities : List String) : String :=
  String.ofList ([','].intercalate ((sortOn JsText.units capabilities.dedup).map String.toList))

/-- `text.split(',').filter(Boolean)`. -/
def splitCapabilities (text : String) : List String :=
  ((JsText.splitCommas text.toList).map String.ofList).filter fun capability => capability ≠ ""

/-- `handshakeCapabilities`. -/
def handshakeCapabilities (query : Query) : String :=
  normalizeCapabilities (splitCapabilities ((query.get? "cap").getD ""))

/-- `isSupersedeRequested`. -/
def isSupersedeRequested (query : Query) : Bool :=
  query.get? "supersede" = some "1" ∨
    (query.get? "supersede" = none ∧ query.get? "_supersede" = some "1")

end Capabilities

/-- The protocol versions a server speaks. -/
inductive ProtocolVersion where
  | v1 | v2 | v3 | v4
deriving DecidableEq, Repr

namespace ProtocolVersion

/-- The number of a version. -/
def number : ProtocolVersion → ℕ
  | v1 => 1
  | v2 => 2
  | v3 => 3
  | v4 => 4

/-- `String(protocolVersion)`. -/
def text (version : ProtocolVersion) : String := Nat.repr version.number

/-- The version that a number is, if it is one. -/
def ofNumber (number : JsNumber) : Option ProtocolVersion :=
  [v1, v2, v3, v4].find? fun version => number = .finite version.number

/-- Versions that use the canonical signature. -/
def isCanonical (version : ProtocolVersion) : Bool := 3 ≤ version.number

end ProtocolVersion

section Signature

/-- The fields that the canonical signature covers. -/
structure AuthFields where
  path : String
  audience : String
  appv : String
  ts : String
  nonce : String
  id : String
  cid : String
  protocol : String
  supersede : String
  capabilities : String
  metadata : Query

/-- The fields that are plain strings, in the order of the object literal. -/
def AuthFields.texts (fields : AuthFields) : List (String × String) :=
  [("path", fields.path), ("audience", fields.audience), ("appv", fields.appv),
    ("ts", fields.ts), ("nonce", fields.nonce), ("id", fields.id), ("cid", fields.cid),
    ("protocol", fields.protocol), ("supersede", fields.supersede),
    ("capabilities", fields.capabilities)]

/-- `JSON.stringify({ version: 2, ...fields })`. -/
def canonicalAuthV2 (fields : AuthFields) : String :=
  String.ofList (Json.object
    (("version", ['2']) :: fields.texts.map (fun entry => (entry.1, Json.quote entry.2)) ++
      [("metadata", Json.record (JsObject.ownEntries fields.metadata))]))

/-- `String(meta.name ?? '')`. -/
def field (query : Query) (name : String) : String := (query.get? name).getD ""

/-- The fields that `validateClientAuth` collects from a query. -/
def authFields (path : String) (query : Query) (protocolVersion : ProtocolVersion) :
    AuthFields where
  path := path
  audience := field query "aud"
  appv := field query "appv"
  ts := field query "ts"
  nonce := field query "nonce"
  id := field query "id"
  cid := field query "cid"
  protocol := protocolVersion.text
  supersede := if isSupersedeRequested query then "1" else "0"
  capabilities := handshakeCapabilities query
  metadata := normalizeMetadata (srpcQueryMetadata query)

/-- The text under the signature of protocol versions 1 and 2. -/
def legacyAuthText (query : Query) : String :=
  "1\n" ++ field query "appv" ++ "\n" ++ field query "ts" ++ "\n" ++ field query "id" ++ "\n" ++
    field query "cid" ++ "\n"

/-- The text that the server recomputes to check a signature. -/
def signedText (path : String) (query : Query) (protocolVersion : ProtocolVersion) : String :=
  if protocolVersion.isCanonical then canonicalAuthV2 (authFields path query protocolVersion)
  else legacyAuthText query

/-- A letter, a digit, a dot, an underscore or a dash. -/
def isAuthTokenChar (char : Char) : Bool :=
  char.isAlphanum ∨ char = '.' ∨ char = '_' ∨ char = '-'

/-- `isAuthToken`. -/
def isAuthToken (value : String) : Bool :=
  16 ≤ JsText.length value ∧ JsText.length value ≤ 256 ∧ value.toList.all isAuthTokenChar

end Signature

/-- The options of a server that its handshakes read. -/
structure ServerOptions where
  defaultUnspecifiedProtocolVersion : Option ProtocolVersion
  authAudience : Option String
  maxClientIdBytes : ℕ
  maxPendingHandshakes : ℕ
  maxActiveStreams : ℕ
  maxClientMetadataBytes : ℕ
  maxAuthReplayPrincipals : ℕ
  supportsRequestAcknowledgments : Bool
  clockDriftMs : Option JsNumber

/-- An upgrade request: the path and the decoded query parameters. -/
structure Request where
  path : String
  parameters : List (String × String)
  address : String
deriving DecidableEq

/-- The query of a request. -/
def Request.query (request : Request) : Query := JsObject.fromEntries request.parameters

/-- Why a handshake is refused. -/
structure Rejection where
  event : String
  code : ℕ
  message : String
  reason : Option String
deriving DecidableEq, Repr

/-- The refusal of an `AuthenticationFailure`. -/
def authenticationFailure (reason : String) : Rejection :=
  ⟨"SRPC client authentication failed", 403, "Failed authentication", some reason⟩

/-- How busy the server is when a request arrives. -/
structure ServerLoad where
  pendingHandshakeCount : ℕ
  activeStreams : ℕ

/-- What a connection is created with. -/
structure StreamInfo where
  clientStreamId : String
  clientId : String
  appVersion : String
  configureTs : JsNumber
  protocolVersion : ProtocolVersion
  capabilities : Finset String
  supersede : Bool
  address : String
  metadata : Query

/-- A handshake that waits for its client key: what the first checks established. -/
structure Handshake where
  request : Request
  protocolVersion : ProtocolVersion
  timestamp : JsNumber
  driftMs : JsNumber
deriving DecidableEq

namespace Handshake

/-- The principal under which the replay token is consumed. -/
def clientId (handshake : Handshake) : String := field handshake.request.query "cid"

/-- The nonce, or the signed stream id where the protocol has no nonce. -/
def replayToken (handshake : Handshake) : String :=
  if handshake.protocolVersion.isCanonical then field handshake.request.query "nonce"
  else field handshake.request.query "id"

/-- When the token of a handshake expires. -/
def expiresAt (handshake : Handshake) : JsNumber := handshake.timestamp.add handshake.driftMs

end Handshake

section Verification

variable (options : ServerOptions)

/-- The protocol version of a query: `pv`, else `_v`, else the configured default. -/
def protocolVersionOf (query : Query) : Option ProtocolVersion :=
  match (query.get? "pv").or (query.get? "_v") with
  | some parameter => ProtocolVersion.ofNumber (JsNumber.ofText parameter)
  | none => options.defaultUnspecifiedProtocolVersion

/-- `verifyClient` up to the call of `validateClientAuth`. -/
def checkRequest (load : ServerLoad) (query : Query) : Except Rejection ProtocolVersion :=
  match protocolVersionOf options query with
  | none => .error ⟨"SRPC client missing required handshake parameters", 400,
      "Missing required query parameters", none⟩
  | some protocolVersion =>
      if field query "id" = "" ∨ field query "cid" = "" ∨ field query "appv" = "" then
        .error ⟨"SRPC client missing required handshake parameters", 400,
          "Missing required query parameters", none⟩
      else if options.maxClientIdBytes < (field query "cid").utf8ByteSize then
        .error ⟨"SRPC client ID exceeds the configured limit", 400,
          "Client ID exceeds the configured limit", none⟩
      else if options.maxPendingHandshakes ≤ load.pendingHandshakeCount then
        .error ⟨"SRPC handshake capacity exceeded", 503, "Too many pending client handshakes", none⟩
      else if options.maxActiveStreams ≤ load.activeStreams then
        .error ⟨"SRPC active-stream capacity exceeded", 503, "Too many active client streams", none⟩
      else if 4 ≤ protocolVersion.number ∧ ¬options.supportsRequestAcknowledgments then
        .error ⟨"SRPC v4 codec is missing request acknowledgments", 400,
          "Protocol v4 requires request acknowledgment codecs", none⟩
      else .ok protocolVersion

/-- `MAX_SAFE_TIMER_MS`. -/
def maxSafeTimerMs : JsNumber := .finite 0x7fffffff

/-- `config?.SRPC_AUTH_CLOCK_DRIFT_MS ?? 30_000`. -/
def driftMs : JsNumber := options.clockDriftMs.getD (.finite 30000)

/-- `validateClientAuth` up to the key lookup, with the clock it reads. -/
def checkCredentials (now : ℤ) (request : Request) (protocolVersion : ProtocolVersion) :
    Except Rejection Handshake :=
  let query := request.query
  let tsInt := JsNumber.ofText (field query "ts")
  if field query "appv" = "" ∨ field query "ts" = "" ∨ field query "id" = "" ∨
      field query "cid" = "" ∨ field query "signature" = "" then
    .error (authenticationFailure "missing required credentials")
  else if ¬tsInt.isFinite then .error (authenticationFailure "invalid timestamp")
  else if ¬(driftMs options).isSafeInteger ∨ (driftMs options).le (.finite 0) ∨
      maxSafeTimerMs.lt (driftMs options) then
    .error (authenticationFailure "invalid server clock-drift configuration")
  else if (driftMs options).lt ((JsNumber.finite now).sub tsInt).abs then
    .error (authenticationFailure "expired timestamp")
  else if protocolVersion.isCanonical ∧
      (¬isAuthToken (field query "nonce") ∨ field query "aud" = "") then
    .error (authenticationFailure "invalid protocol credentials")
  else .ok ⟨request, protocolVersion, tsInt, driftMs options⟩

/-- Everything before the first await. -/
def beginHandshake (load : ServerLoad) (now : ℤ) (request : Request) :
    Except Rejection Handshake := do
  let protocolVersion ← checkRequest options load request.query
  checkCredentials options now request protocolVersion

/-- `validateClientAuth` from the key lookup to the replay token. -/
def checkSignature (hmac : String → String → String) (clientKey : Option String)
    (handshake : Handshake) : Except Rejection Unit :=
  let query := handshake.request.query
  match clientKey with
  | none => .error (authenticationFailure "unknown client key")
  | some clientKey =>
      if field query "signature" ≠
          hmac clientKey (signedText handshake.request.path query handshake.protocolVersion) then
        .error (authenticationFailure "invalid signature")
      else if handshake.protocolVersion.isCanonical ∧
          field query "aud" ≠ options.authAudience.getD handshake.request.path then
        .error (authenticationFailure "invalid audience")
      else .ok ()

/-- The failure reported when the replay token cannot be consumed. -/
def replayFailure (protocolVersion : ProtocolVersion) : Rejection :=
  authenticationFailure
    (if protocolVersion.isCanonical then "replayed nonce" else "replayed stream ID")

/-- `verifyClient` after a successful authentication. -/
def streamInfo (handshake : Handshake) : Except Rejection StreamInfo :=
  let query := handshake.request.query
  let mergedMeta := JsObject.spread (JsObject.spread .empty (srpcQueryMetadata query)) .empty
  if options.maxClientMetadataBytes <
      (String.ofList (Json.record (JsObject.ownEntries mergedMeta))).utf8ByteSize then
    .error ⟨"SRPC client metadata exceeds the configured limit", 400,
      "Client metadata exceeds the configured limit", none⟩
  else
    .ok {
      clientStreamId := field query "id"
      clientId := field query "cid"
      appVersion := field query "appv"
      configureTs :=
        match query.get? "ts" with
        | some ts => JsNumber.ofText ts
        | none => .finite 0
      protocolVersion := handshake.protocolVersion
      capabilities :=
        (if handshake.protocolVersion.isCanonical then
          splitCapabilities (handshakeCapabilities query)
        else []).toFinset
      supersede := isSupersedeRequested query
      address := handshake.request.address
      metadata := mergedMeta }

/-- What one handshake meets: the load, the clock, the key that was found, and the answers of the
replay guard and of the admission hook. -/
structure Surroundings where
  load : ServerLoad
  checkedAt : ℤ
  clientKey : Option String
  consumeAuthReplayToken : String → String → JsNumber → Bool
  beforeClientAdmission : Except Rejection Unit

/-- A whole handshake. -/
def verifyClient (hmac : String → String → String) (around : Surroundings) (request : Request) :
    Except Rejection StreamInfo := do
  let handshake ← beginHandshake options around.load around.checkedAt request
  checkSignature options hmac around.clientKey handshake
  if around.consumeAuthReplayToken handshake.clientId handshake.replayToken handshake.expiresAt then
    around.beforeClientAdmission
    streamInfo options handshake
  else .error (replayFailure handshake.protocolVersion)

end Verification

end ServerFoundation.Srpc
