import ServerFoundation.Data.NumberReading
import ServerFoundation.Data.TimingWheel
import ServerFoundation.MeshLink.Frames

/-!
# Authentication of mesh links

Each side of a new link proves that it knows the shared secret by signing its identity,
a timestamp and a nonce. The authenticator accepts a proof within the allowed clock skew
and remembers its nonce for as long as the timestamp could be accepted again; a timing
wheel of one-second buckets forgets the nonces that have expired. The digest is a
parameter, which is given the secret and the bytes that are fed to it.
-/

namespace ServerFoundation.MeshLink

/-- `DefaultClockSkewMs`. -/
def DefaultClockSkewMs : ℕ := 30000

/-- `NonceTtlMs`. -/
def NonceTtlMs : ℕ := 60000

/-- `MaxRememberedNonces`. -/
def MaxRememberedNonces : ℕ := 10000

/-- `NonceBucketMs`. -/
def NonceBucketMs : ℕ := 1000

/-- `NonceBucketCount`. -/
def NonceBucketCount : ℕ := (NonceTtlMs + NonceBucketMs - 1) / NonceBucketMs + 1

/-- `MeshLinkAuthPurpose`. -/
inductive MeshLinkAuthPurpose where
  | request
  | response
deriving DecidableEq, Repr

/-- The word of a purpose. -/
def MeshLinkAuthPurpose.text : MeshLinkAuthPurpose → String
  | .request => "request"
  | .response => "response"

/-- `MeshLinkAuthIdentity`. -/
structure MeshLinkAuthIdentity where
  processId : String
  endpointId : Option String
  requesterEndpointId : Option String
  requestNonce : Option String
  audienceEndpointId : Option String
  timestamp : JsNumber.Double
  nonce : String
  signature : String
deriving DecidableEq

/-- The request that a response answers. -/
structure ResponseTo where
  endpointId : String
  nonce : String
deriving DecidableEq, Repr

section Payloads

/-- What `sign` feeds to the digest, before the lengths are put in front. -/
def signedFields (processId endpointId : String) (timestamp : JsNumber.Double)
    (nonce path : String) (purpose : MeshLinkAuthPurpose) (responseTo : Option ResponseTo)
    (audienceEndpointId : Option String) : List String :=
  [processId, endpointId, String.ofList timestamp.val.text, nonce, path, purpose.text] ++
    (match purpose with
      | .response =>
          [(responseTo.map ResponseTo.endpointId).getD "",
            (responseTo.map ResponseTo.nonce).getD ""]
      | .request => [audienceEndpointId.getD ""]) ++
    [Nat.repr MeshLinkProtocolVersion]

/-- The bytes of the updates of the digest, one for each field. -/
def signedBytes (fields : List String) : List UInt8 :=
  fields.flatMap fun field => utf8Bytes (lengthPrefixed field)

variable (hmac : String → List UInt8 → String) (secret : String)

/-- `sign`. -/
def sign (processId endpointId : String) (timestamp : JsNumber.Double) (nonce path : String)
    (purpose : MeshLinkAuthPurpose) (responseTo : Option ResponseTo)
    (audienceEndpointId : Option String) : String :=
  hmac secret (signedBytes
    (signedFields processId endpointId timestamp nonce path purpose responseTo audienceEndpointId))

/-- The fields of the text that an endpoint signs with its private key. -/
def endpointProofFields (identity : MeshLinkAuthIdentity) (path : String)
    (purpose : MeshLinkAuthPurpose) (responseTo : Option ResponseTo) : List String :=
  [identity.processId, identity.endpointId.getD "", String.ofList identity.timestamp.val.text,
    identity.nonce, identity.signature, identity.audienceEndpointId.getD "", path, purpose.text,
    Nat.repr MeshLinkProtocolVersion, (responseTo.map ResponseTo.endpointId).getD "",
    (responseTo.map ResponseTo.nonce).getD ""]

/-- `endpointProofPayload`. -/
def endpointProofPayload (identity : MeshLinkAuthIdentity) (path : String)
    (purpose : MeshLinkAuthPurpose) (responseTo : Option ResponseTo) : String :=
  String.join ((endpointProofFields identity path purpose responseTo).map lengthPrefixed)

end Payloads

/-- `Buffer.from(text, 'hex')`: the pairs of digits up to the first that is none. -/
def bufferFromHex : List Char → List UInt8
  | high :: low :: rest =>
      match JsNumber.digitValue 16 high, JsNumber.digitValue 16 low with
      | some high, some low => UInt8.ofNat (high * 16 + low) :: bufferFromHex rest
      | _, _ => []
  | _ => []

/-- The wheel holds `seenNonces`, `nonceBuckets` and `lastPrunedBucket`. -/
structure MeshLinkAuthenticator where
  secret : String
  clockSkewMs : JsNumber
  nonces : TimingWheel String

/-- A call of `verify` with the time at which it is made. -/
structure Verification where
  now : ℕ
  identity : MeshLinkAuthIdentity
  path : String
  purpose : MeshLinkAuthPurpose
  responseTo : Option ResponseTo

namespace MeshLinkAuthenticator

/-- The constructor, with the time at which it runs. -/
def create (secret : String) (clockSkewMs : JsNumber) (now : ℕ) :
    Except String MeshLinkAuthenticator :=
  if secret.utf8ByteSize < 16 then .error "MESH_LINK_SECRET must contain at least 16 bytes"
  else .ok ⟨secret, clockSkewMs, .start NonceBucketCount (now / NonceBucketMs)⟩

/-- `pruneNonces`. -/
def pruneNonces (self : MeshLinkAuthenticator) (now : ℕ) : MeshLinkAuthenticator :=
  { self with nonces := self.nonces.prune NonceBucketMs NonceBucketCount now }

/-- `nonceKey`. -/
def nonceKey (identity : MeshLinkAuthIdentity) : String :=
  identity.processId ++ ":" ++ identity.nonce

/-- The text is missing or empty. -/
def isMissing (text : Option String) : Bool := text.getD "" = ""

/-- The identity does not say which request it answers, or another one than the expected. -/
def answersAnother (identity : MeshLinkAuthIdentity) (responseTo : Option ResponseTo) : Bool :=
  isMissing identity.requesterEndpointId || isMissing identity.requestNonce ||
    match responseTo with
    | none => true
    | some responseTo =>
        identity.requesterEndpointId ≠ some responseTo.endpointId ||
          identity.requestNonce ≠ some responseTo.nonce

variable (hmac : String → List UInt8 → String)

/-- The checks of `verify`, once the nonces are pruned. -/
def check (self : MeshLinkAuthenticator) (call : Verification) : Except String Unit :=
  let identity := call.identity
  if identity.processId = "" ∨ identity.nonce = "" ∨ ¬identity.timestamp.val.isFinite ∨
      isMissing identity.endpointId then
    .error "sRPC mesh peer authentication failed"
  else if call.purpose = .response ∧ answersAnother identity call.responseTo then
    .error "sRPC mesh response proof does not match its request"
  else if self.clockSkewMs.lt
      ((JsNumber.finite call.now).sub identity.timestamp).abs then
    .error "sRPC mesh authentication timestamp is outside the allowed window"
  else if (self.nonces.expiries.get? (nonceKey identity)).isSome then
    .error "sRPC mesh authentication nonce was replayed"
  else
    let responseTo :=
      match call.purpose with
      | .response =>
          some ⟨identity.requesterEndpointId.getD "", identity.requestNonce.getD ""⟩
      | .request => none
    let expected := sign hmac self.secret identity.processId
      (identity.endpointId.getD identity.processId) identity.timestamp identity.nonce call.path
      call.purpose responseTo identity.audienceEndpointId
    if bufferFromHex expected.toList ≠ bufferFromHex identity.signature.toList then
      .error "sRPC mesh peer authentication failed"
    else if MaxRememberedNonces ≤ self.nonces.expiries.size then
      .error "sRPC mesh authentication replay cache is saturated"
    else .ok ()

/-- Remember the nonce of an accepted proof. -/
def rememberNonce (self : MeshLinkAuthenticator) (call : Verification) : MeshLinkAuthenticator :=
  { self with
    nonces := self.nonces.remember NonceBucketMs NonceBucketCount (nonceKey call.identity)
      (call.now + NonceTtlMs) }

/-- `verify`. -/
def verify (self : MeshLinkAuthenticator) (call : Verification) :
    Except String Unit × MeshLinkAuthenticator :=
  let pruned := self.pruneNonces call.now
  match pruned.check hmac call with
  | .error message => (.error message, pruned)
  | .ok () => (.ok (), pruned.rememberNonce call)

end MeshLinkAuthenticator

end ServerFoundation.MeshLink
