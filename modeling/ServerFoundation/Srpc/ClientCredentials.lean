import ServerFoundation.Srpc.CanonicalSignature
import ServerFoundation.Srpc.QueryMetadata

/-!
# Client credentials

`SrpcClient.generateWsUrl` signs a canonical text and sends the parameters from which the server
recomputes it. The client sorts its metadata before it strips the legacy prefix and spreads the
result over the transport parameters; the server strips first and sorts afterwards, and it
strips what the client has already stripped.
-/

namespace ServerFoundation.Srpc

universe u

/-- What a client reads to build its URL. -/
structure Client (Value : Type u) where
  path : String
  clientId : String
  streamId : String
  clientMeta : Option (JsObject Value)
  secret : String
  authAudience : Option String
  protocolVersion : { version : ProtocolVersion // version.isCanonical }
  senderAnnouncements : Bool
  supersede : Bool

namespace Client

variable {Value : Type u} (stringOf : Value → String) (client : Client Value)

/-- `normalizeMetadata` of the client, which also turns the values into strings. -/
def normalizeClientMetadata (metadata : Option (JsObject Value)) : Query :=
  JsObject.fromEntries
    (((JsObject.ownEntries (metadata.getD .empty)).map fun entry =>
      (entry.1, stringOf entry.2)).insertionSort fun left right =>
        compareCodeUnits left.1 right.1 ≤ 0)

/-- The metadata that a client signs. -/
def metadata : Query := srpcQueryMetadata (normalizeClientMetadata stringOf client.clientMeta)

/-- The capabilities that a client signs. -/
def capabilities : String :=
  normalizeCapabilities (if client.senderAnnouncements then ["sender-announcements"] else [])

/-- The audience that a client signs. -/
def audience : String := client.authAudience.getD client.path

/-- The fields that the client signs at a time and with a nonce. -/
def signedFields (now : ℕ) (nonce : String) : AuthFields where
  path := client.path
  audience := client.audience
  appv := "0.0.0"
  ts := Nat.repr now
  nonce := nonce
  id := client.streamId
  cid := client.clientId
  protocol := client.protocolVersion.val.text
  supersede := if client.supersede then "1" else "0"
  capabilities := client.capabilities
  metadata := client.metadata stringOf

/-- The text that a client signs. -/
def signable (now : ℕ) (nonce : String) : String :=
  canonicalAuthV2 (client.signedFields stringOf now nonce)

/-- The transport parameters of the URL. -/
def transportParameters (now : ℕ) (nonce signature : String) : List (String × String) :=
  [("appv", "0.0.0"), ("ts", Nat.repr now), ("id", client.streamId), ("cid", client.clientId),
    ("signature", signature), ("pv", client.protocolVersion.val.text), ("nonce", nonce),
    ("aud", client.audience)] ++
    (if client.capabilities ≠ "" then [("cap", client.capabilities)] else []) ++
    (if client.supersede then [("supersede", "1")] else [])

/-- `generateWsUrl`, as the request that arrives: the object literal of the parameters, encoded
and decoded without loss. -/
def generateWsUrl (hmac : String → String → String) (now : ℕ) (nonce address : String) :
    Request where
  path := client.path
  parameters := JsObject.ownEntries (JsObject.spread
    (JsObject.fromEntries (client.transportParameters now nonce
      (hmac client.secret (client.signable stringOf now nonce))))
    (client.metadata stringOf))
  address := address

end Client

/-- The canonical text that `validateClientAuth` recomputes for a request, if it does. -/
def recomputedText (options : ServerOptions) (request : Request) : Option String :=
  match protocolVersionOf options request.query with
  | some protocolVersion =>
      if protocolVersion.isCanonical then
        some (canonicalAuthV2 (authFields request.path request.query protocolVersion))
      else none
  | none => none

namespace Client

variable {Value : Type u} (stringOf : Value → String) (client : Client Value)

/-- The keys of the metadata object. -/
def metadataKeys : List String := (client.clientMeta.getD .empty).keys

/-- Stripping a prefix gives neither a transport name nor another prefixed key, and the stripped
keys come before the plain ones. -/
structure PortableMetadata : Prop where
  noTransportName : ∀ stripped, "m--" ++ stripped ∈ client.metadataKeys →
    stripped ∉ systemQueryParameterNames
  noNestedPrefix : ∀ stripped, "m--" ++ stripped ∈ client.metadataKeys →
    legacyKey stripped = none
  strippedFirst : ∀ stripped plain, "m--" ++ stripped ∈ client.metadataKeys →
    stripped ≠ "__proto__" → JsObject.arrayIndex stripped = none →
    plain ∈ client.metadataKeys → IsPlainKey plain → JsObject.arrayIndex plain = none →
    "m--" ++ plain ∉ client.metadataKeys → JsText.units stripped < JsText.units plain

theorem normalizeClientMetadata_eq (metadata : Option (JsObject Value)) :
    normalizeClientMetadata stringOf metadata =
      JsObject.sortKeys ((metadata.getD .empty).mapValues stringOf) := by
  simp only [normalizeClientMetadata, compareCodeUnits_nonpos_iff, JsObject.sortKeys,
    JsObject.ownEntries_mapValues]
  rfl

theorem mem_keys_normalizeClientMetadata (key : String) :
    key ∈ (normalizeClientMetadata stringOf client.clientMeta).keys ↔
      key ∈ client.metadataKeys := by
  rw [normalizeClientMetadata_eq, metadataKeys, OrderedMap.mem_keys_iff, OrderedMap.mem_keys_iff]
  simp

theorem metadata_clean_iff :
    (∀ key, key ∈ systemQueryParameterNames ∨ legacyKey key ≠ none →
        (client.metadata stringOf).get? key = none) ↔
      ∀ stripped, "m--" ++ stripped ∈ client.metadataKeys →
        stripped ∉ systemQueryParameterNames ∧ legacyKey stripped = none := by
  have absent : ∀ key, key ∈ systemQueryParameterNames ∨ legacyKey key ≠ none →
      ((client.metadata stringOf).get? key = none ↔ "m--" ++ key ∉ client.metadataKeys) := by
    intro key special
    rw [metadata, get?_srpcQueryMetadata_of_not_plain _ special, OrderedMap.get?_eq_none_iff,
      mem_keys_normalizeClientMetadata]
  constructor
  · intro clean stripped present
    by_contra special
    rw [not_and_or, not_not] at special
    exact (absent stripped special).mp (clean stripped special) present
  · intro portable key special
    rw [absent key special]
    intro present
    rcases portable key present with ⟨notSystem, isPlain⟩
    rcases special with isSystem | isLegacy
    · exact notSystem isSystem
    · exact isLegacy isPlain

theorem metadata_sorted_iff :
    ((JsObject.named (client.metadata stringOf)).Pairwise fun left right =>
        JsText.units left.1 < JsText.units right.1) ↔
      ∀ stripped plain, "m--" ++ stripped ∈ client.metadataKeys →
        stripped ≠ "__proto__" → JsObject.arrayIndex stripped = none →
        plain ∈ client.metadataKeys → IsPlainKey plain → JsObject.arrayIndex plain = none →
        "m--" ++ plain ∉ client.metadataKeys → JsText.units stripped < JsText.units plain := by
  have sorted : (JsObject.named (normalizeClientMetadata stringOf client.clientMeta)).Pairwise
      fun left right => JsText.units left.1 < JsText.units right.1 := by
    rw [normalizeClientMetadata_eq]
    exact JsObject.named_sortKeys_pairwise _
  rw [metadata, named_srpcQueryMetadata_pairwise_iff _ sorted]
  simp only [mem_keys_normalizeClientMetadata]

section Transport

variable (now : ℕ) (nonce signature : String)

/-- The names of the transport parameters, by whether the optional ones are sent. -/
def transportNames (hasCapabilities supersedes : Bool) : List String :=
  ["appv", "ts", "id", "cid", "signature", "pv", "nonce", "aud"] ++
    (if hasCapabilities then ["cap"] else []) ++ (if supersedes then ["supersede"] else [])

theorem transportNames_nodup :
    ∀ hasCapabilities supersedes, (transportNames hasCapabilities supersedes).Nodup := by
  decide

theorem transportNames_system : ∀ hasCapabilities supersedes,
    ∀ name ∈ transportNames hasCapabilities supersedes, name ∈ systemQueryParameterNames := by
  decide

theorem map_fst_transportParameters :
    (client.transportParameters now nonce signature).map Prod.fst =
      transportNames (client.capabilities ≠ "") client.supersede := by
  simp only [transportParameters, transportNames, decide_eq_true_eq]
  split <;> split <;> rfl

theorem transportParameters_keys_nodup :
    ((client.transportParameters now nonce signature).map Prod.fst).Nodup := by
  rw [map_fst_transportParameters]
  exact transportNames_nodup _ _

theorem lookup_transportParameters_eq_none {key : String}
    (notSystem : key ∉ systemQueryParameterNames) :
    (client.transportParameters now nonce signature).lookup key = none := by
  rw [OrderedMap.lookup_eq_none_iff, map_fst_transportParameters]
  intro member
  exact notSystem (transportNames_system _ _ key member)

theorem get?_query_generateWsUrl (hmac : String → String → String) (address key : String) :
    (client.generateWsUrl stringOf hmac now nonce address).query.get? key =
      ((client.metadata stringOf).get? key).or
        ((client.transportParameters now nonce
          (hmac client.secret (client.signable stringOf now nonce))).lookup key) := by
  rw [Request.query, generateWsUrl, JsObject.get?_fromEntries (JsObject.ownEntries_keys_nodup _),
    JsObject.lookup_ownEntries, JsObject.get?_spread,
    JsObject.get?_fromEntries (client.transportParameters_keys_nodup _ _ _)]

/-- The transport fields of the query, as long as no metadata hides them. -/
structure CarriesTransport (query : Query) : Prop where
  appv : query.get? "appv" = some "0.0.0"
  ts : query.get? "ts" = some (Nat.repr now)
  id : query.get? "id" = some client.streamId
  cid : query.get? "cid" = some client.clientId
  pv : query.get? "pv" = some client.protocolVersion.val.text
  nonce : query.get? "nonce" = some nonce
  aud : query.get? "aud" = some client.audience
  cap : query.get? "cap" = if client.capabilities ≠ "" then some client.capabilities else none
  supersede : query.get? "supersede" = if client.supersede then some "1" else none
  legacySupersede : query.get? "_supersede" = none

theorem generateWsUrl_carriesTransport (hmac : String → String → String) (address : String)
    (clean : ∀ key, key ∈ systemQueryParameterNames ∨ legacyKey key ≠ none →
      (client.metadata stringOf).get? key = none) :
    client.CarriesTransport now nonce
      (client.generateWsUrl stringOf hmac now nonce address).query := by
  have transport : ∀ key ∈ systemQueryParameterNames,
      (client.generateWsUrl stringOf hmac now nonce address).query.get? key =
        (client.transportParameters now nonce
          (hmac client.secret (client.signable stringOf now nonce))).lookup key := by
    intro key isSystem
    rw [get?_query_generateWsUrl, clean key (Or.inl isSystem), Option.none_or]
  constructor <;> rw [transport _ (by decide)] <;> simp only [transportParameters] <;>
    split <;> split <;> simp [List.lookup_cons]

end Transport

section Agreement

variable {stringOf client} {now : ℕ} {nonce : String} {query : Query}

theorem capabilities_cases (client : Client Value) :
    client.capabilities = "sender-announcements" ∨ client.capabilities = "" := by
  simp only [capabilities]
  split
  · exact Or.inl (by decide)
  · exact Or.inr (by decide)

theorem CarriesTransport.capabilities_eq (carries : client.CarriesTransport now nonce query) :
    handshakeCapabilities query = client.capabilities := by
  rw [handshakeCapabilities, carries.cap]
  rcases client.capabilities_cases with announced | none
  · rw [announced]
    decide
  · rw [none]
    decide

theorem CarriesTransport.supersede_eq (carries : client.CarriesTransport now nonce query) :
    isSupersedeRequested query = client.supersede := by
  simp only [isSupersedeRequested, carries.supersede, carries.legacySupersede]
  cases client.supersede <;> decide

theorem ofNumber_ofText (version : ProtocolVersion) :
    ProtocolVersion.ofNumber (JsNumber.ofText version.text) = some version := by
  cases version <;> decide +kernel

theorem CarriesTransport.protocolVersionOf_eq (carries : client.CarriesTransport now nonce query)
    (options : ServerOptions) :
    protocolVersionOf options query = some client.protocolVersion.val := by
  simp only [protocolVersionOf, carries.pv, Option.some_or, ofNumber_ofText]

theorem CarriesTransport.texts_eq (carries : client.CarriesTransport now nonce query)
    (stringOf : Value → String) :
    (authFields client.path query client.protocolVersion.val).texts =
      (client.signedFields stringOf now nonce).texts := by
  simp only [AuthFields.texts, authFields, signedFields, field, carries.aud, carries.appv,
    carries.ts,
    carries.nonce, carries.id, carries.cid, carries.supersede_eq, carries.capabilities_eq,
    Option.getD_some]

theorem portableMetadata_iff (stringOf : Value → String) : client.PortableMetadata ↔
    (∀ key, key ∈ systemQueryParameterNames ∨ legacyKey key ≠ none →
        (client.metadata stringOf).get? key = none) ∧
      (JsObject.named (client.metadata stringOf)).Pairwise fun left right =>
        JsText.units left.1 < JsText.units right.1 := by
  rw [metadata_clean_iff, metadata_sorted_iff]
  constructor
  · intro portable
    exact ⟨fun stripped present =>
      ⟨portable.noTransportName stripped present, portable.noNestedPrefix stripped present⟩,
      portable.strippedFirst⟩
  · rintro ⟨clean, sorted⟩
    exact ⟨fun stripped present => (clean stripped present).1,
      fun stripped present => (clean stripped present).2, sorted⟩

theorem metadata_recomputed_iff (hmac : String → String → String) (address : String) :
    JsObject.ownEntries (client.metadata stringOf) = JsObject.ownEntries (normalizeMetadata
        (srpcQueryMetadata (client.generateWsUrl stringOf hmac now nonce address).query)) ↔
      client.PortableMetadata := by
  have same : ∀ key, key ∉ systemQueryParameterNames →
      (client.generateWsUrl stringOf hmac now nonce address).query.get? key =
        (client.metadata stringOf).get? key := by
    intro key notSystem
    rw [get?_query_generateWsUrl, lookup_transportParameters_eq_none _ _ _ _ notSystem,
      Option.or_none]
  rw [normalizeMetadata_eq_sortKeys, JsObject.ownEntries_eq_sortKeys_iff,
    agree_srpcQueryMetadata_iff same (get?_srpcQueryMetadata_proto _),
    portableMetadata_iff stringOf]

theorem metadata_eq_of_recomputed {options : ServerOptions} {request : Request}
    (recomputed : recomputedText options request = some (client.signable stringOf now nonce)) :
    JsObject.ownEntries (client.metadata stringOf) =
      JsObject.ownEntries (normalizeMetadata (srpcQueryMetadata request.query)) := by
  simp only [recomputedText] at recomputed
  split at recomputed
  · split at recomputed
    · rw [Option.some.injEq, signable] at recomputed
      have sameMetadata := (canonicalAuthV2_inj recomputed).2
      simp only [authFields, signedFields] at sameMetadata
      exact sameMetadata.symm
    · cases recomputed
  · cases recomputed

end Agreement

/-- The server recomputes the text that a client signed exactly when the keys of the client's
metadata are portable. -/
theorem recomputedText_generateWsUrl_iff (options : ServerOptions)
    (hmac : String → String → String) (stringOf : Value → String) (client : Client Value)
    (now : ℕ) (nonce address : String) :
    recomputedText options (client.generateWsUrl stringOf hmac now nonce address) =
        some (client.signable stringOf now nonce) ↔ client.PortableMetadata := by
  rw [← metadata_recomputed_iff hmac address]
  constructor
  · exact metadata_eq_of_recomputed
  · intro sameMetadata
    have portable := (metadata_recomputed_iff hmac address).mp sameMetadata
    have carries := client.generateWsUrl_carriesTransport stringOf now nonce hmac address
      ((portableMetadata_iff stringOf).mp portable).1
    have canonical := client.protocolVersion.property
    simp only [recomputedText, carries.protocolVersionOf_eq, canonical, if_true, Option.some.injEq]
    apply canonicalAuthV2_congr
    · exact carries.texts_eq stringOf
    · simp only [authFields, signedFields]
      exact sameMetadata.symm

/-- A client with the given metadata and everything else at its default. -/
def withMetadata (metadata : List (String × String)) : Client String where
  path := "/"
  clientId := "c"
  streamId := "s"
  clientMeta := some (JsObject.fromEntries metadata)
  secret := "secret"
  authAudience := none
  protocolVersion := ⟨.v3, by decide⟩
  senderAnnouncements := true
  supersede := false

/-- A stripped key behind a plain one changes places, and a stripped transport name replaces the
transport parameter. -/
theorem recomputedText_differs_at_stripped :
    recomputedText bindingOptions
        ((withMetadata [("m--b", "1"), ("a", "2")]).generateWsUrl id canonicalHmac 5
          "0123456789abcdef" "::1") ≠
      some ((withMetadata [("m--b", "1"), ("a", "2")]).signable id 5 "0123456789abcdef") ∧
    recomputedText bindingOptions
        ((withMetadata [("m--cid", "x")]).generateWsUrl id canonicalHmac 5
          "0123456789abcdef" "::1") ≠
      some ((withMetadata [("m--cid", "x")]).signable id 5 "0123456789abcdef") := by
  constructor
  · intro recomputed
    exact absurd (metadata_eq_of_recomputed recomputed) (by decide +kernel)
  · intro recomputed
    exact absurd (metadata_eq_of_recomputed recomputed) (by decide +kernel)

end Client

end ServerFoundation.Srpc
