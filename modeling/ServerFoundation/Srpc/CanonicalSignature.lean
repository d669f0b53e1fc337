import ServerFoundation.Srpc.Handshake

/-!
# What the canonical signature binds

The canonical text of protocol versions 3 and 4 is a JSON object over every field
that the server acts on, so equal texts have equal fields. Some of what the
server derives from a query goes through aliases and normalisations, but always
through the same ones as the signed field: two accepted queries with one
canonical text give the same stream information, up to the order in which the
metadata was written.
-/

namespace ServerFoundation.Srpc

theorem compareCodeUnits_nonpos_iff (left right : String) :
    compareCodeUnits left right ≤ 0 ↔ JsText.units left ≤ JsText.units right := by
  simp only [compareCodeUnits]
  split
  · rename_i less
    simp [less.le]
  · rename_i notLess
    split
    · rename_i greater
      simpa using greater
    · rename_i notGreater
      simpa using notGreater

theorem normalizeMetadata_eq_sortKeys (metadata : Query) :
    normalizeMetadata metadata = JsObject.sortKeys metadata := by
  simp only [normalizeMetadata, compareCodeUnits_nonpos_iff]
  rfl

theorem normalizeMetadata_agree {left right : Query}
    (same : JsObject.ownEntries (normalizeMetadata left) =
      JsObject.ownEntries (normalizeMetadata right)) (key : String) :
    left.get? key = right.get? key := by
  simp only [normalizeMetadata_eq_sortKeys] at same
  rw [← JsObject.get?_sortKeys left, ← JsObject.lookup_ownEntries, same,
    JsObject.lookup_ownEntries, JsObject.get?_sortKeys]

theorem canonicalAuthV2_toList (fields : AuthFields) :
    (canonicalAuthV2 fields).toList =
      '{' :: Json.member ("version", ['2']) ++
        ((fields.texts.flatMap fun entry => ',' :: Json.textMember entry) ++
          (',' :: Json.member ("metadata", Json.record (JsObject.ownEntries fields.metadata)) ++
            ['}'])) := by
  simp [canonicalAuthV2, Json.object, intercalate_cons_flatMap, List.flatMap_map, Json.textMember]

theorem canonicalAuthV2_inj {left right : AuthFields}
    (same : canonicalAuthV2 left = canonicalAuthV2 right) :
    left.texts = right.texts ∧
      JsObject.ownEntries left.metadata = JsObject.ownEntries right.metadata := by
  have sameText := congrArg String.toList same
  simp only [canonicalAuthV2_toList, List.cons_append, List.cons.injEq, true_and,
    List.append_cancel_left_eq] at sameText
  have marked := Json.textMember_prefixCode.cons ','
  have sameLength : left.texts.length = right.texts.length := rfl
  rcases marked.flatMap_of_length_eq sameLength sameText with ⟨texts, rest⟩
  simp only [List.cons.injEq, true_and, Json.member, List.append_assoc,
    List.append_cancel_left_eq, List.cons_append] at rest
  exact ⟨texts, (Json.record_prefixCode rest).1⟩

theorem canonicalAuthV2_congr {left right : AuthFields} (texts : left.texts = right.texts)
    (metadata : JsObject.ownEntries left.metadata = JsObject.ownEntries right.metadata) :
    canonicalAuthV2 left = canonicalAuthV2 right := by
  rw [canonicalAuthV2, canonicalAuthV2, texts, metadata]

theorem ProtocolVersion.text_injective : Function.Injective ProtocolVersion.text := by
  intro left right same
  cases left <;> cases right <;> first | rfl | exact absurd same (by decide)

theorem get?_eq_some_field {query : Query} {name : String} (present : field query name ≠ "") :
    query.get? name = some (field query name) := by
  cases found : query.get? name with
  | none =>
      rw [field, found] at present
      exact absurd rfl present
  | some value => rw [field, found, Option.getD_some]

section Accepted

variable {options : ServerOptions} {hmac : String → String → String} {around : Surroundings}
  {request : Request} {handshake : Handshake} {info : StreamInfo}

theorem checkCredentials_ok {now : ℤ} {protocolVersion : ProtocolVersion}
    (passed : checkCredentials options now request protocolVersion = .ok handshake) :
    handshake.request = request ∧ handshake.protocolVersion = protocolVersion ∧
      field request.query "ts" ≠ "" := by
  simp only [checkCredentials] at passed
  split at passed
  · cases passed
  · rename_i present
    simp only [not_or] at present
    split at passed
    · cases passed
    · split at passed
      · cases passed
      · split at passed
        · cases passed
        · split at passed
          · cases passed
          · cases passed
            exact ⟨rfl, rfl, present.2.1⟩

theorem beginHandshake_ok {load : ServerLoad} {now : ℤ}
    (begun : beginHandshake options load now request = .ok handshake) :
    handshake.request = request ∧ field request.query "ts" ≠ "" := by
  simp only [beginHandshake] at begun
  cases checked : checkRequest options load request.query with
  | error rejection =>
      rw [checked] at begun
      cases begun
  | ok protocolVersion =>
      rw [checked] at begun
      rcases checkCredentials_ok begun with ⟨sameRequest, _, timestamp⟩
      exact ⟨sameRequest, timestamp⟩

theorem verifyClient_ok (accepted : verifyClient options hmac around request = .ok info) :
    ∃ handshake, beginHandshake options around.load around.checkedAt request = .ok handshake ∧
      streamInfo options handshake = .ok info := by
  simp only [verifyClient] at accepted
  cases begun : beginHandshake options around.load around.checkedAt request with
  | error rejection =>
      rw [begun] at accepted
      cases accepted
  | ok handshake =>
      rw [begun] at accepted
      refine ⟨handshake, rfl, ?_⟩
      simp only [bind, Except.bind] at accepted
      split at accepted
      · cases accepted
      · split at accepted
        · split at accepted
          · cases accepted
          · exact accepted
        · cases accepted

/-- The stream information of a handshake, field by field. -/
structure Describes (request : Request) (protocolVersion : ProtocolVersion) (info : StreamInfo) :
    Prop where
  clientStreamId : info.clientStreamId = field request.query "id"
  clientId : info.clientId = field request.query "cid"
  appVersion : info.appVersion = field request.query "appv"
  configureTs : info.configureTs = JsNumber.ofText (field request.query "ts")
  version : info.protocolVersion = protocolVersion
  capabilities : protocolVersion.isCanonical → info.capabilities =
    (splitCapabilities (handshakeCapabilities request.query)).toFinset
  supersede : info.supersede = isSupersedeRequested request.query
  metadata : ∀ key, info.metadata.get? key = (srpcQueryMetadata request.query).get? key

theorem streamInfo_describes (timestamp : field handshake.request.query "ts" ≠ "")
    (built : streamInfo options handshake = .ok info) :
    Describes handshake.request handshake.protocolVersion info := by
  simp only [streamInfo] at built
  split at built
  · cases built
  · cases built
    refine ⟨rfl, rfl, rfl, ?_, rfl, ?_, rfl, ?_⟩
    · simp only [get?_eq_some_field timestamp]
    · intro canonical
      simp only [canonical, if_true]
    · intro key
      simp [JsObject.get?_spread]

theorem verifyClient_describes (accepted : verifyClient options hmac around request = .ok info) :
    Describes request info.protocolVersion info := by
  rcases verifyClient_ok accepted with ⟨handshake, begun, built⟩
  rcases beginHandshake_ok begun with ⟨sameRequest, timestamp⟩
  rw [← sameRequest] at timestamp
  have described := streamInfo_describes timestamp built
  rw [sameRequest, ← described.version] at described
  exact described

end Accepted

/-- Two accepted queries of protocol version 3 or 4 with one canonical text give the same stream
information. -/
theorem canonicalAuthV2_binds_streamInfo {options : ServerOptions}
    {hmac : String → String → String} {firstAround secondAround : Surroundings}
    {firstRequest secondRequest : Request} {first second : StreamInfo}
    (firstAccepted : verifyClient options hmac firstAround firstRequest = .ok first)
    (secondAccepted : verifyClient options hmac secondAround secondRequest = .ok second)
    (firstCanonical : first.protocolVersion.isCanonical)
    (secondCanonical : second.protocolVersion.isCanonical)
    (sameText :
      canonicalAuthV2 (authFields firstRequest.path firstRequest.query first.protocolVersion) =
        canonicalAuthV2 (authFields secondRequest.path secondRequest.query
          second.protocolVersion)) :
    first.clientStreamId = second.clientStreamId ∧ first.clientId = second.clientId ∧
      first.appVersion = second.appVersion ∧ first.configureTs = second.configureTs ∧
      first.protocolVersion = second.protocolVersion ∧
      first.capabilities = second.capabilities ∧ first.supersede = second.supersede ∧
      ∀ key, first.metadata.get? key = second.metadata.get? key := by
  have firstInfo := verifyClient_describes firstAccepted
  have secondInfo := verifyClient_describes secondAccepted
  rcases canonicalAuthV2_inj sameText with ⟨texts, metadata⟩
  simp only [AuthFields.texts, authFields, List.cons.injEq, Prod.mk.injEq, true_and,
    and_true] at texts
  simp only [authFields] at metadata
  rcases texts with
    ⟨_, _, appv, ts, _, id, cid, protocol, supersede, capabilities⟩
  have sameSupersede :
      isSupersedeRequested firstRequest.query = isSupersedeRequested secondRequest.query := by
    revert supersede
    cases isSupersedeRequested firstRequest.query <;>
      cases isSupersedeRequested secondRequest.query <;> simp
  refine ⟨?_, ?_, ?_, ?_, ProtocolVersion.text_injective protocol, ?_, ?_, ?_⟩
  · rw [firstInfo.clientStreamId, secondInfo.clientStreamId, id]
  · rw [firstInfo.clientId, secondInfo.clientId, cid]
  · rw [firstInfo.appVersion, secondInfo.appVersion, appv]
  · rw [firstInfo.configureTs, secondInfo.configureTs, ts]
  · rw [firstInfo.capabilities firstCanonical, secondInfo.capabilities secondCanonical,
      capabilities]
  · rw [firstInfo.supersede, secondInfo.supersede, sameSupersede]
  · intro key
    rw [firstInfo.metadata, secondInfo.metadata]
    exact normalizeMetadata_agree metadata key

section Aliases

/-- What the two queries below have in common. -/
def signedParameters : List (String × String) :=
  [("appv", "1"), ("ts", "5"), ("id", "s"), ("cid", "c"),
    ("signature", "75ca4fd4169329f7e1f900272b76dccd7fc3dcfe255fa1a4583633bb77cde4c6"),
    ("nonce", "0123456789abcdef"), ("aud", "/")]

/-- A query as current clients write it. -/
def currentRequest : Request :=
  ⟨"/", signedParameters ++ [("pv", "3"), ("cap", "b,a"), ("supersede", "1"), ("k", "v")], "::1"⟩

/-- The same query with a repeated parameter, aliases and a repeated capability. -/
def aliasRequest : Request :=
  ⟨"/", [("m--k", "v"), ("cid", "other"), ("_v", "3"), ("_supersede", "1"), ("cap", "a,b,a")] ++
    signedParameters, "::1"⟩

/-- The HMAC of their canonical text, with the key `secret`. -/
def canonicalHmac (key text : String) : String :=
  if key = "secret" ∧ text =
      "\x7b\"version\":2,\"path\":\"/\",\"audience\":\"/\",\"appv\":\"1\",\"ts\":\"5\","
        ++ "\"nonce\":\"0123456789abcdef\",\"id\":\"s\",\"cid\":\"c\",\"protocol\":\"3\","
        ++ "\"supersede\":\"1\",\"capabilities\":\"a,b\","
        ++ "\"metadata\":\x7b\"k\":\"v\"\x7d\x7d" then
    "75ca4fd4169329f7e1f900272b76dccd7fc3dcfe255fa1a4583633bb77cde4c6"
  else ""

/-- The options of the servers. -/
def bindingOptions : ServerOptions where
  defaultUnspecifiedProtocolVersion := none
  authAudience := none
  maxClientIdBytes := 1024
  maxPendingHandshakes := 128
  maxActiveStreams := 10000
  maxClientMetadataBytes := 65536
  maxAuthReplayPrincipals := 256
  supportsRequestAcknowledgments := true
  clockDriftMs := none

/-- A server that finds the key and has not consumed the token yet. -/
def freshSurroundings : Surroundings where
  load := ⟨0, 0⟩
  checkedAt := 5
  clientKey := some "secret"
  consumeAuthReplayToken _ _ _ := true
  beforeClientAdmission := .ok ()

theorem exists_of_version {answer : Except Rejection StreamInfo} {version : ProtocolVersion}
    (isVersion : answer.toOption.map StreamInfo.protocolVersion = some version) :
    ∃ info, answer = .ok info ∧ info.protocolVersion = version := by
  cases answer with
  | error rejection => simp [Except.toOption] at isVersion
  | ok info => exact ⟨info, rfl, by simpa [Except.toOption] using isVersion⟩

theorem currentRequest_version :
    (verifyClient bindingOptions canonicalHmac freshSurroundings currentRequest).toOption.map
      StreamInfo.protocolVersion = some .v3 := by
  decide +kernel

theorem aliasRequest_version :
    (verifyClient bindingOptions canonicalHmac freshSurroundings aliasRequest).toOption.map
      StreamInfo.protocolVersion = some .v3 := by
  decide +kernel

theorem canonicalAuthV2_aliasRequest :
    canonicalAuthV2 (authFields currentRequest.path currentRequest.query .v3) =
      canonicalAuthV2 (authFields aliasRequest.path aliasRequest.query .v3) := by
  decide +kernel

/-- Aliases, repetitions and order make no difference once the canonical text is the same. -/
theorem canonicalAuthV2_binds_streamInfo_at_aliases :
    ∃ first second,
      verifyClient bindingOptions canonicalHmac freshSurroundings currentRequest = .ok first ∧
      verifyClient bindingOptions canonicalHmac freshSurroundings aliasRequest = .ok second ∧
      first.clientId = second.clientId ∧ first.capabilities = second.capabilities ∧
      first.supersede = second.supersede ∧
      ∀ key, first.metadata.get? key = second.metadata.get? key := by
  obtain ⟨first, firstAccepted, firstVersion⟩ := exists_of_version currentRequest_version
  obtain ⟨second, secondAccepted, secondVersion⟩ := exists_of_version aliasRequest_version
  rcases canonicalAuthV2_binds_streamInfo firstAccepted secondAccepted (by rw [firstVersion]; rfl)
    (by rw [secondVersion]; rfl)
    (by rw [firstVersion, secondVersion]; exact canonicalAuthV2_aliasRequest) with
    ⟨_, clientId, _, _, _, capabilities, supersede, metadata⟩
  exact ⟨first, second, firstAccepted, secondAccepted, clientId, capabilities, supersede, metadata⟩

end Aliases

end ServerFoundation.Srpc
