import ServerFoundation.MeshLink.Authenticator

/-!
# What a proof binds

The signed fields are length-prefixed, so the bytes that are fed to the digest can be read
back field by field. The purpose is one of the fields, and it says which fields follow it.
Two proofs over one byte sequence therefore agree in every field, and a request never has
the bytes of a response.
-/

namespace ServerFoundation.MeshLink

/-- What a proof is about. -/
structure ProofSubject where
  processId : String
  endpointId : String
  timestamp : JsNumber.Double
  nonce : String
  path : String
  purpose : MeshLinkAuthPurpose

/-- The arguments of `sign`. -/
structure SignedProof extends ProofSubject where
  responseTo : Option ResponseTo
  audienceEndpointId : Option String

/-- What `sign` feeds to the digest. -/
def SignedProof.bytes (signed : SignedProof) : List UInt8 :=
  signedBytes (signedFields signed.processId signed.endpointId signed.timestamp signed.nonce
    signed.path signed.purpose signed.responseTo signed.audienceEndpointId)

/-- The arguments of `endpointProofPayload`. -/
structure EndpointProof where
  identity : MeshLinkAuthIdentity
  path : String
  purpose : MeshLinkAuthPurpose
  responseTo : Option ResponseTo

/-- The signed text of a proof. -/
def EndpointProof.payload (proof : EndpointProof) : String :=
  endpointProofPayload proof.identity proof.path proof.purpose proof.responseTo

/-- What a proof is about. -/
def EndpointProof.subject (proof : EndpointProof) : ProofSubject where
  processId := proof.identity.processId
  endpointId := proof.identity.endpointId.getD ""
  timestamp := proof.identity.timestamp
  nonce := proof.identity.nonce
  path := proof.path
  purpose := proof.purpose

/-- The endpoint that a request is meant for. -/
def AddressedAlike (left right : Option String) : Prop := left.getD "" = right.getD ""

/-- The request that a response answers. -/
def AnswersAlike (left right : Option ResponseTo) : Prop :=
  (left.map ResponseTo.endpointId).getD "" = (right.map ResponseTo.endpointId).getD "" ∧
    (left.map ResponseTo.nonce).getD "" = (right.map ResponseTo.nonce).getD ""

theorem MeshLinkAuthPurpose.text_injective : Function.Injective MeshLinkAuthPurpose.text := by
  intro left right same
  cases left <;> cases right <;> first | rfl | exact absurd same (by decide)

theorem timestampText_injective {left right : JsNumber.Double}
    (same : String.ofList left.val.text = String.ofList right.val.text) : left = right := by
  have texts := String.ofList_injective same
  exact Subtype.ext (JsNumber.text_injective left.property right.property texts)

theorem join_lengthPrefixed_inj {left right : List String} {leftRest rightRest : String}
    (sameLength : left.length = right.length)
    (same : String.join (left.map lengthPrefixed) ++ leftRest =
      String.join (right.map lengthPrefixed) ++ rightRest) :
    left = right ∧ leftRest = rightRest := by
  have toList (fields : List String) : (String.join (fields.map lengthPrefixed)).toList =
      fields.flatMap fun field => (lengthPrefixed field).toList := by
    rw [String.toList_join, List.flatMap_map]
  have chars := congrArg String.toList same
  rw [String.toList_append, String.toList_append, toList, toList] at chars
  rcases lengthPrefixed_prefixCode.flatMap_of_length_eq sameLength chars with ⟨fields, rest⟩
  exact ⟨fields, String.toList_injective rest⟩

theorem join_lengthPrefixed_injective {left right : List String}
    (sameLength : left.length = right.length)
    (same : String.join (left.map lengthPrefixed) = String.join (right.map lengthPrefixed)) :
    left = right := by
  have followed : String.join (left.map lengthPrefixed) ++ "" =
      String.join (right.map lengthPrefixed) ++ "" := by rw [same]
  exact (join_lengthPrefixed_inj sameLength followed).1

theorem signedBytes_eq (fields : List String) :
    signedBytes fields = utf8Bytes (String.join (fields.map lengthPrefixed)) := by
  rw [utf8Bytes_join, List.flatMap_map]
  rfl

/-- The fields that every signed proof starts with. -/
def ProofSubject.fields (subject : ProofSubject) : List String :=
  [subject.processId, subject.endpointId, String.ofList subject.timestamp.val.text, subject.nonce,
    subject.path, subject.purpose.text]

theorem ProofSubject.fields_injective : Function.Injective ProofSubject.fields := by
  rintro ⟨leftProcess, leftEndpoint, leftTimestamp, leftNonce, leftPath, leftPurpose⟩
    ⟨rightProcess, rightEndpoint, rightTimestamp, rightNonce, rightPath, rightPurpose⟩ same
  simp only [fields, List.cons.injEq, and_true] at same
  rcases same with ⟨rfl, rfl, timestamp, rfl, rfl, purpose⟩
  have sameTimestamp := timestampText_injective timestamp
  have samePurpose := MeshLinkAuthPurpose.text_injective purpose
  subst sameTimestamp samePurpose
  rfl

/-- The fields that follow, according to the purpose. -/
def SignedProof.answerFields (signed : SignedProof) : List String :=
  (match signed.purpose with
    | .response =>
        [(signed.responseTo.map ResponseTo.endpointId).getD "",
          (signed.responseTo.map ResponseTo.nonce).getD ""]
    | .request => [signed.audienceEndpointId.getD ""]) ++
  [Nat.repr MeshLinkProtocolVersion]

theorem SignedProof.bytes_eq (signed : SignedProof) :
    signed.bytes = utf8Bytes (String.join (signed.fields.map lengthPrefixed) ++
      String.join (signed.answerFields.map lengthPrefixed)) := by
  rw [← String.join_append, ← List.map_append, ← signedBytes_eq]
  unfold bytes signedFields answerFields
  rw [List.append_assoc]
  rfl

theorem SignedProof.bytes_bind {left right : SignedProof} (same : left.bytes = right.bytes) :
    left.toProofSubject = right.toProofSubject ∧
      (left.purpose = .request →
        AddressedAlike left.audienceEndpointId right.audienceEndpointId) ∧
      (left.purpose = .response → AnswersAlike left.responseTo right.responseTo) := by
  rw [bytes_eq, bytes_eq] at same
  have sameLength : left.fields.length = right.fields.length := rfl
  rcases join_lengthPrefixed_inj sameLength (utf8Bytes_injective same) with ⟨subjects, rest⟩
  have sameSubject := ProofSubject.fields_injective subjects
  have samePurpose : left.purpose = right.purpose := by rw [sameSubject]
  have answers : left.answerFields = right.answerFields := by
    apply join_lengthPrefixed_injective _ rest
    unfold answerFields
    rw [samePurpose]
    cases right.purpose <;> rfl
  unfold answerFields at answers
  rw [← samePurpose] at answers
  refine ⟨sameSubject, ?_, ?_⟩
  · intro request
    rw [request] at answers
    exact (List.cons.inj answers).1
  · intro response
    rw [response] at answers
    rcases List.cons.inj answers with ⟨endpointId, more⟩
    exact ⟨endpointId, (List.cons.inj more).1⟩

theorem EndpointProof.payload_bind {left right : EndpointProof}
    (same : left.payload = right.payload) :
    left.subject = right.subject ∧
      AddressedAlike left.identity.audienceEndpointId right.identity.audienceEndpointId ∧
      AnswersAlike left.responseTo right.responseTo := by
  have fields : endpointProofFields left.identity left.path left.purpose left.responseTo =
      endpointProofFields right.identity right.path right.purpose right.responseTo := by
    apply join_lengthPrefixed_injective _ same
    rfl
  simp only [endpointProofFields, List.cons.injEq, and_true, true_and] at fields
  rcases fields with ⟨processId, endpointId, timestamp, nonce, -, audience, path, purpose,
    answered⟩
  refine ⟨ProofSubject.fields_injective ?_, audience, answered⟩
  simp only [ProofSubject.fields, subject, processId, endpointId, timestamp, nonce, path, purpose]

/-- Whoever signs one byte sequence or one text twice has signed the same fields. -/
theorem meshLinkProofs_bind :
    (∀ left right : SignedProof, left.bytes = right.bytes →
      left.toProofSubject = right.toProofSubject ∧
        (left.purpose = .request →
          AddressedAlike left.audienceEndpointId right.audienceEndpointId) ∧
        (left.purpose = .response → AnswersAlike left.responseTo right.responseTo)) ∧
    (∀ left right : EndpointProof, left.payload = right.payload →
      left.subject = right.subject ∧
        (left.purpose = .request →
          AddressedAlike left.identity.audienceEndpointId right.identity.audienceEndpointId) ∧
        (left.purpose = .response → AnswersAlike left.responseTo right.responseTo)) ∧
    (∀ request response : SignedProof, request.purpose = .request →
      response.purpose = .response → request.bytes ≠ response.bytes) ∧
    (∀ request response : EndpointProof, request.purpose = .request →
      response.purpose = .response → request.payload ≠ response.payload) := by
  refine ⟨?_, ?_, ?_, ?_⟩
  · intro left right same
    exact SignedProof.bytes_bind same
  · intro left right same
    rcases EndpointProof.payload_bind same with ⟨subject, audience, answered⟩
    exact ⟨subject, fun _ => audience, fun _ => answered⟩
  · intro request response isRequest isResponse same
    have purposes := congrArg ProofSubject.purpose (SignedProof.bytes_bind same).1
    rw [isRequest, isResponse] at purposes
    cases purposes
  · intro request response isRequest isResponse same
    have purposes : request.purpose = response.purpose :=
      congrArg ProofSubject.purpose (EndpointProof.payload_bind same).1
    rw [isRequest, isResponse] at purposes
    cases purposes

/-- A request to any endpoint, with a request that it answers as an argument if there is one. -/
def requestProof (responseTo : Option ResponseTo) (audienceEndpointId : Option String) :
    SignedProof where
  processId := "process"
  endpointId := "endpoint"
  timestamp := ⟨.finite 1700000000000, by decide +kernel⟩
  nonce := "nonce"
  path := "/mesh"
  purpose := .request
  responseTo := responseTo
  audienceEndpointId := audienceEndpointId

/-- Two requests under the same bytes are addressed alike, and no response has these bytes. -/
theorem meshLinkProofs_bind_request :
    (requestProof none none).bytes = (requestProof (some ⟨"other", "asked"⟩) (some "")).bytes ∧
      AddressedAlike none (some "") ∧
      (requestProof none none).bytes ≠
        { requestProof (some ⟨"other", "asked"⟩) none with purpose := .response }.bytes := by
  have same : (requestProof none none).bytes =
      (requestProof (some ⟨"other", "asked"⟩) (some "")).bytes := rfl
  exact ⟨same, (meshLinkProofs_bind.1 _ _ same).2.1 rfl, meshLinkProofs_bind.2.2.1 _ _ rfl rfl⟩

end ServerFoundation.MeshLink
