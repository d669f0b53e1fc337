import ServerFoundation.Data.JsObject
import ServerFoundation.Data.JsonValue
import ServerFoundation.Data.LengthPrefix

/-!
# Frames of a mesh link

A frame is the length of its header as a 32-bit word, the header as JSON text, and the
body. Encoding and decoding check one limit for the whole frame and another for the
header. `JSON.parse` is a parameter, and so is the text that stands for bytes which are no
UTF-8.
-/

namespace ServerFoundation.MeshLink

/-- `MeshLinkProtocolVersion`. -/
def MeshLinkProtocolVersion : ℕ := 2

/-- `HeaderLengthBytes`. -/
def HeaderLengthBytes : ℕ := 4

/-- `MaxHeaderBytes`. -/
def MaxHeaderBytes : ℕ := 64 * 1024

/-- `Omit<MeshLinkFrameHeader, 'version'>`. -/
abbrev OutgoingHeader := {header : JsObject JsonValue // header.get? "version" = none}

/-- `{ version: MeshLinkProtocolVersion, ...header }`. -/
def OutgoingHeader.withVersion (header : OutgoingHeader) : JsObject JsonValue :=
  JsObject.spread
    (OrderedMap.empty.set "version" (.number (.finite MeshLinkProtocolVersion))) header.val

/-- The header as `JSON.parse` returns it. -/
def OutgoingHeader.received (header : OutgoingHeader) : JsonValue :=
  .object (JsObject.ownEntries header.withVersion)

/-- `MeshLinkFrame`. -/
structure MeshLinkFrame where
  header : JsonValue
  body : List UInt8

/-- `buffer.writeUInt32BE(value)`. -/
def writeUInt32BE (value : ℕ) : List UInt8 :=
  [value / 2 ^ 24, value / 2 ^ 16, value / 2 ^ 8, value].map UInt8.ofNat

/-- `buffer.readUInt32BE(0)`. -/
def readUInt32BE (bytes : List UInt8) : ℕ :=
  (bytes.take 4).foldl (fun value byte => value * 256 + byte.toNat) 0

/-- `length > maxFrameBytes`. -/
def exceeds (length : ℕ) (maxFrameBytes : JsNumber) : Bool :=
  maxFrameBytes.lt (.finite length)

/-- `encodeMeshLinkFrame`. -/
def encodeMeshLinkFrame (header : OutgoingHeader) (body : List UInt8)
    (maxFrameBytes : Option JsNumber) : Except String (List UInt8) :=
  let encodedHeader := utf8Bytes header.received.stringify
  if MaxHeaderBytes < encodedHeader.length then .error "sRPC mesh frame header is too large"
  else
    let frameLength := HeaderLengthBytes + encodedHeader.length + body.length
    if ¬(JsNumber.finite frameLength).isSafeInteger ∨
        maxFrameBytes.any (exceeds frameLength) then
      .error "sRPC mesh frame exceeds the configured limit"
    else .ok (writeUInt32BE encodedHeader.length ++ encodedHeader ++ body)

section Decoding

variable (parse : String → Option JsonValue) (replaceInvalid : List UInt8 → String)

/-- `buffer.toString('utf8')`. -/
def utf8Text (bytes : List UInt8) : String :=
  (String.fromUTF8? ⟨bytes.toArray⟩).getD (replaceInvalid bytes)

/-- `decodeMeshLinkFrame`. -/
def decodeMeshLinkFrame (data : List UInt8) (maxFrameBytes : JsNumber) :
    Except String MeshLinkFrame :=
  if exceeds data.length maxFrameBytes then .error "sRPC mesh frame exceeds the configured limit"
  else if data.length < HeaderLengthBytes then .error "Invalid sRPC mesh frame"
  else
    let headerLength := readUInt32BE data
    if headerLength < 2 ∨ MaxHeaderBytes < headerLength ∨
        data.length < HeaderLengthBytes + headerLength then
      .error "Invalid sRPC mesh frame header length"
    else
      match parse (utf8Text replaceInvalid ((data.drop HeaderLengthBytes).take headerLength)) with
      | none => .error "Invalid sRPC mesh frame header"
      -- Reading a property of `null` throws before the version is compared.
      | some .null => .error "Cannot read properties of null (reading 'version')"
      | some header =>
          if (header.property "version").any
            (JsonValue.isNumber (.finite MeshLinkProtocolVersion)) ∧
              (header.property "type").any JsonValue.isString then
            .ok ⟨header, data.drop (HeaderLengthBytes + headerLength)⟩
          else .error "Unsupported sRPC mesh protocol version"

end Decoding

theorem length_writeUInt32BE (value : ℕ) : (writeUInt32BE value).length = 4 := rfl

theorem readUInt32BE_write {value : ℕ} (fits : value < 2 ^ 32) (rest : List UInt8) :
    readUInt32BE (writeUInt32BE value ++ rest) = value := by
  simp only [readUInt32BE, writeUInt32BE, List.map_cons, List.map_nil, List.cons_append,
    List.nil_append, List.take_succ_cons, List.take_zero, List.foldl_cons, List.foldl_nil,
    UInt8.toNat_ofNat']
  omega

theorem utf8Text_utf8Bytes (replaceInvalid : List UInt8 → String) (text : String) :
    utf8Text replaceInvalid (utf8Bytes text) = text := by
  have same : (⟨(utf8Bytes text).toArray⟩ : ByteArray) = text.toByteArray := by
    apply ByteArray.ext
    simp [utf8Bytes]
  unfold utf8Text
  rw [same, String.fromUTF8?, dif_pos text.isValidUTF8]
  rfl

section RoundTrip

variable {parse : String → Option JsonValue} {replaceInvalid : List UInt8 → String}
  {header : OutgoingHeader} {body : List UInt8} {maxFrameBytes : JsNumber}

theorem property_received (header : OutgoingHeader) (name : String) :
    header.received.property name =
      if name = "version" then some (.number (.finite MeshLinkProtocolVersion))
      else header.val.get? name := by
  unfold OutgoingHeader.received OutgoingHeader.withVersion
  rw [JsonValue.lookup_property, JsObject.lookup_ownEntries, JsObject.get?_spread]
  by_cases isVersion : name = "version"
  · subst isVersion
    rw [header.property]
    rfl
  · rw [if_neg isVersion, OrderedMap.get?_set, if_neg isVersion]
    cases header.val.get? name <;> rfl

theorem decode_encode {text : String} {encoded : List UInt8}
    (typed : header.val.get? "type" = some (.string text))
    (parses : parse header.received.stringify = some header.received)
    (encodes : encodeMeshLinkFrame header body (some maxFrameBytes) = .ok encoded) :
    decodeMeshLinkFrame parse replaceInvalid encoded maxFrameBytes =
      .ok ⟨header.received, body⟩ := by
  unfold encodeMeshLinkFrame at encodes
  simp only at encodes
  split at encodes
  · cases encodes
  · rename_i headerFits
    split at encodes
    · cases encodes
    · rename_i frameFits
      cases encodes
      rw [not_lt] at headerFits
      simp only [Option.any_some, not_or] at frameFits
      have small : (utf8Bytes header.received.stringify).length < 2 ^ 32 :=
        lt_of_le_of_lt headerFits (by norm_num [MaxHeaderBytes])
      have notEmpty : 2 ≤ (utf8Bytes header.received.stringify).length := by
        rw [length_utf8Bytes, OutgoingHeader.received]
        exact JsonValue.two_le_utf8ByteSize_object _
      have word := readUInt32BE_write small (utf8Bytes header.received.stringify ++ body)
      rw [← List.append_assoc] at word
      have length : (writeUInt32BE (utf8Bytes header.received.stringify).length ++
          utf8Bytes header.received.stringify ++ body).length =
            HeaderLengthBytes + (utf8Bytes header.received.stringify).length + body.length := by
        rw [List.length_append, List.length_append, length_writeUInt32BE]
        rfl
      have four : HeaderLengthBytes = 4 := rfl
      have afterWord : (writeUInt32BE (utf8Bytes header.received.stringify).length ++
          utf8Bytes header.received.stringify ++ body).drop HeaderLengthBytes =
            utf8Bytes header.received.stringify ++ body := by
        rw [List.append_assoc]
        exact List.drop_left' rfl
      unfold decodeMeshLinkFrame
      simp only
      rw [word, length, if_neg frameFits.2, if_neg (by omega), if_neg (by omega), ← List.drop_drop,
        afterWord, List.take_left, List.drop_left, utf8Text_utf8Bytes, parses]
      have version := property_received header "version"
      have type := property_received header "type"
      rw [if_pos rfl] at version
      rw [if_neg (by decide), typed] at type
      split
      · rename_i impossible
        cases impossible
      · rename_i impossible
        cases impossible
      · rename_i isHeader
        cases isHeader
        rw [version, type, if_pos (by simp [JsonValue.isNumber, JsonValue.isString])]

theorem decode_covers {data : List UInt8} {frame : MeshLinkFrame}
    (decodes : decodeMeshLinkFrame parse replaceInvalid data maxFrameBytes = .ok frame) :
    ∃ encodedHeader, data.drop HeaderLengthBytes = encodedHeader ++ frame.body ∧
      encodedHeader.length = readUInt32BE data ∧
      parse (utf8Text replaceInvalid encodedHeader) = some frame.header := by
  unfold decodeMeshLinkFrame at decodes
  simp only at decodes
  split at decodes
  · cases decodes
  · split at decodes
    · cases decodes
    · split at decodes
      · cases decodes
      · rename_i fits
        refine ⟨(data.drop HeaderLengthBytes).take (readUInt32BE data), ?_, ?_, ?_⟩
        · split at decodes
          · cases decodes
          · cases decodes
          · split at decodes
            · cases decodes
              rw [← List.drop_drop, List.take_append_drop]
            · cases decodes
        · rw [List.length_take, List.length_drop]
          omega
        · split at decodes
          · cases decodes
          · cases decodes
          · rename_i header _ parsed
            split at decodes
            · cases decodes
              exact parsed
            · cases decodes

end RoundTrip

/-- The two functions agree on the limits and on where the header ends. -/
theorem meshLinkFrames_roundTrip (parse : String → Option JsonValue)
    (replaceInvalid : List UInt8 → String) (maxFrameBytes : JsNumber) :
    (∀ (header : OutgoingHeader) (body encoded : List UInt8) (text : String),
      header.val.get? "type" = some (.string text) →
      parse header.received.stringify = some header.received →
      encodeMeshLinkFrame header body (some maxFrameBytes) = .ok encoded →
        decodeMeshLinkFrame parse replaceInvalid encoded maxFrameBytes =
          .ok ⟨header.received, body⟩) ∧
    ∀ data frame, decodeMeshLinkFrame parse replaceInvalid data maxFrameBytes = .ok frame →
      ∃ encodedHeader, data.drop HeaderLengthBytes = encodedHeader ++ frame.body ∧
        encodedHeader.length = readUInt32BE data ∧
        parse (utf8Text replaceInvalid encodedHeader) = some frame.header := by
  constructor
  · intro header body encoded text typed parses encodes
    exact decode_encode typed parses encodes
  · intro data frame decodes
    exact decode_covers decodes

/-- The header of a ping. -/
def pingHeader : OutgoingHeader := ⟨OrderedMap.empty.set "type" (.string "ping"), rfl⟩

theorem meshLinkFrames_roundTrip_ping :
    let parse := fun text =>
      if text = pingHeader.received.stringify then some pingHeader.received else none
    decodeMeshLinkFrame parse (fun _ => "")
        (writeUInt32BE 27 ++ utf8Bytes "\x7b\"version\":2,\"type\":\"ping\"\x7d" ++ [1, 2, 3])
        (.finite 34) =
      .ok ⟨pingHeader.received, [1, 2, 3]⟩ := by
  have text : pingHeader.received.stringify = "\x7b\"version\":2,\"type\":\"ping\"\x7d" := by
    decide +kernel
  have encodes : encodeMeshLinkFrame pingHeader [1, 2, 3] (some (.finite 34)) =
      .ok (writeUInt32BE 27 ++ utf8Bytes "\x7b\"version\":2,\"type\":\"ping\"\x7d" ++
        [1, 2, 3]) := by
    unfold encodeMeshLinkFrame
    rw [text]
    decide +kernel
  have roundTrip := (meshLinkFrames_roundTrip (fun text =>
    if text = pingHeader.received.stringify then some pingHeader.received else none)
    (fun _ => "") (.finite 34)).1
  exact roundTrip pingHeader [1, 2, 3] _ "ping" rfl (if_pos rfl) encodes

end ServerFoundation.MeshLink
