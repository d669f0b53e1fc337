import ServerFoundation.Data.JsText
import ServerFoundation.Data.Json
import ServerFoundation.Data.NumberText
import ServerFoundation.Sql.Skeleton

/-!
# Values of columns

`serializeColumnValue`, by which a value reaches the column of a statement. Most
values are bound in a form the column takes; coordinates for a MySQL point column
become a call of `ST_GeomFromText` around the bound text.
-/

namespace ServerFoundation.Sql

/-- `ColumnMetadata`, with what the two type resolvers say of the type of the column. -/
structure ColumnMetadata where
  propertyName : String
  columnName : String
  nullable : Bool
  generated : Bool
  primaryKey : Bool
  isDatabaseUUID : Bool
  columnType : Dialect → String

section Stringify

/-- A number without a sign in at least `size` places. -/
def padded (value size : ℕ) : List Char :=
  let digits := Nat.toDigits 10 value
  List.replicate (size - digits.length) '0' ++ digits

/-- `toISOString`. -/
def isoText (fields : UtcFields) : List Char :=
  let year :=
    if 0 ≤ fields.year ∧ fields.year ≤ 9999 then padded fields.year.natAbs 4
    else (if fields.year < 0 then '-' else '+') :: padded fields.year.natAbs 6
  year ++ '-' :: padded fields.month 2 ++ '-' :: padded fields.date 2 ++
    'T' :: padded fields.hours 2 ++ ':' :: padded fields.minutes 2 ++
    ':' :: padded fields.seconds 2 ++ '.' :: padded fields.milliseconds 3 ++ ['Z']

/-- An array, with its items already written. -/
def arrayText (items : List (List Char)) : List Char :=
  '[' :: [','].intercalate items ++ [']']

/-- How bytes are written. -/
def bytesText (holder : Bytes) (content : List UInt8) : List Char :=
  let digits := content.map fun byte => Nat.toDigits 10 byte.toNat
  match holder with
  | .buffer => Json.object [("type", Json.quote "Buffer"), ("data", arrayText digits)]
  | .uint8Array =>
      Json.object (digits.zipIdx.map fun item => (toString item.2, item.1))
  | .arrayBuffer => Json.object []

mutual

/-- `JSON.stringify`, which throws on a bigint and gives `undefined` no text. -/
def stringify : Data → Option (Option (List Char))
  | .undefined => some none
  | .null => some (some "null".toList)
  | .boolean value => some (some (if value then "true" else "false").toList)
  | .number value => some (some (if value.isFinite then value.text else "null".toList))
  | .bigint _ => none
  | .string value => some (some (Json.quote value))
  | .bytes holder content => some (some (bytesText holder content))
  | .date none => some (some "null".toList)
  | .date (some fields) => some (some ('"' :: isoText fields ++ ['"']))
  | .array items => (stringifyItems items).map fun texts => some (arrayText texts)
  | .object entries => (stringifyEntries entries).map fun members => some (Json.object members)

/-- The items of an array. -/
def stringifyItems : List Data → Option (List (List Char))
  | [] => some []
  | item :: rest => do
      let text ← stringify item
      let others ← stringifyItems rest
      return text.getD "null".toList :: others

/-- The members of an object, without those that have no text. -/
def stringifyEntries : List (String × Data) → Option (List (String × List Char))
  | [] => some []
  | (key, value) :: rest => do
      let text ← stringify value
      let others ← stringifyEntries rest
      return (text.map fun found => (key, found)).toList ++ others

end

end Stringify

section Serialize

/-- A hexadecimal digit. -/
def isHexDigit (char : Char) : Bool := char.isDigit || ('a' ≤ char && char ≤ 'f')

/-- `value.trim().toLowerCase()`, as far as hexadecimal digits go. -/
def lowered (value : String) : List Char := (JsNumber.trim value.toList).map Char.toLower

/-- `uuidHex`. -/
def uuidHex (value : String) : Option (List Char) :=
  let normalized := lowered value
  let grouped := normalized.splitOn '-'
  if normalized.length = 32 ∧ normalized.all isHexDigit then some normalized
  else if grouped.map List.length = [8, 4, 4, 4, 12] ∧ grouped.flatten.all isHexDigit then
    some grouped.flatten
  else none

/-- The bytes that pairs of hexadecimal digits stand for. -/
def hexBytes : List Char → List UInt8
  | high :: low :: rest =>
      UInt8.ofNat (Json.hexValue high * 16 + Json.hexValue low) :: hexBytes rest
  | _ => []

/-- The hexadecimal digits of bytes. -/
def bytesHex (content : List UInt8) : List Char :=
  content.flatMap fun byte => [Json.hexDigit (byte.toNat / 16), Json.hexDigit (byte.toNat % 16)]

/-- Thirty-two digits in five groups. -/
def groupedHex (hex : List Char) : String :=
  String.ofList ((hex.take 8) ++ '-' :: (hex.drop 8).take 4 ++ '-' :: (hex.drop 12).take 4 ++
    '-' :: (hex.drop 16).take 4 ++ '-' :: hex.drop 20)

/-- `Buffer.from(value, 'binary')`. -/
def latin1Bytes (value : String) : List UInt8 := (JsText.units value).map UInt8.ofNat

/-- `uuidValueToBuffer`. -/
def uuidValueToBuffer : Data → Option Data
  | .bytes .buffer content =>
      if content.length = 16 then some (.bytes .buffer content) else none
  | .bytes .uint8Array content =>
      if content.length = 16 then some (.bytes .buffer content) else none
  | .string value => (uuidHex value).map fun hex => .bytes .buffer (hexBytes hex)
  | _ => none

/-- `uuidValueToString`. -/
def uuidValueToString : Data → Option Data
  | .bytes .buffer content =>
      if content.length = 16 then some (.string (groupedHex (bytesHex content))) else none
  | .bytes .uint8Array content =>
      if content.length = 16 then some (.string (groupedHex (bytesHex content))) else none
  | .string value =>
      match uuidHex value with
      | some hex => some (.string (groupedHex hex))
      | none =>
          if JsText.length value = 16 then
            some (.string (groupedHex (bytesHex (latin1Bytes value))))
          else none
  | _ => none

/-- `serializeUuidValue`. -/
def serializeUuidValue (value : Data) : Dialect → Data
  | .mysql => (uuidValueToBuffer value).getD value
  | .postgres => (uuidValueToString value).getD value

/-- `value.slice(0, size)`; half of a surrogate pair shows as the replacement character. -/
def sliceUnits : ℕ → List Char → List Char
  | _, [] => []
  | size, char :: rest =>
      let width := (JsText.codeUnits char).length
      if width ≤ size then char :: sliceUnits (size - width) rest
      else if size = 0 then [] else [Char.ofNat 0xFFFD]

/-- `formatDateOnlyUtc`. -/
def formatDateOnlyUtc (fields : UtcFields) : String :=
  pad fields.year 4 ++ "-" ++ pad fields.month 2 ++ "-" ++ pad fields.date 2

/-- `serializeDateOnlyValue`. -/
def serializeDateOnlyValue : Data → Data
  | .string value => .string (String.ofList (sliceUnits 10 value.toList))
  | .date (some fields) => .string (formatDateOnlyUtc fields)
  | value => value

/-- `isBinaryColumnType`. -/
def isBinaryColumnType (columnType : String) : Bool :=
  columnType ∈ ["binary", "varbinary", "blob", "tinyblob", "mediumblob", "longblob", "bytea"]

/-- `serializeBinaryValue`. -/
def serializeBinaryValue : Data → Data
  | .bytes _ content => .bytes .buffer content
  | value => value

/-- The numbers of a coordinate. -/
def Data.asNumbers : Data → Data → Option (JsNumber × JsNumber)
  | .number x, .number y => some (x, y)
  | _, _ => none

/-- `normalizeCoordinate`. -/
def normalizeCoordinate (value : Data) : Option (JsNumber × JsNumber) :=
  let property (key : String) := (value.get? key).getD .undefined
  match (property "x").asNumbers (property "y") with
  | some coordinate => some coordinate
  | none =>
      match property "type", property "coordinates" with
      | .string "Point", .array (x :: y :: _) => x.asNumbers y
      | _, _ => none

/-- `POINT(x y)`. -/
def pointText (coordinate : JsNumber × JsNumber) : String :=
  String.ofList ("POINT(".toList ++ coordinate.1.text ++ ' ' :: coordinate.2.text ++ [')'])

/-- The binding forms that come before the column type is looked at. -/
def normalizedData : Data → Option Data
  | .bigint value => some (.string (toString value))
  | .date (some fields) => some (.string (formatSqlDateTimeUtc fields))
  | _ => none

/-- `serializeColumnValue` for a value that is there, past the columns with types of their own. -/
def serializeOther (columnType : String) (value : Data) (dialect : Dialect) : Option SqlValue :=
  match normalizedData value with
  | some normalized => some (.data normalized)
  | none =>
      let coordinate :=
        if dialect = .mysql ∧ columnType = "point" then normalizeCoordinate value else none
      match coordinate with
      | some found =>
          (sqlTag ["ST_GeomFromText(", ")"] [.data (.string (pointText found))]).map
            SqlQuery.toValue
      | none =>
          if columnType = "json" then
            (stringify value).map fun text =>
              .data ((text.map fun found => .string (String.ofList found)).getD .undefined)
          else some (.data value)

/-- `serializeColumnValue`. -/
def serializeColumnValue (column : Option ColumnMetadata) (value : Data) (dialect : Dialect) :
    Option SqlValue :=
  match column, value with
  | none, value => some (.data value)
  | some column, .undefined => some (.data (if column.nullable then .null else .undefined))
  | some _, .null => some (.data .null)
  | some column, value =>
      let columnType := column.columnType dialect
      if column.isDatabaseUUID then some (.data (serializeUuidValue value dialect))
      else if columnType = "date" then some (.data (serializeDateOnlyValue value))
      else if isBinaryColumnType columnType then some (.data (serializeBinaryValue value))
      else serializeOther columnType value dialect

end Serialize

section Forms

variable {serialized : SqlValue} {value : Data}

mutual

/-- The values that JSON has. -/
def Data.jsonLike : Data → Bool
  | .null => true
  | .boolean _ => true
  | .number _ => true
  | .string _ => true
  | .array items => jsonLikeItems items
  | .object entries => jsonLikeEntries entries
  | _ => false

/-- `jsonLike` on the items of an array. -/
def jsonLikeItems : List Data → Bool
  | [] => true
  | item :: rest => item.jsonLike && jsonLikeItems rest

/-- `jsonLike` on the members of an object. -/
def jsonLikeEntries : List (String × Data) → Bool
  | [] => true
  | (_, value) :: rest => value.jsonLike && jsonLikeEntries rest

end

@[simp]
theorem jsonLikeItems_iff (items : List Data) :
    jsonLikeItems items = true ↔ ∀ item ∈ items, item.jsonLike = true := by
  induction items with
  | nil => simp [jsonLikeItems]
  | cons item rest ih => simp [jsonLikeItems, ih]

@[simp]
theorem jsonLikeEntries_iff (entries : List (String × Data)) :
    jsonLikeEntries entries = true ↔ ∀ entry ∈ entries, entry.2.jsonLike = true := by
  induction entries with
  | nil => simp [jsonLikeEntries]
  | cons entry rest ih => simp [jsonLikeEntries, ih]

mutual

theorem stringify_of_jsonLike : ∀ value : Data, value.jsonLike = true →
    ∃ text, stringify value = some (some text)
  | .null, _ => ⟨_, rfl⟩
  | .boolean _, _ => ⟨_, rfl⟩
  | .number _, _ => ⟨_, rfl⟩
  | .string _, _ => ⟨_, rfl⟩
  | .array items, like => by
      rcases stringifyItems_of_jsonLike items (by simpa [Data.jsonLike] using like) with
        ⟨texts, textsEq⟩
      exact ⟨arrayText texts, by simp [stringify, textsEq]⟩
  | .object entries, like => by
      rcases stringifyEntries_of_jsonLike entries (by simpa [Data.jsonLike] using like) with
        ⟨members, membersEq⟩
      exact ⟨Json.object members, by simp [stringify, membersEq]⟩

theorem stringifyItems_of_jsonLike : ∀ items : List Data,
    (∀ item ∈ items, item.jsonLike = true) → ∃ texts, stringifyItems items = some texts
  | [], _ => ⟨_, rfl⟩
  | item :: rest, like => by
      rcases stringify_of_jsonLike item (like item (by simp)) with ⟨text, textEq⟩
      rcases stringifyItems_of_jsonLike rest
        (fun found member => like found (List.mem_cons_of_mem _ member)) with ⟨texts, textsEq⟩
      exact ⟨_, by simp [stringifyItems, textEq, textsEq]; rfl⟩

theorem stringifyEntries_of_jsonLike : ∀ entries : List (String × Data),
    (∀ entry ∈ entries, entry.2.jsonLike = true) →
      ∃ members, stringifyEntries entries = some members
  | [], _ => ⟨_, rfl⟩
  | (key, value) :: rest, like => by
      rcases stringify_of_jsonLike value (like (key, value) (by simp)) with ⟨text, textEq⟩
      rcases stringifyEntries_of_jsonLike rest
        (fun found member => like found (List.mem_cons_of_mem _ member)) with
        ⟨members, membersEq⟩
      exact ⟨_, by simp [stringifyEntries, textEq, membersEq]; rfl⟩

end

/-- How the value of a column is written. -/
inductive Form where
  | value
  | point
deriving DecidableEq, Repr

/-- The pieces of a column value. -/
def Form.pieces : Form → List Piece
  | .value => [.slot]
  | .point => textPieces "ST_GeomFromText(" ++ .slot :: textPieces ")"

/-- What of a value decides how it is written: coordinates for a MySQL point column are. -/
def columnForm (column : Option ColumnMetadata) (value : Data) (dialect : Dialect) : Form :=
  match column with
  | none => .value
  | some column =>
      if dialect = .mysql ∧ column.columnType dialect = "point" ∧ !column.isDatabaseUUID ∧
          (normalizeCoordinate value).isSome then .point
      else .value

/-- A value in the given form: plain data, or the call around a bound text. -/
inductive InForm : Form → SqlValue → Prop
  | value {found : Data} (unforged : found.forged = false) : InForm .value (.data found)
  | point {query : SqlQuery} (writes : query.Writes Form.point.pieces) : InForm .point query.toValue

theorem InForm.plain {form : Form} (inForm : InForm form serialized) : serialized.plain = true := by
  cases inForm with
  | value unforged => simp [SqlValue.plain, unforged]
  | @point query writes => exact query.plain_toValue.mpr writes.plain

theorem InForm.spliced {form : Form} (inForm : InForm form serialized) :
    serialized.spliced = form.pieces := by
  cases inForm with
  | value unforged => rfl
  | point writes => exact writes.written

theorem serializeOther_inForm (columnType : String) (dialect : Dialect)
    (like : value.jsonLike = true) (unforged : value.forged = false) :
    ∃ serialized, serializeOther columnType value dialect = some serialized ∧
      InForm (if dialect = .mysql ∧ columnType = "point" ∧ (normalizeCoordinate value).isSome then
        .point else .value) serialized := by
  have unchanged : normalizedData value = none := by
    cases value <;> first | rfl | simp [Data.jsonLike] at like
  simp only [serializeOther, unchanged]
  by_cases pointColumn : dialect = .mysql ∧ columnType = "point"
  · cases coordinate : normalizeCoordinate value with
    | some found =>
        have inner : ∀ bound ∈ [SqlValue.data (.string (pointText found))], bound.plain = true := by
          simp [SqlValue.plain, Data.forged, Data.hasKind, Data.get?]
        rcases sqlTag_writes ["ST_GeomFromText(", ")"] inner with ⟨query, queryEq, writes⟩
        refine ⟨query.toValue, by simp [pointColumn, queryEq], ?_⟩
        rw [if_pos ⟨pointColumn.1, pointColumn.2, rfl⟩]
        exact .point (by simpa [Form.pieces] using writes)
    | none => exact ⟨.data value, by simp [pointColumn], by simpa using .value unforged⟩
  · have form : ¬(dialect = .mysql ∧ columnType = "point" ∧ (normalizeCoordinate value).isSome) :=
      fun both => pointColumn ⟨both.1, both.2.1⟩
    rw [if_neg pointColumn, if_neg form]
    by_cases json : columnType = "json"
    · rcases stringify_of_jsonLike value like with ⟨text, textEq⟩
      exact ⟨.data (.string (String.ofList text)), by simp [json, textEq], .value rfl⟩
    · exact ⟨.data value, by simp [json], .value unforged⟩

theorem serializeUuidValue_unforged (dialect : Dialect) (unforged : value.forged = false) :
    (serializeUuidValue value dialect).forged = false := by
  cases dialect with
  | mysql =>
      simp only [serializeUuidValue]
      fun_cases uuidValueToBuffer value
      case case5 text => cases uuidHex text <;> rfl
      all_goals first | rfl | exact unforged
  | postgres =>
      simp only [serializeUuidValue]
      fun_cases uuidValueToString value
      all_goals first | rfl | exact unforged

theorem serializeDateOnlyValue_unforged (unforged : value.forged = false) :
    (serializeDateOnlyValue value).forged = false := by
  fun_cases serializeDateOnlyValue value
  · rfl
  · rfl
  · exact unforged

theorem serializeBinaryValue_unforged (unforged : value.forged = false) :
    (serializeBinaryValue value).forged = false := by
  fun_cases serializeBinaryValue value
  · rfl
  · exact unforged

theorem serializeColumnValue_inForm (column : Option ColumnMetadata) (dialect : Dialect)
    (like : value.jsonLike = true) (unforged : value.forged = false) :
    ∃ serialized, serializeColumnValue column value dialect = some serialized ∧
      InForm (columnForm column value dialect) serialized := by
  have bound : ∀ found : Data, found.forged = false →
      ∃ serialized, some (SqlValue.data found) = some serialized ∧ InForm .value serialized :=
    fun found clean => ⟨_, rfl, .value clean⟩
  fun_cases serializeColumnValue column value dialect
  · exact bound _ unforged
  · simp [Data.jsonLike] at like
  · simpa [columnForm, normalizeCoordinate, Data.get?, Data.asNumbers] using bound .null rfl
  · rename_i column uuid _ _
    simpa [columnForm, uuid] using bound _ (serializeUuidValue_unforged dialect unforged)
  · rename_i column columnType notUuid isDate _ _
    have resolved : column.columnType dialect = "date" := isDate
    simpa [columnForm, resolved] using bound _ (serializeDateOnlyValue_unforged unforged)
  · rename_i column columnType notUuid notDate binary _ _
    have notPoint : column.columnType dialect ≠ "point" := by
      intro point
      rw [show columnType = column.columnType dialect from rfl, point] at binary
      exact absurd binary (by decide)
    simpa [columnForm, notPoint] using bound _ (serializeBinaryValue_unforged unforged)
  · rename_i column columnType notUuid notDate notBinary _ _
    rcases serializeOther_inForm columnType dialect like unforged with
      ⟨serialized, serializedEq, inForm⟩
    refine ⟨serialized, serializedEq, ?_⟩
    simpa [columnForm, notUuid, columnType] using inForm

end Forms

end ServerFoundation.Sql
