import ServerFoundation.Data.JsonParsing
import ServerFoundation.Sql.ColumnValues

/-!
# JSON columns

What is written to a column of type `json` and what is read from it. A driver hands back the
text of the column or the value that it has parsed itself; of a string the reader does not
know which of the two it is.
-/

namespace ServerFoundation.Sql

section Values

mutual

/-- A JSON value as data. -/
def Data.ofJson : JsonValue → Data
  | .null => .null
  | .boolean value => .boolean value
  | .number value => .number value
  | .string text => .string text
  | .array items => .array (ofJsonItems items)
  | .object members => .object (ofJsonMembers members)

/-- The data of the elements. -/
def ofJsonItems : List JsonValue → List Data
  | [] => []
  | item :: items => Data.ofJson item :: ofJsonItems items

/-- The data of the members. -/
def ofJsonMembers : List (String × JsonValue) → List (String × Data)
  | [] => []
  | (key, value) :: members => (key, Data.ofJson value) :: ofJsonMembers members

end

mutual

theorem stringify_ofJson : ∀ value : JsonValue,
    stringify (Data.ofJson value) = some (some value.write)
  | .null => rfl
  | .boolean _ => rfl
  | .number _ => rfl
  | .string _ => rfl
  | .array items => by
      rw [Data.ofJson, stringify, stringifyItems_ofJson items]
      rfl
  | .object members => by
      rw [Data.ofJson, stringify, stringifyEntries_ofJson members]
      rfl

theorem stringifyItems_ofJson : ∀ items : List JsonValue,
    stringifyItems (ofJsonItems items) = some (JsonValue.writeItems items)
  | [] => rfl
  | item :: items => by
      rw [ofJsonItems, stringifyItems, stringify_ofJson item, stringifyItems_ofJson items]
      rfl

theorem stringifyEntries_ofJson : ∀ members : List (String × JsonValue),
    stringifyEntries (ofJsonMembers members) = some (JsonValue.writeMembers members)
  | [] => rfl
  | (key, value) :: members => by
      rw [ofJsonMembers, stringifyEntries, stringify_ofJson value, stringifyEntries_ofJson members]
      rfl

end

end Values

section Reading

/-- The readers of the columns that hold bytes or coordinates. -/
structure ColumnReaders where
  deserializeBinaryValue : Data → Data
  deserializeMySQLPoint : Data → Data

/-- `/^\d{4}-\d{2}-\d{2}/`. -/
def startsWithDate (text : List Char) : Bool :=
  let shape := text.take 10
  shape.length = 10 && shape.zipIdx.all fun item =>
    if item.2 = 4 ∨ item.2 = 7 then item.1 = '-' else item.1.isDigit

/-- `deserializeDateOnlyValue`. -/
def deserializeDateOnlyValue : Data → Data
  | .date (some fields) => .string (formatDateOnlyUtc fields)
  | .date none => .string "0NaN-NaN-NaN"
  | .string text =>
      if startsWithDate text.toList then .string (String.ofList (sliceUnits 10 text.toList))
      else .string text
  | value => value

/-- `JSON.parse(value)`, or else the text itself. -/
def deserializeJson : Data → Data
  | .string text =>
      match Json.parse text with
      | some value => Data.ofJson value
      | none => .string text
  | value => value

/-- `deserializeColumnValue`. -/
def deserializeColumnValue (readers : ColumnReaders) (column : Option ColumnMetadata)
    (value : Data) (dialect : Dialect) : Data :=
  match column with
  | none => value
  | some column =>
      let columnType := column.columnType dialect
      if value.isNullish then value
      else if column.isDatabaseUUID then (uuidValueToString value).getD value
      else if columnType = "date" then deserializeDateOnlyValue value
      else if isBinaryColumnType columnType then readers.deserializeBinaryValue value
      else if dialect = .mysql ∧ columnType = "point" then readers.deserializeMySQLPoint value
      else if columnType = "json" then deserializeJson value
      else value

end Reading

section RoundTrip

variable {column : ColumnMetadata} {dialect : Dialect} {value : JsonValue} (readers : ColumnReaders)

/-- The text of a value, except for SQL's own `NULL`. -/
def columnText : JsonValue → Data
  | .null => .null
  | value => .string value.stringify

theorem isBinaryColumnType_json : isBinaryColumnType "json" = false := by decide

theorem serializeColumnValue_json (json : column.columnType dialect = "json")
    (notUUID : column.isDatabaseUUID = false) (value : JsonValue) :
    serializeColumnValue (some column) (Data.ofJson value) dialect =
      some (.data (columnText value)) := by
  have written : ∀ value : JsonValue, normalizedData (Data.ofJson value) = none →
      serializeOther "json" (Data.ofJson value) dialect =
        some (.data (.string value.stringify)) := by
    intro value unchanged
    simp [serializeOther, unchanged, stringify_ofJson, JsonValue.stringify]
  cases value with
  | null => rfl
  | _ =>
      rename_i shown
      simp only [Data.ofJson, serializeColumnValue, notUUID, json, isBinaryColumnType_json,
        columnText]
      first
      | exact written (.boolean shown) rfl
      | exact written (.number shown) rfl
      | exact written (.string shown) rfl
      | exact written (.array shown) rfl
      | exact written (.object shown) rfl

theorem deserializeColumnValue_json (json : column.columnType dialect = "json")
    (notUUID : column.isDatabaseUUID = false) (value : Data) :
    deserializeColumnValue readers (some column) value dialect = deserializeJson value := by
  simp only [deserializeColumnValue, notUUID, json, isBinaryColumnType_json]
  cases value <;> simp [Data.isNullish, deserializeJson]

theorem deserializeJson_ofJson (notText : ∀ text, value = .string text → Json.parse text = none) :
    deserializeJson (Data.ofJson value) = Data.ofJson value := by
  cases value with
  | string text => simp only [Data.ofJson, deserializeJson, notText text rfl]
  | _ => rfl

theorem deserializeJson_columnText (proper : value.Proper) :
    deserializeJson (columnText value) = Data.ofJson value := by
  cases value with
  | null => rfl
  | _ => simp only [columnText, deserializeJson, Json.parse_stringify proper]

theorem isHexDigit_of_uuidHex {text : String} {hex : List Char} (found : uuidHex text = some hex) :
    ∀ char ∈ hex, isHexDigit char = true := by
  unfold uuidHex at found
  dsimp only at found
  split_ifs at found with plain grouped
  · cases found
    exact List.all_eq_true.mp plain.2
  · cases found
    exact List.all_eq_true.mp grouped.2

theorem isHexDigit_of_mem_bytesHex {content : List UInt8} {char : Char}
    (member : char ∈ bytesHex content) : isHexDigit char = true := by
  have digits : ∀ value < 16, isHexDigit (Json.hexDigit value) = true := by decide
  rcases List.mem_flatMap.mp member with ⟨byte, _, among⟩
  have bound := byte.toNat_lt
  simp only [List.mem_cons, List.not_mem_nil, or_false] at among
  rcases among with rfl | rfl
  · exact digits _ (by omega)
  · exact digits _ (by omega)

theorem groupedHex_ne_stringify {hex : List Char} (digits : ∀ char ∈ hex, isHexDigit char = true)
    (text : String) : groupedHex hex ≠ (JsonValue.string text).stringify := by
  intro same
  have quoted : '"' ∈ (groupedHex hex).toList := by
    rw [same, JsonValue.stringify, String.toList_ofList]
    exact List.mem_cons_self
  have inHex : '"' ∈ hex := by
    simp only [groupedHex, String.toList_ofList, List.mem_append, List.mem_cons,
      Char.reduceEq, false_or] at quoted
    rcases quoted with (((first | second) | third) | fourth) | fifth
    · exact List.mem_of_mem_take first
    · exact List.mem_of_mem_drop (List.mem_of_mem_take second)
    · exact List.mem_of_mem_drop (List.mem_of_mem_take third)
    · exact List.mem_of_mem_drop (List.mem_of_mem_take fourth)
    · exact List.mem_of_mem_drop fifth
  exact absurd (digits _ inHex) (by decide)

theorem ne_stringify (text : String) : text ≠ (JsonValue.string text).stringify := by
  intro same
  have parsed : Json.parse (JsonValue.string text).stringify = some (.string text) :=
    Json.parse_stringify trivial
  rw [← same] at parsed
  exact Json.parse_ne_self text parsed

theorem serializeUuidValue_ne (notNull : value ≠ .null) :
    serializeUuidValue (Data.ofJson value) dialect ≠ columnText value := by
  cases value with
  | null => exact absurd rfl notNull
  | string text =>
      have itself := ne_stringify text
      cases dialect with
      | mysql =>
          simp only [Data.ofJson, serializeUuidValue, uuidValueToBuffer, columnText]
          cases uuidHex text with
          | none => simpa using itself
          | some hex => simp
      | postgres =>
          simp only [Data.ofJson, serializeUuidValue, uuidValueToString, columnText]
          cases found : uuidHex text with
          | none =>
              dsimp only
              split_ifs
              · simpa using groupedHex_ne_stringify
                  (fun char member => isHexDigit_of_mem_bytesHex member) text
              · simpa using itself
          | some hex => simpa using groupedHex_ne_stringify (isHexDigit_of_uuidHex found) text
  | _ => cases dialect <;> simp [Data.ofJson, serializeUuidValue, uuidValueToBuffer,
      uuidValueToString, columnText]

/-- Both forms of a stored value are read as the value, which is written as the same text again. -/
structure RoundTrips (readers : ColumnReaders) (column : ColumnMetadata) (dialect : Dialect)
    (value : JsonValue) : Prop where
  writes : serializeColumnValue (some column) (Data.ofJson value) dialect =
    some (.data (columnText value))
  readsText : deserializeColumnValue readers (some column) (columnText value) dialect =
    Data.ofJson value
  readsParsed : deserializeColumnValue readers (some column) (Data.ofJson value) dialect =
    Data.ofJson value
  rewrites : ∀ form ∈ [columnText value, Data.ofJson value],
    serializeColumnValue (some column)
      (deserializeColumnValue readers (some column) form dialect) dialect =
        some (.data (columnText value))

/-- What survives a JSON column: `null`, and outside of UUIDs all but strings that are the text of a
value. -/
def Survives (column : ColumnMetadata) (value : JsonValue) : Prop :=
  value = .null ∨
    column.isDatabaseUUID = false ∧ ∀ text, value = .string text → Json.parse text = none

theorem roundTrips_null : RoundTrips readers column dialect .null where
  writes := rfl
  readsText := rfl
  readsParsed := rfl
  rewrites := by
    intro form member
    simp only [columnText, Data.ofJson, List.mem_cons, List.not_mem_nil, or_false,
      or_self] at member
    rw [member]
    rfl

theorem roundTrips_of_survives (json : column.columnType dialect = "json") (proper : value.Proper)
    (survives : Survives column value) : RoundTrips readers column dialect value := by
  rcases survives with rfl | ⟨notUUID, notText⟩
  · exact roundTrips_null readers
  · have writes := serializeColumnValue_json json notUUID value
    have readsText : deserializeColumnValue readers (some column) (columnText value) dialect =
        Data.ofJson value := by
      rw [deserializeColumnValue_json readers json notUUID, deserializeJson_columnText proper]
    have readsParsed : deserializeColumnValue readers (some column) (Data.ofJson value) dialect =
        Data.ofJson value := by
      rw [deserializeColumnValue_json readers json notUUID, deserializeJson_ofJson notText]
    refine ⟨writes, readsText, readsParsed, ?_⟩
    intro form member
    simp only [List.mem_cons, List.not_mem_nil, or_false] at member
    rcases member with rfl | rfl
    · rw [readsText, writes]
    · rw [readsParsed, writes]

theorem survives_of_roundTrips {readers : ColumnReaders} (json : column.columnType dialect = "json")
    (trips : RoundTrips readers column dialect value) : Survives column value := by
  by_cases isNull : value = .null
  · exact Or.inl isNull
  cases uuid : column.isDatabaseUUID with
  | true =>
      have writes := trips.writes
      have written : serializeColumnValue (some column) (Data.ofJson value) dialect =
          some (.data (serializeUuidValue (Data.ofJson value) dialect)) := by
        cases value with
        | null => exact absurd rfl isNull
        | _ => simp [Data.ofJson, serializeColumnValue, uuid]
      rw [written] at writes
      simp only [Option.some.injEq, SqlValue.data.injEq] at writes
      exact absurd writes (serializeUuidValue_ne isNull)
  | false =>
      refine Or.inr ⟨uuid, ?_⟩
      rintro text rfl
      have parsed := trips.readsParsed
      rw [deserializeColumnValue_json readers json uuid, Data.ofJson, deserializeJson] at parsed
      cases read : Json.parse text with
      | none => rfl
      | some found =>
          rw [read] at parsed
          cases found with
          | string same =>
              cases parsed
              exact absurd read (Json.parse_ne_self text)
          | _ => cases parsed

/-- The values that round-trip are the ones that survive. -/
theorem roundTrips_iff (readers : ColumnReaders) (json : column.columnType dialect = "json")
    {value : JsonValue} (proper : value.Proper) :
    RoundTrips readers column dialect value ↔ Survives column value :=
  ⟨survives_of_roundTrips json, roundTrips_of_survives readers json proper⟩

/-- Readers that change nothing. -/
def untouched : ColumnReaders := ⟨id, id⟩

/-- The `config` column of the settings. -/
def configColumn : ColumnMetadata where
  propertyName := "config"
  columnName := "config"
  nullable := false
  generated := false
  primaryKey := false
  isDatabaseUUID := false
  columnType := fun _ => "json"

theorem roundTrips_iff_config :
    RoundTrips untouched configColumn .postgres
        (.object [("labels", .array [.null, .boolean true, .string "true"])]) ↔
      Survives configColumn (.object [("labels", .array [.null, .boolean true, .string "true"])]) :=
  roundTrips_iff untouched rfl ⟨rfl, ⟨trivial, trivial, trivial, trivial⟩, trivial⟩

/-- A string that the driver has parsed is parsed once more. -/
theorem parsed_string_changes :
    deserializeColumnValue untouched (some configColumn) (Data.ofJson (.string "true")) .postgres =
        .boolean true ∧
      ¬RoundTrips untouched configColumn .postgres (.string "true") := by
  have read : deserializeColumnValue untouched (some configColumn) (Data.ofJson (.string "true"))
      .postgres = .boolean true := rfl
  refine ⟨read, ?_⟩
  intro trips
  have same := read.symm.trans trips.readsParsed
  cases same

end RoundTrip

end ServerFoundation.Sql
