import ServerFoundation.Data.JsNumber

/-!
# SQL fragments

The template tag `sql`, its fragment constructors and `renderSql`. Fragments are
told from data by the property `kind` of a value, once when a template is put
together and once when it is rendered, so that an object among the data with
such a property is taken for a fragment. An operation that throws has no result;
neither has one that reads a field of such an object which is not of the type the
fragment would have.
-/

namespace ServerFoundation.Sql

/-- The two dialects. -/
inductive Dialect where
  | mysql
  | postgres
deriving DecidableEq, Repr

/-- The fields of a date in universal time. -/
structure UtcFields where
  year : ℤ
  month : ℕ
  date : ℕ
  hours : ℕ
  minutes : ℕ
  seconds : ℕ
  milliseconds : ℕ
deriving DecidableEq, Repr

/-- The ways to hold bytes. -/
inductive Bytes where
  | buffer
  | uint8Array
  | arrayBuffer
deriving DecidableEq, Repr

/-- A data value, an object with its own properties in the order of their enumeration. -/
inductive Data where
  | undefined
  | null
  | boolean (value : Bool)
  | number (value : JsNumber)
  | bigint (value : ℤ)
  | string (value : String)
  | bytes (holder : Bytes) (content : List UInt8)
  | date (fields : Option UtcFields)
  | array (items : List Data)
  | object (entries : List (String × Data))

namespace Data

/-- An own property of an object. -/
def get? (key : String) : Data → Option Data
  | object entries => entries.lookup key
  | _ => none

/-- `value.kind === kind`. -/
def hasKind (kind : String) (value : Data) : Bool :=
  match value.get? "kind" with
  | some (.string found) => found = kind
  | _ => false

/-- An object that is taken for a fragment. -/
def forged (value : Data) : Bool :=
  value.hasKind "sql" || value.hasKind "identifier" || value.hasKind "rawTrusted"

/-- `value === null || value === undefined`. -/
def isNullish : Data → Bool
  | null => true
  | undefined => true
  | _ => false

/-- The text of a string. -/
def asString : Data → Option String
  | string value => some value
  | _ => none

/-- The items of an array. -/
def asArray : Data → Option (List Data)
  | array items => some items
  | _ => none

end Data

/-- A value in a template: data, or what a fragment constructor made. -/
inductive SqlValue where
  | data (value : Data)
  | query (chunks : List String) (values : List SqlValue)
  | identifier (names : List String)
  | rawTrusted (text : String)

/-- `SqlQuery`. -/
structure SqlQuery where
  chunks : List String
  values : List SqlValue

/-- A query as a value of another template. -/
def SqlQuery.toValue (query : SqlQuery) : SqlValue := .query query.chunks query.values

namespace SqlValue

/-- `isSqlQuery`. -/
def isSqlQuery : SqlValue → Bool
  | query _ _ => true
  | data value => value.hasKind "sql"
  | _ => false

/-- `isIdentifier`. -/
def isIdentifier : SqlValue → Bool
  | identifier _ => true
  | data value => value.hasKind "identifier"
  | _ => false

/-- `isTrustedRaw`. -/
def isTrustedRaw : SqlValue → Bool
  | rawTrusted _ => true
  | data value => value.hasKind "rawTrusted"
  | _ => false

/-- The property `chunks`. -/
def chunks : SqlValue → Option (List String)
  | query chunks _ => some chunks
  | data value => do (← (← value.get? "chunks").asArray).mapM Data.asString
  | _ => none

/-- The property `values`. -/
def values : SqlValue → Option (List SqlValue)
  | query _ values => some values
  | data value => do return (← (← value.get? "values").asArray).map data
  | _ => none

/-- The property `names`. -/
def names : SqlValue → Option (List String)
  | identifier names => some names
  | data value => do (← (← value.get? "names").asArray).mapM Data.asString
  | _ => none

/-- The property `text`. -/
def text : SqlValue → Option String
  | rawTrusted text => some text
  | data value => do (← value.get? "text").asString
  | _ => none

end SqlValue

section Templates

/-- `chunks[chunks.length - 1] += text`. -/
def appendLast : List String → String → List String
  | [], text => [text]
  | [last], text => [last ++ text]
  | chunk :: rest, text => chunk :: appendLast rest text

/-- The loop that takes over the values of a spliced query, each with the chunk after it. -/
def spliceValues (query : SqlQuery) : List String → List SqlValue → SqlQuery
  | _, [] => query
  | chunks, value :: rest =>
      spliceValues ⟨query.chunks ++ [chunks.headD ""], query.values ++ [value]⟩ chunks.tail rest

/-- One pass of the loop of the tag, over one value and the chunk after it. -/
def insertValue (query : SqlQuery) (value : SqlValue) (nextChunk : String) : Option SqlQuery :=
  if value.isSqlQuery then do
    let chunks ← value.chunks
    let values ← value.values
    let spliced := spliceValues ⟨appendLast query.chunks (chunks.headD ""), query.values⟩
      chunks.tail values
    return ⟨appendLast spliced.chunks nextChunk, spliced.values⟩
  else some ⟨query.chunks ++ [nextChunk], query.values ++ [value]⟩

/-- The loop of the tag. -/
def insertValues (query : SqlQuery) : List String → List SqlValue → Option SqlQuery
  | _, [] => some query
  | strings, value :: rest => do
      let inserted ← insertValue query value (strings.headD "")
      insertValues inserted strings.tail rest

/-- The template tag `sql`. -/
def sqlTag (strings : List String) (values : List SqlValue) : Option SqlQuery :=
  insertValues ⟨[strings.headD ""], []⟩ strings.tail values

/-- The loop of `sql.join`. -/
def joinFrom (separator : SqlQuery) (result : SqlQuery) : List SqlValue → Option SqlQuery
  | [] => some result
  | value :: rest => do
      let joined ← sqlTag ["", "", "", ""] [result.toValue, separator.toValue, value]
      joinFrom separator joined rest

/-- `sql.join`. -/
def join (values : List SqlValue) (separator : SqlQuery) : Option SqlQuery :=
  match values with
  | [] => some ⟨[""], []⟩
  | value :: rest => do
      let first ← sqlTag ["", ""] [value]
      joinFrom separator first rest

/-- The separator `sql.join` takes by itself. -/
def comma : SqlQuery := ⟨[", "], []⟩

/-- `sql.identifier`. -/
def identifier (names : List String) : Option SqlValue :=
  if names = [] then none
  else if names.any fun name => name = "" || name.toList.contains (Char.ofNat 0) then none
  else some (.identifier names)

/-- `sql.rawTrusted`. -/
def rawTrusted (text : String) : SqlValue := .rawTrusted text

/-- `createSqlQuery`. -/
def createSqlQuery (sqlIn : String) (bindings : List SqlValue) : Option SqlQuery :=
  let parts := (sqlIn.toList.splitOn '?').map String.ofList
  if parts.length - 1 = bindings.length then some ⟨parts, bindings⟩ else none

end Templates

section Rendering

/-- A number in at least `size` places. -/
def pad (value : ℤ) (size : ℕ) : String :=
  let digits := toString value
  String.ofList (List.replicate (size - digits.length) '0') ++ digits

/-- `formatSqlDateTimeUtc`. -/
def formatSqlDateTimeUtc (fields : UtcFields) : String :=
  pad fields.year 4 ++ "-" ++ pad fields.month 2 ++ "-" ++ pad fields.date 2 ++ " " ++
    pad fields.hours 2 ++ ":" ++ pad fields.minutes 2 ++ ":" ++ pad fields.seconds 2 ++ "." ++
    pad fields.milliseconds 3

/-- `normalizeSqlBindingValue`. -/
def normalizeSqlBindingValue : SqlValue → SqlValue
  | .data (.bigint value) => .data (.string (toString value))
  | .data (.date (some fields)) => .data (.string (formatSqlDateTimeUtc fields))
  | value => value

/-- `name.replace` of every quote by two. -/
def doubleQuotes (quote : Char) (name : String) : String :=
  String.ofList (name.toList.flatMap fun char => if char = quote then [quote, quote] else [char])

/-- `quoteIdentifier`. -/
def quoteIdentifier (name : String) : Dialect → String
  | .postgres => "\"" ++ doubleQuotes '"' name ++ "\""
  | .mysql => String.singleton (Char.ofNat 96) ++ doubleQuotes (Char.ofNat 96) name ++
      String.singleton (Char.ofNat 96)

/-- `renderIdentifier`. -/
def renderIdentifier (names : List String) (dialect : Dialect) : String :=
  ".".intercalate (names.map fun name => quoteIdentifier name dialect)

/-- `RenderedSql`. -/
structure RenderedSql where
  sql : String
  bindings : List SqlValue

/-- The placeholder of a binding. -/
def placeholder (dialect : Dialect) (count : ℕ) : String :=
  match dialect with
  | .postgres => "$" ++ toString count
  | .mysql => "?"

/-- One pass of the loop of `renderSql`, up to the chunk after the value. -/
def renderValue (dialect : Dialect) (rendered : RenderedSql) (value : SqlValue) :
    Option RenderedSql :=
  if value.isIdentifier then
    value.names.map fun names =>
      ⟨rendered.sql ++ renderIdentifier names dialect, rendered.bindings⟩
  else if value.isTrustedRaw then
    value.text.map fun text => ⟨rendered.sql ++ text, rendered.bindings⟩
  else
    let bindings := rendered.bindings ++ [normalizeSqlBindingValue value]
    some ⟨rendered.sql ++ placeholder dialect bindings.length, bindings⟩

/-- The loop of `renderSql`. -/
def renderValues (dialect : Dialect) (rendered : RenderedSql) :
    List String → List SqlValue → Option RenderedSql
  | _, [] => some rendered
  | chunks, value :: rest => do
      let written ← renderValue dialect rendered value
      renderValues dialect ⟨written.sql ++ chunks.headD "", written.bindings⟩ chunks.tail rest

/-- `SqlInput`. -/
inductive SqlInput where
  | text (sql : String)
  | query (query : SqlQuery)

/-- `renderSql`. -/
def renderSql (input : SqlInput) (dialect : Dialect) : Option RenderedSql :=
  match input with
  | .text sql => some ⟨sql, []⟩
  | .query query => renderValues dialect ⟨query.chunks.headD "", []⟩ query.chunks.tail query.values

end Rendering

end ServerFoundation.Sql
