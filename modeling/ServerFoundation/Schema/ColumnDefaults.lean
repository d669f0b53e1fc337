import Mathlib.Data.List.Infix
import ServerFoundation.Data.NumberConversion
import ServerFoundation.Schema.EnumCatalogue

/-!
# Defaults of columns

An initialiser becomes the default of a column, the catalogue reports it as a text, and
`db-reader.ts` guesses from the text which value it was. Two defaults match when their texts
or their numbers do.
-/

namespace ServerFoundation.Schema

open Sql

section Model

/-- `[\w\s]`. -/
def isCastChar (char : Char) : Bool := isWordChar char || JsNumber.isWhiteSpace char

/-- How many characters `/::[\w\s]+(?:\[\])?/` takes at the start of a text. -/
def castLength : List Char → ℕ
  | ':' :: ':' :: rest =>
      if rest.takeWhile isCastChar = [] then 0
      else
        2 + (rest.takeWhile isCastChar).length +
          if ['[', ']'] <+: rest.dropWhile isCastChar then 2 else 0
  | _ => 0

/-- `.replace(/::[\w\s]+(?:\[\])?/g, '')`, with the number of characters still to be left out. -/
def removeCasts : ℕ → List Char → List Char
  | _, [] => []
  | skipped + 1, _ :: rest => removeCasts skipped rest
  | 0, char :: rest =>
      match castLength (char :: rest) with
      | 0 => char :: removeCasts 0 rest
      | length + 1 => removeCasts length rest

/-- `/^-?\d+(\.\d+)?$/.test`. -/
def isPlainDecimal (text : List Char) : Bool :=
  let unsigned := match text with
    | '-' :: rest => rest
    | _ => text
  unsigned.takeWhile Char.isDigit ≠ [] &&
    match unsigned.dropWhile Char.isDigit with
    | [] => true
    | '.' :: fraction => fraction ≠ [] && fraction.all Char.isDigit
    | _ => false

/-- A text is a word of small letters up to its case. No other characters have these letters as
their upper or lower case. -/
def isWord (word : String) (text : List Char) : Bool := text.map Char.toLower = word.toList

/-- `type === 'boolean' || type === 'tinyint'`. -/
def BooleanType (type : String) : Prop := type = "boolean" ∨ type = "tinyint"

instance (type : String) : Decidable (BooleanType type) :=
  inferInstanceAs (Decidable (_ ∨ _))

/-- `normalizeDefault`. -/
def normalizeDefault (value : Option (List Char)) (type : String) : Option DefaultValue :=
  value.map fun text =>
    if isWord "null" text then .null
    else if BooleanType type ∧ (text = ['1'] ∨ isWord "true" text) then .boolean true
    else if BooleanType type ∧ (text = ['0'] ∨ isWord "false" text) then .boolean false
    else if isPlainDecimal text then .number (JsNumber.ofText (String.ofList text))
    else .string (String.ofList (stripQuotes text))

/-- `normalizePostgresDefault`. -/
def normalizePostgresDefault (value : Option (List Char)) : Option DefaultValue :=
  normalizeDefault (value.map fun text => stripQuotes (removeCasts 0 text)) ""

/-- What an initialiser gives, other than `undefined` and `null`. -/
inductive Initializer where
  | string (value : String)
  | number (value : JsNumber.Double)
  | boolean (value : Bool)
  | date
deriving DecidableEq

/-- `applyDefaultInitializer`. -/
def applyDefaultInitializer (column : ColumnSchema) (value : Option Initializer)
    (dialect : Dialect) : ColumnSchema :=
  if column.autoIncrement then column
  else
    match value with
    | none => column
    | some .date => { column with defaultExpression := some "CURRENT_TIMESTAMP" }
    | some (.boolean value) =>
        { column with
          defaultValue := some
            (if dialect = .mysql then .string (if value then "1" else "0") else .boolean value) }
    | some (.number value) => { column with defaultValue := some (.number value.val) }
    | some (.string value) => { column with defaultValue := some (.string value) }

/-- `String(value)`. -/
def DefaultValue.toText : DefaultValue → String
  | .null => "null"
  | .number value => String.ofList value.text
  | .boolean value => if value then "true" else "false"
  | .string value => value

/-- `Number(value)`. -/
def DefaultValue.toNumber : DefaultValue → JsNumber
  | .null => .finite 0
  | .number value => value
  | .boolean value => .finite (if value then 1 else 0)
  | .string value => JsNumber.ofText value

/-- Strict equality, equal texts, or equal numbers. -/
def valuesMatch (left right : DefaultValue) : Bool :=
  (left = right && left ≠ .number .nan) || left.toText = right.toText ||
    (left.toNumber ≠ .nan && right.toNumber ≠ .nan && left.toNumber = right.toNumber)

/-- `.replace(/\(\)/g, '')`. -/
def removeCalls : List Char → List Char
  | '(' :: ')' :: rest => removeCalls rest
  | char :: rest => char :: removeCalls rest
  | [] => []

variable (toUpperCase : List Char → List Char)

/-- `normalizeExpression`. -/
def normalizeExpression (expression : Option String) : Option (List Char) :=
  expression.map fun text => removeCalls (toUpperCase (JsNumber.trim text.toList))

/-- `defaultsMatch`. -/
def defaultsMatch (left right : ColumnSchema) : Bool :=
  if left.autoIncrement || right.autoIncrement then true
  else
    let leftHasDefault := left.defaultValue.isSome || left.defaultExpression.isSome
    let rightHasDefault := right.defaultValue.isSome || right.defaultExpression.isSome
    if !leftHasDefault || !rightHasDefault then leftHasDefault = rightHasDefault
    else if (expressionOf left.defaultExpression).isSome ∨
        (expressionOf right.defaultExpression).isSome then
      normalizeExpression toUpperCase left.defaultExpression =
        normalizeExpression toUpperCase right.defaultExpression
    else
      match left.defaultValue, right.defaultValue with
      | some left, some right => valuesMatch left right
      | none, none => true
      | _, _ => false

end Model

section Catalogue

/-- A name as the catalogue writes it: without quotes it is a word, or several. -/
structure CatalogueName where
  name : List Char
  quoted : Bool
  words : quoted = false → name ≠ [] ∧ name.all isCastChar = true

/-- A name as the catalogue writes it. -/
def CatalogueName.text (name : CatalogueName) : List Char :=
  if name.quoted then
    '"' :: name.name.flatMap (fun char => if char = '"' then ['"', '"'] else [char]) ++ ['"']
  else name.name

/-- The type of a cast, behind the schemas that qualify it, or a list of such. -/
structure CastType where
  schemas : List CatalogueName
  name : CatalogueName
  list : Bool

/-- The text behind the name of the type. -/
def CastType.suffix (cast : CastType) : List Char := if cast.list then ['[', ']'] else []

/-- The text of a cast. -/
def CastType.text (cast : CastType) : List Char :=
  ':' :: ':' :: (cast.schemas.flatMap (fun schema => schema.text ++ ['.']) ++
    (cast.name.text ++ cast.suffix))

/-- A type that is named by words alone. -/
def CastType.Plain (cast : CastType) : Prop := cast.schemas = [] ∧ cast.name.quoted = false

/-- What the catalogue reports of the literal that a column was defined with. -/
def reportedLiteral (dialect : Dialect) (cast : CastType) : DefaultValue → Option (List Char)
  | .null => none
  | .number value => some value.text
  | .boolean value =>
      match dialect with
      | .mysql => some [if value then '1' else '0']
      | .postgres => some (if value then "true" else "false").toList
  | .string value =>
      match dialect with
      | .mysql => some value.toList
      | .postgres => some ((literal (.string value)).toList ++ cast.text)

/-- What the catalogue reports of the clause that `columnDefinition` writes. -/
def reportedDefault (dialect : Dialect) (cast : CastType) (column : ColumnSchema) :
    Option (List Char) :=
  match expressionOf column.defaultExpression, column.defaultValue with
  | some expression, _ => some expression.toList
  | none, some value => reportedLiteral dialect cast value
  | none, none => none

/-- How the reader of a dialect reads a default. -/
def readDefault (dialect : Dialect) (type : String) (value : Option (List Char)) :
    Option DefaultValue :=
  match dialect with
  | .mysql => normalizeDefault value type
  | .postgres => normalizePostgresDefault value

/-- On Postgres a default with this text in it counts as the next value of a sequence. -/
def HasSequence (dialect : Dialect) (reported : Option (List Char)) : Prop :=
  dialect = .postgres ∧ "nextval(".toList <:+: reported.getD []

instance (dialect : Dialect) (reported : Option (List Char)) :
    Decidable (HasSequence dialect reported) := inferInstanceAs (Decidable (_ ∧ _))

/-- The column that is read back, of the type that the reader gives to it. -/
def readBack (dialect : Dialect) (cast : CastType) (type : String) (column : ColumnSchema) :
    ColumnSchema :=
  let reported := reportedDefault dialect cast column
  let autoIncrement := column.autoIncrement || HasSequence dialect reported
  { column with
    type := type
    autoIncrement := autoIncrement
    defaultValue :=
      if dialect = .postgres ∧ autoIncrement then none else readDefault dialect type reported
    defaultExpression := none }

variable (toUpperCase : List Char → List Char) (dialect : Dialect) (cast : CastType)
  (type : String) (column : ColumnSchema)

/-- A column with an initialiser. -/
def declared (value : Initializer) : ColumnSchema :=
  applyDefaultInitializer
    { column with autoIncrement := false, defaultValue := none, defaultExpression := none }
    (some value) dialect

/-- A declared default matches what is read back of another. -/
def Matches (value stored : Initializer) : Prop :=
  defaultsMatch toUpperCase (declared dialect column value)
    (readBack dialect cast type (declared dialect column stored)) = true

/-- The number that an initialiser is for JavaScript; a date stands for an expression. -/
def Initializer.toNumber : Initializer → JsNumber
  | .string value => JsNumber.ofText value
  | .number value => value.val
  | .boolean value => .finite (if value then 1 else 0)
  | .date => .nan

/-- A default survives the catalogue and is taken for no other one. -/
structure DefaultKept (stored : Initializer) : Prop where
  same : Matches toUpperCase dialect cast type column stored stored
  different : ∀ value, value ≠ stored → Matches toUpperCase dialect cast type column value stored →
    value.toNumber = stored.toNumber ∧ value.toNumber ≠ .nan

end Catalogue

section Condition

/-- The texts that are kept. -/
def ReadableText (dialect : Dialect) (cast : CastType) (type : String) (text : List Char) :
    Prop :=
  isWord "null" text = false ∧ text ≠ "NaN".toList ∧
    match dialect with
    | .mysql => stripQuotes text = text ∧ (BooleanType type →
        text ≠ ['1'] ∧ text ≠ ['0'] ∧ isWord "true" text = false ∧ isWord "false" text = false)
    | .postgres => cast.Plain ∧ ¬ "nextval(".toList <:+: text ∧
        text ≠ "true".toList ∧ text ≠ "false".toList ∧ removeCasts 0 text = text ∧
        text.any JsText.isLineTerminator = false ∧
          ('\'' ∉ text ∨ ∃ inner, '\'' ∉ inner ∧ text = '\'' :: inner ++ ['\''])

/-- The initialisers that are kept. -/
def Readable (dialect : Dialect) (cast : CastType) (type : String) : Initializer → Prop
  | .string value => ReadableText dialect cast type value.toList
  | .number value => value.val ≠ .nan ∧
      (dialect = .mysql → BooleanType type → value.val ≠ .finite 1 ∧ value.val ≠ .finite 0)
  | .boolean _ => dialect = .mysql ∧ ¬ BooleanType type
  | .date => False

end Condition

end ServerFoundation.Schema
