import ServerFoundation.Data.JsText
import ServerFoundation.Data.NumberReading
import ServerFoundation.Schema.DdlText

/-!
# Enumerations in the catalogue of MySQL

`parseRawSqlType` lowers the text of a type, collapses its white space and removes the word
`unsigned`, inside quotes as well as outside of them, before it takes the list of an
enumeration apart at its commas.
-/

namespace ServerFoundation.Schema

open Sql

section Parser

variable (toLowerCase : List Char → List Char)

/-- `.replace(/\s+/g, ' ')`, behind white space or not. -/
def collapse : Bool → List Char → List Char
  | _, [] => []
  | behindSpace, char :: rest =>
      if JsNumber.isWhiteSpace char then
        (if behindSpace then [] else [' ']) ++ collapse true rest
      else char :: collapse false rest

/-- `\w`. -/
def isWordChar (char : Char) : Bool := char.isAlphanum || char = '_'

/-- What follows a word at the start of a text. -/
def behindWord : List Char → List Char → Option (List Char)
  | [], text => some text
  | _ :: _, [] => none
  | letter :: word, char :: text => if letter = char then behindWord word text else none

/-- The word `unsigned`. -/
def unsignedWord : List Char := ['u', 'n', 's', 'i', 'g', 'n', 'e', 'd']

/-- The word `unsigned` starts here and ends as a word. -/
def unsignedHere (text : List Char) : Bool :=
  (behindWord unsignedWord text).any fun rest => rest.head?.all fun char => !isWordChar char

/-- `/\bunsigned\b/.test`, behind a word character or not. -/
def hasUnsigned : Bool → List Char → Bool
  | _, [] => false
  | behindLetter, char :: rest =>
      !behindLetter && unsignedHere (char :: rest) || hasUnsigned (isWordChar char) rest

/-- `.replace(/\bunsigned\b/g, '')`, with the number of characters still to be left out. -/
def removeUnsigned : ℕ → Bool → List Char → List Char
  | _, _, [] => []
  | skipped + 1, _, _ :: rest => removeUnsigned skipped true rest
  | 0, behindLetter, char :: rest =>
      if !behindLetter && unsignedHere (char :: rest) then removeUnsigned 7 true rest
      else char :: removeUnsigned 0 (isWordChar char) rest

/-- `/^enum\s*\((.*)\)$/`. -/
def enumBody (text : List Char) : Option (List Char) :=
  (behindWord ['e', 'n', 'u', 'm'] text).bind fun rest =>
    match rest.dropWhile JsNumber.isWhiteSpace with
    | '(' :: inner =>
        if inner.getLast? = some ')' ∧ !inner.dropLast.any JsText.isLineTerminator then
          some inner.dropLast
        else none
    | _ => none

/-- `.replace(/^'(.*)'$/, '$1')`. -/
def stripQuotes : List Char → List Char
  | '\'' :: inner =>
      if inner.getLast? = some '\'' ∧ !inner.dropLast.any JsText.isLineTerminator then
        inner.dropLast
      else '\'' :: inner
  | text => text

/-- `.replace(/''/g, "'")`. -/
def undouble : List Char → List Char
  | '\'' :: '\'' :: rest => '\'' :: undouble rest
  | char :: rest => char :: undouble rest
  | [] => []

/-- `ResolvedColumnType`. -/
structure ResolvedColumnType where
  type : String
  size : Option JsNumber
  scale : Option JsNumber
  unsigned : Option Bool
  enumValues : Option (List String)
deriving DecidableEq

/-- `canonicalType`. -/
def canonicalType (type : String) : String :=
  match String.ofList (toLowerCase type.toList) with
  | "integer" => "int"
  | "bool" => "boolean"
  | "numeric" => "decimal"
  | "character varying" => "varchar"
  | "timestamp without time zone" => "timestamp"
  | "timestamp with time zone" => "timestamp"
  | "double precision" => "double"
  | lowered => lowered

/-- Digits up to something else. -/
def takeDigits (text : List Char) : Option (JsNumber × List Char) :=
  let digits := text.takeWhile Char.isDigit
  if digits = [] then none
  else some (JsNumber.readSigned digits, text.dropWhile Char.isDigit)

/-- `(?:\((\d+)(?:\s*,\s*(\d+))?\))?$`. -/
def sizeAndScale : List Char → Option (Option JsNumber × Option JsNumber)
  | [] => some (none, none)
  | '(' :: rest =>
      (takeDigits rest).bind fun size =>
        match size.2, size.2.dropWhile JsNumber.isWhiteSpace with
        | [')'], _ => some (some size.1, none)
        | _, ',' :: rest =>
            (takeDigits (rest.dropWhile JsNumber.isWhiteSpace)).bind fun scale =>
              if scale.2 = [')'] then some (some size.1, some scale.1) else none
        | _, _ => none
  | _ => none

/-- `/^([a-z ]+?)(?:\((\d+)(?:\s*,\s*(\d+))?\))?$/`. -/
def sizedName (text : List Char) : Option (List Char × Option JsNumber × Option JsNumber) :=
  let isNameChar (char : Char) := char.isLower || char = ' '
  let name := text.takeWhile isNameChar
  if name = [] then none else (sizeAndScale (text.dropWhile isNameChar)).map (name, ·)

/-- `parseRawSqlType`. -/
def parseRawSqlType (raw : String) (dialect : Dialect) : ResolvedColumnType :=
  let normalized := collapse false (toLowerCase (JsNumber.trim raw.toList))
  let unsigned := dialect = .mysql && hasUnsigned false normalized
  let withoutUnsigned := JsNumber.trim (removeUnsigned 0 false normalized)
  match enumBody withoutUnsigned with
  | some body =>
      { type := "enum", size := none, scale := none, unsigned := none
        enumValues := some ((JsText.splitCommas body).map fun item =>
          String.ofList (undouble (stripQuotes (JsNumber.trim item)))) }
  | none =>
      match sizedName withoutUnsigned with
      | none =>
          { type := canonicalType toLowerCase (String.ofList withoutUnsigned), size := none
            scale := none, unsigned := some unsigned, enumValues := none }
      | some (name, size, scale) =>
          { type := canonicalType toLowerCase (String.ofList (JsNumber.trim name)), size := size
            scale := scale, unsigned := some unsigned, enumValues := none }

end Parser

section Catalogue

/-- What the catalogue says of the type of a column. -/
structure CatalogueType where
  columnType : String
  characterMaximum : Option JsNumber
  numericPrecision : Option JsNumber
  numericScale : Option JsNumber

/-- `inferSize`. -/
def inferSize (parsed characterMaximum numericPrecision : Option JsNumber) (type : String) :
    Option JsNumber :=
  if parsed.isSome then parsed
  else if type ∈ ["varchar", "char", "binary", "varbinary"] ∧ characterMaximum.isSome then
    characterMaximum
  else if type ∈ ["decimal", "numeric"] then numericPrecision
  else none

/-- `inferScale`. -/
def inferScale (scale : Option JsNumber) (type : String) : Option JsNumber :=
  if type ∈ ["decimal", "numeric"] then scale else none

/-- The part of `readMySQLTable` that is about the type of a column. -/
def readMySQLType (toLowerCase : List Char → List Char) (row : CatalogueType)
    (column : ColumnSchema) : ColumnSchema :=
  let parsed := parseRawSqlType toLowerCase row.columnType .mysql
  { column with
    type := parsed.type
    size := inferSize parsed.size row.characterMaximum row.numericPrecision parsed.type
    scale := parsed.scale.or (inferScale row.numericScale parsed.type)
    unsigned := parsed.unsigned.getD false
    enumValues := parsed.enumValues }

/-- The type that MySQL reports for a column that was declared with `ENUM`. -/
def reportedEnum (values : List String) : String :=
  "enum(" ++ ",".intercalate (values.map fun value => literal (.string value)) ++ ")"

/-- The column of an entity whose type is a union of string literals. -/
def enumColumn (values : List String) (column : ColumnSchema) : ColumnSchema :=
  { column with
    type := "enum", size := none, scale := none, unsigned := false, enumValues := some values }

end Catalogue

section Matching

/-- `typeAlias`. -/
def typeAlias (type : String) (dialect : Dialect) : String :=
  match type with
  | "integer" => "int"
  | "numeric" => "decimal"
  | "bool" => if dialect = .mysql then "tinyint" else "boolean"
  | "boolean" => if dialect = .mysql then "tinyint" else "boolean"
  | "datetime" => if dialect = .postgres then "timestamp" else "datetime"
  | type => type

/-- `relevantSize`. -/
def relevantSize (column : ColumnSchema) (dialect : Dialect) : Option JsNumber :=
  if typeAlias column.type dialect ∈
      ["varchar", "char", "binary", "varbinary", "decimal", "numeric", "tinyint"] then column.size
  else none

/-- `isCanonicalBooleanTinyint`. -/
def isCanonicalBooleanTinyint (column : ColumnSchema) : Bool :=
  column.type = "boolean" ||
    column.type = "tinyint" && column.size = some (.finite 1) && column.unsigned

/-- `isCompatibleBooleanTinyintStorage`. -/
def isCompatibleBooleanTinyintStorage (column : ColumnSchema) : Bool :=
  column.type = "boolean" || column.size = some (.finite 1) ||
    column.size = none && column.unsigned

/-- `booleanTinyintTypesMatch`. -/
def booleanTinyintTypesMatch (left right : ColumnSchema) (dialect : Dialect) : Bool :=
  dialect = .mysql && typeAlias left.type dialect = "tinyint" &&
    typeAlias right.type dialect = "tinyint" &&
    (isCanonicalBooleanTinyint left && isCompatibleBooleanTinyintStorage right ||
      isCanonicalBooleanTinyint right && isCompatibleBooleanTinyintStorage left)

/-- `===` of sizes that may be missing. -/
def sameSize : Option JsNumber → Option JsNumber → Bool
  | some .nan, some .nan => false
  | left, right => left = right

/-- `typesMatch`. -/
def typesMatch (left right : ColumnSchema) (dialect : Dialect) : Bool :=
  typeAlias left.type dialect = typeAlias right.type dialect &&
    (booleanTinyintTypesMatch left right dialect ||
      sameSize (relevantSize left dialect) (relevantSize right dialect) &&
        sameSize left.scale right.scale && left.unsigned = right.unsigned &&
        left.enumValues.getD [] = right.enumValues.getD [])

end Matching

end ServerFoundation.Schema
