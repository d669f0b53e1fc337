import ServerFoundation.Data.JsText
import ServerFoundation.Sql.Query

/-!
# Generated identifiers

The names that indexes and foreign keys get when none is given: table, columns and a
suffix joined by underscores, and a hash in the middle of a name that is too long for
the dialect. Lengths and hash go by code units.
-/

namespace ServerFoundation.Schema

open Sql

/-- The length at which a database cuts names. -/
def maxIdentifierLength : Dialect → ℕ
  | .mysql => 64
  | .postgres => 63

/-- `hashIdentifier`, as a number. -/
def hashUnits (units : List ℕ) : ℕ :=
  units.foldl (fun hash unit => Nat.xor hash unit * 0x01000193 % 2 ^ 32) 0x811C9DC5

/-- `hashIdentifier`. -/
def hashIdentifier (input : String) : String :=
  let digits := Nat.toDigits 16 (hashUnits (JsText.units input))
  String.ofList (List.replicate (8 - digits.length) '0' ++ digits)

/-- `normalizeGeneratedIdentifier`. -/
def normalizeGeneratedIdentifier (name : String) (dialect : Dialect) : String :=
  let maxLength := maxIdentifierLength dialect
  let units := JsText.units name
  if units.length ≤ maxLength then name
  else
    let hash := hashIdentifier name
    let remaining := maxLength - JsText.length hash - 2
    let headLength := (remaining + 1) / 2
    let tailLength := remaining / 2
    String.ofList (JsText.textOfUnits (units.take headLength)) ++ "_" ++ hash ++ "_" ++
      String.ofList (JsText.textOfUnits (units.drop (units.length - tailLength)))

/-- `defaultBlueprintIdentifierName`. -/
def defaultBlueprintIdentifierName (tableName : String) (columns : List String) (suffix : String)
    (dialect : Dialect) : String :=
  normalizeGeneratedIdentifier (tableName ++ "_" ++ "_".intercalate columns ++ "_" ++ suffix)
    dialect

/-- `defaultSchemaIndexName`. -/
def defaultSchemaIndexName (tableName : String) (columns : List String) (unique : Bool)
    (dialect : Dialect) : String :=
  defaultBlueprintIdentifierName tableName columns (if unique then "unique" else "index") dialect

/-- `defaultEntityIndexName`. -/
def defaultEntityIndexName (tableName : String) (columns : List String) (dialect : Dialect) :
    String :=
  normalizeGeneratedIdentifier ("idx_" ++ tableName ++ "_" ++ "_".intercalate columns) dialect

/-- `name.replace(/_index$/, '_foreign')`. -/
def defaultForeignKeyName (tableName : String) (columns : List String) (dialect : Dialect) :
    String :=
  let name := (defaultSchemaIndexName tableName columns false dialect).toList
  let suffix := "_index".toList
  if suffix <:+ name then
    String.ofList (name.take (name.length - suffix.length)) ++ "_foreign"
  else String.ofList name

end ServerFoundation.Schema
