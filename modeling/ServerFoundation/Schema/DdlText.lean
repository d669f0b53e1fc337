import ServerFoundation.Data.NumberText
import ServerFoundation.Sql.Query

/-!
# The text of definitions

The schema of a table, and how `ddl-generator.ts` writes its columns, indexes and foreign
keys.
-/

namespace ServerFoundation.Schema

open Sql

/-- The value of a default. -/
inductive DefaultValue where
  | null
  | number (value : JsNumber)
  | boolean (value : Bool)
  | string (value : String)
deriving DecidableEq

/-- How a generated column is stored. -/
inductive Storage where
  | virtual
  | stored
deriving DecidableEq

/-- `GeneratedColumnSchema`. -/
structure GeneratedColumnSchema where
  expression : String
  storage : Storage
deriving DecidableEq

/-- `ColumnSchema`. -/
structure ColumnSchema where
  name : String
  type : String
  size : Option JsNumber
  scale : Option JsNumber
  unsigned : Bool
  nullable : Bool
  autoIncrement : Bool
  primaryKey : Bool
  defaultValue : Option DefaultValue
  defaultExpression : Option String
  onUpdateExpression : Option String
  generated : Option GeneratedColumnSchema
  enumValues : Option (List String)
  enumTypeName : Option String
  /-- A column to stand after, or nothing before it. -/
  afterColumn : Option (Option String)
deriving DecidableEq

/-- `IndexSchema`. -/
structure IndexSchema where
  name : String
  columns : List String
  unique : Bool
  size : Option JsNumber
  columnSizes : List (String × JsNumber)
  spatial : Bool
deriving DecidableEq

/-- `ForeignKeySchema`. -/
structure ForeignKeySchema where
  name : String
  localColumns : List String
  foreignTable : String
  foreignColumns : List String
  onDelete : Option String
  onUpdate : Option String
deriving DecidableEq

/-- An expression that is there and not empty. -/
def expressionOf (expression : Option String) : Option String := expression.filter (· ≠ "")

/-- `column.enumValues`, if it has any. -/
def ColumnSchema.values (column : ColumnSchema) : Option (List String) :=
  column.enumValues.filter (· ≠ [])

/-- `literal`. -/
def literal : DefaultValue → String
  | .null => "NULL"
  | .number value => String.ofList value.text
  | .boolean value => if value then "TRUE" else "FALSE"
  | .string value => "'" ++ doubleQuotes '\'' value ++ "'"

/-- The type of a column with its size and sign. -/
def sizedType (column : ColumnSchema) (dialect : Dialect) : String :=
  let size := match column.size, column.scale with
    | none, _ => ""
    | some size, some scale =>
        "(" ++ String.ofList size.text ++ ", " ++ String.ofList scale.text ++ ")"
    | some size, none => "(" ++ String.ofList size.text ++ ")"
  column.type ++ size ++ if dialect = .mysql ∧ column.unsigned then " unsigned" else ""

/-- The columns of an index, with their sizes. -/
def indexColumns (index : IndexSchema) (dialect : Dialect) : String :=
  ", ".intercalate (index.columns.map fun column =>
    let quoted := quoteIdentifier column dialect
    match (index.columnSizes.lookup column).or index.size with
    | some size =>
        if dialect = .mysql ∧ size ≠ .finite 0 ∧ size ≠ .nan then
          quoted ++ "(" ++ String.ofList size.text ++ ")"
        else quoted
    | none => quoted)

/-- The default of a column: an expression, or else a value. -/
def defaultClause (column : ColumnSchema) : List String :=
  match expressionOf column.defaultExpression, column.defaultValue with
  | some expression, _ => ["DEFAULT " ++ expression]
  | none, some value => ["DEFAULT " ++ literal value]
  | none, none => []

/-- The ON UPDATE clause of a column. -/
def onUpdateClause (column : ColumnSchema) (dialect : Dialect) : List String :=
  match dialect, expressionOf column.onUpdateExpression with
  | .mysql, some expression => ["ON UPDATE " ++ expression]
  | _, _ => []

/-- Identifiers one after the other. -/
def quoteAll (names : List String) (dialect : Dialect) : String :=
  ", ".intercalate (names.map fun name => quoteIdentifier name dialect)

namespace Ddl

/-- `DdlContext`. -/
structure Context where
  dialect : Dialect
  pgSchema : Option String

variable (context : Context)

/-- `qTable`, `qType` and `qIndex`. -/
def qualified (name : String) : String :=
  let quoted := quoteIdentifier name context.dialect
  match context.dialect, expressionOf context.pgSchema with
  | .postgres, some schema => quoteIdentifier schema .postgres ++ "." ++ quoted
  | _, _ => quoted

/-- `columnType`. -/
def columnType (column : ColumnSchema) : String :=
  let dialect := context.dialect
  match column.type, dialect, column.values with
  | "enum", .mysql, some values =>
      "ENUM(" ++ ", ".intercalate (values.map fun value => literal (.string value)) ++ ")"
  | "enum", .postgres, some _ => qualified context (column.enumTypeName.getD "enum")
  | "boolean", .mysql, _ => "tinyint(1)" ++ if column.unsigned then " unsigned" else ""
  | "json", .mysql, _ => "json"
  | "int", .postgres, _ => "integer"
  | "double", .postgres, _ => "double precision"
  | "datetime", .postgres, _ => "timestamp"
  | _, _, _ => sizedType column dialect

/-- `columnDefinition` of a column that is not generated. -/
def plainDefinition (column : ColumnSchema) (autoIncrement : Bool) : String :=
  let dialect := context.dialect
  let parts := [quoteIdentifier column.name dialect, columnType context column]
  let notNull := if column.nullable then [] else ["NOT NULL"]
  let identity :=
    if column.autoIncrement ∧ autoIncrement then
      match dialect with
      | .postgres => ["GENERATED BY DEFAULT AS IDENTITY"]
      | .mysql => ["AUTO_INCREMENT"]
    else []
  " ".intercalate (parts ++ notNull ++ identity ++ defaultClause column ++
    onUpdateClause column dialect)

/-- `columnDefinition`; `autoIncrement` is the option of that name. -/
def columnDefinition (column : ColumnSchema) (autoIncrement : Bool) : Except String String :=
  match column.generated with
  | some generated =>
      if context.dialect ≠ .mysql then
        .error "Generated columns are currently supported only for MySQL"
      else if column.autoIncrement then
        .error ("Generated column " ++ column.name ++ " cannot be auto-incrementing")
      else if (expressionOf column.defaultExpression).isSome ∨ column.defaultValue.isSome ∨
          (expressionOf column.onUpdateExpression).isSome then
        .error ("Generated column " ++ column.name ++
          " cannot define a default or ON UPDATE expression")
      else
        let storage := match generated.storage with
          | .virtual => "VIRTUAL"
          | .stored => "STORED"
        let notNull := if column.nullable then [] else ["NOT NULL"]
        .ok (" ".intercalate ([quoteIdentifier column.name .mysql, columnType context column,
          "GENERATED ALWAYS AS (" ++ generated.expression ++ ")", storage] ++ notNull))
  | none => .ok (plainDefinition context column autoIncrement)

/-- `createIndex`. -/
def createIndex (tableName : String) (index : IndexSchema) : String :=
  let unique := if index.unique then "UNIQUE " else ""
  "CREATE " ++ unique ++ "INDEX " ++ qualified context index.name ++ " ON " ++
    qualified context tableName ++ " (" ++ indexColumns index context.dialect ++ ")"

/-- `addForeignKey`. -/
def addForeignKey (tableName : String) (foreignKey : ForeignKeySchema) : String :=
  let dialect := context.dialect
  let parts := ["ALTER TABLE " ++ qualified context tableName ++ " ADD CONSTRAINT " ++
      quoteIdentifier foreignKey.name dialect,
    "FOREIGN KEY (" ++ quoteAll foreignKey.localColumns dialect ++ ") REFERENCES " ++
      qualified context foreignKey.foreignTable ++ " (" ++
      quoteAll foreignKey.foreignColumns dialect ++ ")"]
  let onDelete := (expressionOf foreignKey.onDelete).map ("ON DELETE " ++ ·)
  let onUpdate := (expressionOf foreignKey.onUpdate).map ("ON UPDATE " ++ ·)
  " ".intercalate (parts ++ onDelete.toList ++ onUpdate.toList)

end Ddl

end ServerFoundation.Schema
