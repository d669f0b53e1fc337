import Mathlib.Data.List.Induction
import ServerFoundation.Data.JsObject
import ServerFoundation.Schema.EnumTypes
import ServerFoundation.Schema.Identifiers

/-!
# The indexes of entities

`readEntitiesSchema` gives every table the indexes that its entity declares and one for each
reference. Indexes are merged by name before their columns are looked at, and names are
made by joining tables and columns with underscores.
-/

namespace ServerFoundation.Schema

open Sql

section Reader

/-- A column of an entity. -/
structure EntityColumn where
  propertyName : String
  columnName : String
  /-- Its type resolves to an enumeration with values. -/
  isEnum : Bool

/-- An index as an entity declares it. -/
structure DeclaredIndex where
  names : List String
  name : Option String
  unique : Bool
  size : Option JsNumber

/-- A reference, with the primary key of the entity that it leads to. -/
structure EntityReference where
  propertyName : String
  foreignTable : String
  foreignColumns : List String
  onDelete : Option String
  onUpdate : Option String

/-- An entity whose table is not skipped. -/
structure Entity where
  tableName : String
  columns : List EntityColumn
  indexes : List DeclaredIndex
  references : List EntityReference

variable (dialect : Dialect)

/-- `columnNameForProperty`. -/
def Entity.columnNameForProperty (entity : Entity) (propertyName : String) : String :=
  ((entity.columns.reverse.find? fun column => column.propertyName = propertyName).map
    EntityColumn.columnName).getD propertyName

/-- The index that a declaration asks for. -/
def Entity.indexSchema (entity : Entity) (declared : DeclaredIndex) : IndexSchema :=
  let columns := declared.names.map entity.columnNameForProperty
  { name := (expressionOf declared.name).getD
      (defaultEntityIndexName entity.tableName columns dialect)
    columns := columns
    unique := declared.unique
    size := declared.size
    columnSizes := []
    spatial := false }

/-- The declarations that name a column. -/
def Entity.declared (entity : Entity) : List IndexSchema :=
  (entity.indexes.map (entity.indexSchema dialect)).filter fun schema => schema.columns ≠ []

end Reader

section Merging

variable {schema : IndexSchema} {indexes : List IndexSchema}

end Merging

section References

variable {dialect : Dialect} {tableName : String}

end References

section Entities

variable (dialect : Dialect)

variable {dialect}

end Entities

end ServerFoundation.Schema
