import ServerFoundation.Database.Mutation

/-!
# Entities

An entity is an object of a registered class. Next to its properties, a weak map keeps
the fields it had when it was last known to agree with its row: an entity with such a
snapshot counts as persisted, one without counts as new, and a field is dirty when it
differs from the snapshot.
-/

namespace ServerFoundation.Database

/-- What `getEntityMetadata` makes of a class whose primary key is not computed from other columns.
-/
structure EntityMetadata.WellFormed (metadata : EntityMetadata) : Prop where
  names : (metadata.columns.map (·.propertyName)).Nodup
  keyColumns : ∀ column ∈ metadata.primaryKeys, column ∈ metadata.columns
  first : metadata.primaryKeys.head? = some metadata.primaryKey
  flagged : ∀ column ∈ metadata.columns, column.primaryKey → column ∈ metadata.primaryKeys
  plainKeys : ∀ column ∈ metadata.primaryKeys, column.generated = false

/-- The classes of a database by their names, the observed classes, and the values that the database
itself gives to columns that no statement writes. -/
structure Schema (Value : Type) where
  getEntityMetadata : String → EntityMetadata
  hasMutationInterceptorFor : String → Bool
  computed : EntityMetadata → ColumnMetadata → Snapshot Value → FieldValue Value
  classType_eq : ∀ name, (getEntityMetadata name).classType = name
  wellFormed : ∀ name, (getEntityMetadata name).WellFormed

/-- A row is found by its class and the values of its primary key. -/
abbrev RowKey (Value : Type) := String × List (FieldValue Value)

/-- An entity object and its entry in `OriginalSnapshot`. -/
structure Instance (Value : Type) where
  classType : String
  properties : String → FieldValue Value
  original : Option (Snapshot Value)

namespace FieldValue

variable {Value : Type}

/-- What a column holds after a value has been written to it. -/
def stored : FieldValue Value → FieldValue Value
  | .undefined | .null => .null
  | .value held => .value held

/-- `value === undefined || value === null`. -/
def missing : FieldValue Value → Bool
  | .value _ => false
  | .undefined | .null => true

/-- `isAutoIncrementSentinel`. -/
def isAutoIncrementSentinel [Zero Value] [DecidableEq Value] : FieldValue Value → Bool
  | .value held => held = 0
  | .undefined | .null => true

end FieldValue

namespace Instance

variable {Value : Type} (schema : Schema Value) (entity : Instance Value)

/-- The metadata of the class of an instance. -/
def metadata : EntityMetadata := schema.getEntityMetadata entity.classType

/-- The value of a column. -/
def field (column : ColumnMetadata) : FieldValue Value := entity.properties column.propertyName

/-- `getEntityFields`, and `getEntitySnapshot`, which returns a copy. -/
def getEntityFields : Snapshot Value :=
  JsObject.fromEntries ((entity.metadata schema).columns.map fun column =>
    (column.propertyName, entity.field column))

/-- `hasEntitySnapshot`. -/
def hasEntitySnapshot : Bool := entity.original.isSome

/-- `markEntityClean`. -/
def markEntityClean : Instance Value :=
  { entity with original := some (entity.getEntityFields schema) }

/-- `getEntityOriginal`. -/
def getEntityOriginal : Snapshot Value := entity.original.getD .empty

/-- Assignment to a property. -/
def set (property : String) (value : FieldValue Value) : Instance Value :=
  { entity with properties := Function.update entity.properties property value }

/-- `Object.assign(entity, snapshot)`. -/
def assign (snapshot : Snapshot Value) : Instance Value :=
  { entity with
    properties := fun property => (snapshot.get? property).getD (entity.properties property) }

/-- The values of the primary key. -/
def keyValues : List (FieldValue Value) := (entity.metadata schema).primaryKeys.map entity.field

/-- The row that statements about the entity address. -/
def rowKey : RowKey Value := (entity.classType, entity.keyValues schema)

/-- A column is named by `getDirtyDetails`. -/
def isDirty [DecidableEq Value] (column : ColumnMetadata) : Bool :=
  read entity.original column.propertyName ≠ entity.field column

end Instance

section Columns

variable {Value : Type} {columns : List ColumnMetadata}

section

variable (names : (columns.map (·.propertyName)).Nodup) {column : ColumnMetadata}
  (value : ColumnMetadata → FieldValue Value)
include names

theorem get?_columns (member : column ∈ columns) :
    (JsObject.fromEntries (columns.map fun column =>
      (column.propertyName, value column))).get? column.propertyName = some (value column) := by
  have nodup : ((columns.map fun column => (column.propertyName, value column)).map
      Prod.fst).Nodup := by
    rw [List.map_map]
    exact names
  rw [JsObject.get?_fromEntries nodup]
  exact (OrderedMap.lookup_eq_some_iff nodup _ _).mpr (List.mem_map.mpr ⟨column, member, rfl⟩)

theorem read_columns (member : column ∈ columns) :
    read (some (JsObject.fromEntries (columns.map fun column =>
      (column.propertyName, value column)))) column.propertyName = value column := by
  simp only [read, Option.bind_some, get?_columns names value member, Option.getD_some]

theorem eq_of_propertyName_eq {other : ColumnMetadata} (member : column ∈ columns)
    (otherMember : other ∈ columns) (same : column.propertyName = other.propertyName) :
    column = other :=
  List.inj_on_of_nodup_map names member otherMember same

theorem get?_columns_of_not_mem {some_ : List ColumnMetadata} (sublist : some_.Sublist columns)
    (member : column ∈ columns) (other : column ∉ some_) :
    (JsObject.fromEntries (some_.map fun column =>
      (column.propertyName, value column))).get? column.propertyName = none := by
  have namesEq : (some_.map fun column => (column.propertyName, value column)).map Prod.fst =
      some_.map (·.propertyName) := by
    rw [List.map_map]
    rfl
  have nodup : (some_.map (·.propertyName)).Nodup := names.sublist (sublist.map _)
  rw [JsObject.get?_fromEntries (namesEq ▸ nodup), OrderedMap.lookup_eq_none_iff, namesEq]
  intro found
  rcases List.mem_map.mp found with ⟨listed, listedMem, same⟩
  have sameColumn := eq_of_propertyName_eq names (sublist.subset listedMem) member same
  exact other (sameColumn ▸ listedMem)

end

end Columns

namespace Instance

variable {Value : Type} {schema : Schema Value} {entity : Instance Value} {column : ColumnMetadata}

theorem names : ((entity.metadata schema).columns.map (·.propertyName)).Nodup :=
  (schema.wellFormed _).names

theorem read_getEntityFields (member : column ∈ (entity.metadata schema).columns) :
    read (some (entity.getEntityFields schema)) column.propertyName = entity.field column :=
  read_columns names _ member

theorem field_set_of_ne {property : String} (value : FieldValue Value)
    (other : column.propertyName ≠ property) :
    (entity.set property value).field column = entity.field column := by
  simp [Instance.set, field, other]

end Instance

end ServerFoundation.Database
