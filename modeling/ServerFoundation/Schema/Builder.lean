import ServerFoundation.Schema.DdlText
import ServerFoundation.Schema.Identifiers

/-!
# The schema builder

`db.schema.create` and `db.schema.alter` take the same calls. The first has its columns,
indexes and foreign keys written by `ddl-generator.ts`, the second writes them itself.
-/

namespace ServerFoundation.Schema

open Sql

section Calls

/-- The methods of `SchemaBlueprintBase` that add a column, with their optional arguments. -/
inductive ColumnMethod where
  | id
  | uuidString
  | uuid
  | string (size : Option JsNumber)
  | char (size : Option JsNumber)
  | text
  | tinyText
  | mediumText
  | longText
  | integer
  | tinyint
  | smallint
  | bigint
  | float
  | double
  | decimal (size scale : Option JsNumber)
  | boolean
  | dateTime
  | timestamp
  | timestamptz
  | time
  | date
  | json
  | jsonb
  | binary (size : Option JsNumber)
  | blob
  | enum (values : List String) (typeName : Option String)
  | point
deriving DecidableEq

/-- The methods of `SchemaColumnBuilder` that change its column or add an index to it. -/
inductive Modifier where
  | primary
  | nullable (value : Bool)
  | unsigned (value : Bool)
  | autoIncrement (value : Bool)
  | default (value : DefaultValue)
  | defaultRaw (expression : String)
  | onUpdate (expression : String)
  | after (columnName : Option String)
  | index (indexName : Option String)
  | unique (indexName : Option String)
  | references (referencedColumn : String)

/-- The methods of `SchemaForeignKeyBuilder`. -/
inductive ForeignKeyEdit where
  | references (columns : List String)
  | on (table : String)
  | onDelete (action : String)
  | onUpdate (action : String)
  | name (name : String)

/-- A statement about the table in a callback. -/
inductive BlueprintCall where
  | column (name : String) (method : ColumnMethod) (modifiers : List Modifier)
  | timestamps
  | index (columns : List String) (name : Option String)
  | unique (columns : List String) (name : Option String)
  | spatialIndex (columns : List String) (name : Option String)
  | foreign (columns : List String) (name : Option String) (edits : List ForeignKeyEdit)

/-- What the calls have added. -/
structure Blueprint where
  columns : List ColumnSchema
  indexes : List IndexSchema
  foreignKeys : List ForeignKeySchema

variable (tableName : String) (dialect : Dialect)

/-- A new column. -/
def newColumn (name type : String) (size scale : Option JsNumber) : ColumnSchema :=
  ⟨name, type, size, scale, false, false, false, false, none, none, none, none, none, none, none⟩

/-- A column as its method adds it. -/
def columnOf (name : String) : ColumnMethod → Except String ColumnSchema
  | .id => .ok { newColumn name "bigint" none none with
      unsigned := true, autoIncrement := true, primaryKey := true }
  | .uuidString => .ok (match dialect with
      | .postgres => newColumn name "uuid" none none
      | .mysql => newColumn name "char" (some (.finite 36)) none)
  | .uuid => .ok (match dialect with
      | .postgres => newColumn name "uuid" none none
      | .mysql => newColumn name "binary" (some (.finite 16)) none)
  | .string size => .ok (newColumn name "varchar" (some (size.getD (.finite 255))) none)
  | .char size => .ok (newColumn name "char" (some (size.getD (.finite 255))) none)
  | .text => .ok (newColumn name "text" none none)
  | .tinyText => .ok (newColumn name "tinytext" none none)
  | .mediumText => .ok (newColumn name "mediumtext" none none)
  | .longText => .ok (newColumn name "longtext" none none)
  | .integer => .ok (newColumn name "int" none none)
  | .tinyint => .ok (newColumn name "tinyint" none none)
  | .smallint => .ok (newColumn name "smallint" none none)
  | .bigint => .ok (newColumn name "bigint" none none)
  | .float => .ok (newColumn name "float" none none)
  | .double => .ok (newColumn name
      (match dialect with | .postgres => "double precision" | .mysql => "double") none none)
  | .decimal size scale => .ok (newColumn name "decimal" (some (size.getD (.finite 10)))
      (some (scale.getD (.finite 2))))
  | .boolean => .ok (match dialect with
      | .postgres => newColumn name "boolean" none none
      | .mysql => { newColumn name "tinyint" (some (.finite 1)) none with unsigned := true })
  | .dateTime => .ok (newColumn name
      (match dialect with | .postgres => "timestamp" | .mysql => "datetime") none none)
  | .timestamp => .ok (newColumn name "timestamp" none none)
  | .timestamptz => .ok (newColumn name
      (match dialect with | .postgres => "timestamptz" | .mysql => "timestamp") none none)
  | .time => .ok (newColumn name "time" none none)
  | .date => .ok (newColumn name "date" none none)
  | .json => .ok (newColumn name "json" none none)
  | .jsonb => .ok (newColumn name
      (match dialect with | .postgres => "jsonb" | .mysql => "json") none none)
  | .binary size => .ok (newColumn name
      (match dialect, size with
        | .postgres, _ => "bytea"
        | .mysql, none => "blob"
        | .mysql, some _ => "binary") size none)
  | .blob => .ok (newColumn name
      (match dialect with | .postgres => "bytea" | .mysql => "blob") none none)
  | .enum values typeName => .ok { newColumn name "enum" none none with
      enumValues := some values
      enumTypeName := match dialect with
        -- an empty name is left out of the schema
        | .postgres => expressionOf (some (typeName.getD (tableName ++ "_" ++ name ++ "_enum")))
        | .mysql => none }
  | .point => match dialect with
      | .mysql => .ok (newColumn name "point" none none)
      | .postgres => .error "point() is only supported for MySQL schemas"

/-- `index`, `unique` and `spatialIndex`. -/
def indexOf (columns : List String) (name : Option String) (unique spatial : Bool) : IndexSchema :=
  ⟨name.getD (defaultSchemaIndexName tableName columns unique dialect), columns, unique, none, [],
    spatial⟩

/-- What an edit makes of a foreign key. -/
def ForeignKeyEdit.apply (foreignKey : ForeignKeySchema) : ForeignKeyEdit → ForeignKeySchema
  | .references columns => { foreignKey with foreignColumns := columns }
  | .on table => { foreignKey with foreignTable := table }
  | .onDelete action => { foreignKey with onDelete := some action }
  | .onUpdate action => { foreignKey with onUpdate := some action }
  | .name chosen => { foreignKey with name := chosen }

/-- `foreign`, and what is called on its result. -/
def foreignOf (columns : List String) (name : Option String) (edits : List ForeignKeyEdit) :
    ForeignKeySchema :=
  edits.foldl ForeignKeyEdit.apply
    ⟨name.getD (defaultForeignKeyName tableName columns dialect), columns, "", [],
      some "RESTRICT", some "RESTRICT"⟩

/-- A call on a column, which may add an index or a foreign key to the table. -/
def Modifier.apply (column : ColumnSchema) : Modifier →
    ColumnSchema × List IndexSchema × List ForeignKeySchema
  | .primary => ({ column with primaryKey := true }, [], [])
  | .nullable value => ({ column with nullable := value }, [], [])
  | .unsigned value => ({ column with unsigned := value }, [], [])
  | .autoIncrement value => ({ column with autoIncrement := value }, [], [])
  | .default value =>
      ({ column with defaultValue := some value, defaultExpression := none }, [], [])
  | .defaultRaw expression =>
      ({ column with defaultExpression := some expression, defaultValue := none }, [], [])
  | .onUpdate expression => ({ column with onUpdateExpression := some expression }, [], [])
  | .after columnName => ({ column with afterColumn := some columnName }, [], [])
  | .index indexName =>
      (column, [indexOf tableName dialect [column.name] (expressionOf indexName) false false], [])
  | .unique indexName =>
      (column, [indexOf tableName dialect [column.name] indexName true false], [])
  | .references referenced =>
      (column, [], [foreignOf tableName dialect [column.name] none [.references [referenced]]])

/-- The calls on a column, one after the other. -/
def modify (column : ColumnSchema) :
    List Modifier → ColumnSchema × List IndexSchema × List ForeignKeySchema
  | [] => (column, [], [])
  | modifier :: modifiers =>
      let first := modifier.apply tableName dialect column
      let others := modify first.1 modifiers
      (others.1, first.2.1 ++ others.2.1, first.2.2 ++ others.2.2)

/-- A column method with the calls on its result. -/
def addColumn (name : String) (method : ColumnMethod) (modifiers : List Modifier) :
    Except String Blueprint := do
  let column ← columnOf tableName dialect name method
  let modified := modify tableName dialect column modifiers
  return ⟨[modified.1], modified.2.1, modified.2.2⟩

/-- What a call adds. -/
def BlueprintCall.added : BlueprintCall → Except String Blueprint
  | .column name method modifiers => addColumn tableName dialect name method modifiers
  | .timestamps => do
      let created ← addColumn tableName dialect "createdAt" .dateTime
        [.defaultRaw "CURRENT_TIMESTAMP"]
      let updated ← addColumn tableName dialect "updatedAt" .dateTime
        (.defaultRaw "CURRENT_TIMESTAMP" ::
          if dialect = .mysql then [.onUpdate "CURRENT_TIMESTAMP"] else [])
      return ⟨created.columns ++ updated.columns, [], []⟩
  | .index columns name => .ok ⟨[], [indexOf tableName dialect columns name false false], []⟩
  | .unique columns name => .ok ⟨[], [indexOf tableName dialect columns name true false], []⟩
  | .spatialIndex columns name => .ok ⟨[], [indexOf tableName dialect columns name false true], []⟩
  | .foreign columns name edits => .ok ⟨[], [], [foreignOf tableName dialect columns name edits]⟩

/-- The callback of `create` or `alter`. -/
def build : List BlueprintCall → Except String Blueprint
  | [] => .ok ⟨[], [], []⟩
  | call :: calls => do
      let first ← call.added tableName dialect
      let others ← build calls
      return ⟨first.columns ++ others.columns, first.indexes ++ others.indexes,
        first.foreignKeys ++ others.foreignKeys⟩

end Calls

section Texts

/-- The texts of the types, the columns, the indexes and the foreign keys. -/
structure Definitions where
  types : List String
  columns : List String
  indexes : List String
  foreignKeys : List String

/-- `columnType` of `schema.ts`. -/
def columnType (column : ColumnSchema) (dialect : Dialect) : String :=
  match column.type, dialect, column.values with
  | "enum", .mysql, some values =>
      "ENUM(" ++ ", ".intercalate (values.map fun value => literal (.string value)) ++ ")"
  | "enum", .postgres, some _ => quoteIdentifier (column.enumTypeName.getD "enum") dialect
  | "boolean", .mysql, _ => "tinyint(1)" ++ if column.unsigned then " unsigned" else ""
  | "json", .mysql, _ => "json"
  | "jsonb", .mysql, _ => "json"
  | "bytea", .mysql, _ => "blob"
  | "tinytext", .postgres, _ => "text"
  | "mediumtext", .postgres, _ => "text"
  | "longtext", .postgres, _ => "text"
  | "int", .postgres, _ => "integer"
  | "double", .postgres, _ => "double precision"
  | "datetime", .postgres, _ => "timestamp"
  | "binary", .postgres, _ => "bytea"
  | _, _, _ => sizedType column dialect

/-- `columnDefinition` of `schema.ts`. -/
def columnDefinition (column : ColumnSchema) (dialect : Dialect) : String :=
  let parts := [quoteIdentifier column.name dialect, columnType column dialect]
  let notNull := if column.nullable then [] else ["NOT NULL"]
  let identity :=
    if column.autoIncrement then
      match dialect with
      | .postgres => ["GENERATED BY DEFAULT AS IDENTITY"]
      | .mysql => ["AUTO_INCREMENT"]
    else []
  " ".intercalate (parts ++ notNull ++ identity ++ defaultClause column ++
    onUpdateClause column dialect)

/-- `createIndex` of `schema.ts`. -/
def createIndex (tableName : String) (index : IndexSchema) (dialect : Dialect) : String :=
  let unique := if index.unique then "UNIQUE " else ""
  let spatial := if dialect = .mysql ∧ index.spatial then "SPATIAL " else ""
  "CREATE " ++ spatial ++ unique ++ "INDEX " ++ quoteIdentifier index.name dialect ++ " ON " ++
    quoteIdentifier tableName dialect ++ " (" ++ indexColumns index dialect ++ ")"

/-- `addForeignKey` of `schema.ts`. -/
def addForeignKey (tableName : String) (foreignKey : ForeignKeySchema) (dialect : Dialect) :
    String :=
  let parts := ["ALTER TABLE " ++ quoteIdentifier tableName dialect ++ " ADD CONSTRAINT " ++
      quoteIdentifier foreignKey.name dialect,
    "FOREIGN KEY (" ++ quoteAll foreignKey.localColumns dialect ++ ") REFERENCES " ++
      quoteIdentifier foreignKey.foreignTable dialect ++ " (" ++
      quoteAll foreignKey.foreignColumns dialect ++ ")"]
  let onDelete := (expressionOf foreignKey.onDelete).map ("ON DELETE " ++ ·)
  let onUpdate := (expressionOf foreignKey.onUpdate).map ("ON UPDATE " ++ ·)
  " ".intercalate (parts ++ onDelete.toList ++ onUpdate.toList)

variable (tableName : String) (dialect : Dialect)

/-- What `create` puts into its statements, which are those of `generateDDL`. -/
def created (blueprint : Blueprint) : Except String Definitions := do
  let context : Ddl.Context := ⟨dialect, none⟩
  let columns ← blueprint.columns.mapM fun column => Ddl.columnDefinition context column true
  return ⟨blueprint.columns.map (Ddl.columnType context), columns,
    blueprint.indexes.map (Ddl.createIndex context tableName),
    blueprint.foreignKeys.map (Ddl.addForeignKey context tableName)⟩

/-- What `alter` puts into its statements. -/
def altered (blueprint : Blueprint) : Definitions :=
  ⟨blueprint.columns.map fun column => columnType column dialect,
    blueprint.columns.map fun column => columnDefinition column dialect,
    blueprint.indexes.map fun index => createIndex tableName index dialect,
    blueprint.foreignKeys.map fun foreignKey => addForeignKey tableName foreignKey dialect⟩

end Texts

section Agreement

variable {column : ColumnSchema} {dialect : Dialect} {tableName : String}

/-- The types that only `schema.ts` has a name of its own for. -/
def ownTypes : Dialect → List String
  | .mysql => ["jsonb", "bytea"]
  | .postgres => ["tinytext", "mediumtext", "longtext", "binary"]

theorem qualified_of_no_schema (dialect : Dialect) (name : String) :
    Ddl.qualified ⟨dialect, none⟩ name = quoteIdentifier name dialect := by
  cases dialect <;> rfl

theorem columnType_eq (agrees : column.type ∉ ownTypes dialect) :
    Ddl.columnType ⟨dialect, none⟩ column = columnType column dialect := by
  unfold Ddl.columnType columnType
  simp only [qualified_of_no_schema]
  split <;> split <;> simp_all [ownTypes]

theorem type_isPrefix_sizedType : column.type.toList <+: (sizedType column dialect).toList := by
  unfold sizedType
  simp only [String.toList_append, List.append_assoc]
  exact List.prefix_append _ _

theorem columnType_ne (differs : column.type ∈ ownTypes dialect) :
    Ddl.columnType ⟨dialect, none⟩ column ≠ columnType column dialect := by
  have own : Ddl.columnType ⟨dialect, none⟩ column = sizedType column dialect ∧
      ¬ column.type.toList <+: (columnType column dialect).toList := by
    rcases column with ⟨⟩
    cases dialect with
    | mysql =>
        simp only [ownTypes, List.mem_cons, List.not_mem_nil, or_false] at differs
        rcases differs with rfl | rfl
        · exact ⟨rfl, (by decide : ¬ "jsonb".toList <+: "json".toList)⟩
        · exact ⟨rfl, (by decide : ¬ "bytea".toList <+: "blob".toList)⟩
    | postgres =>
        simp only [ownTypes, List.mem_cons, List.not_mem_nil, or_false] at differs
        rcases differs with rfl | rfl | rfl | rfl
        · exact ⟨rfl, (by decide : ¬ "tinytext".toList <+: "text".toList)⟩
        · exact ⟨rfl, (by decide : ¬ "mediumtext".toList <+: "text".toList)⟩
        · exact ⟨rfl, (by decide : ¬ "longtext".toList <+: "text".toList)⟩
        · exact ⟨rfl, (by decide : ¬ "binary".toList <+: "bytea".toList)⟩
  rw [own.1]
  intro same
  exact own.2 (same ▸ type_isPrefix_sizedType)

theorem intercalate_second (separator first : String) (rest : List String) :
    ∃ tail : String, ∀ second : String,
      separator.intercalate (first :: second :: rest) = first ++ separator ++ second ++ tail := by
  cases rest with
  | nil => exact ⟨"", fun second => by simp [String.intercalate_cons_cons]⟩
  | cons third others =>
      refine ⟨separator ++ separator.intercalate (third :: others), fun second => ?_⟩
      simp [String.intercalate_cons_cons, String.append_assoc]

theorem plainDefinition_eq_iff :
    Ddl.plainDefinition ⟨dialect, none⟩ column true = columnDefinition column dialect ↔
      Ddl.columnType ⟨dialect, none⟩ column = columnType column dialect := by
  unfold Ddl.plainDefinition columnDefinition
  simp only [and_true, List.cons_append, List.nil_append]
  generalize hrest : (if column.nullable = true then [] else ["NOT NULL"]) ++ _ ++ _ ++ _ = rest
  rcases intercalate_second " " (quoteIdentifier column.name dialect) rest with ⟨tail, joined⟩
  rw [joined, joined]
  simp

theorem createIndex_eq_iff (index : IndexSchema) :
    Ddl.createIndex ⟨dialect, none⟩ tableName index = createIndex tableName index dialect ↔
      ¬ (dialect = .mysql ∧ index.spatial = true) := by
  unfold Ddl.createIndex createIndex
  simp only [qualified_of_no_schema]
  by_cases spatial : dialect = .mysql ∧ index.spatial = true
  · rw [if_pos spatial]
    refine iff_of_false (fun same => ?_) (not_not_intro spatial)
    have lengths := congrArg String.length same
    have marked : 0 < "SPATIAL ".length := by decide
    simp only [String.length_append] at lengths
    omega
  · simp [spatial]

theorem addForeignKey_eq (foreignKey : ForeignKeySchema) :
    Ddl.addForeignKey ⟨dialect, none⟩ tableName foreignKey =
      addForeignKey tableName foreignKey dialect := by
  unfold Ddl.addForeignKey addForeignKey
  simp only [qualified_of_no_schema]

end Agreement

section Calls

variable {tableName : String} {dialect : Dialect} {blueprint : Blueprint}

/-- The calls whose text differs. -/
def BlueprintCall.Differs (dialect : Dialect) : BlueprintCall → Prop
  | .column _ method _ =>
      dialect = .postgres ∧ (method = .tinyText ∨ method = .mediumText ∨ method = .longText)
  | .spatialIndex _ _ => dialect = .mysql
  | _ => False

/-- No text of a blueprint differs. -/
def Blueprint.Agrees (dialect : Dialect) (blueprint : Blueprint) : Prop :=
  (∀ column ∈ blueprint.columns, column.type ∉ ownTypes dialect) ∧
    ∀ index ∈ blueprint.indexes, ¬(dialect = .mysql ∧ index.spatial = true)

theorem columnOf_spec {name : String} {method : ColumnMethod} {column : ColumnSchema}
    (added : columnOf tableName dialect name method = .ok column) :
    column.generated = none ∧ (column.type ∈ ownTypes dialect ↔
      dialect = .postgres ∧ (method = .tinyText ∨ method = .mediumText ∨ method = .longText)) := by
  cases method with
  | binary size =>
      cases size <;> cases dialect <;> cases added <;> simp [newColumn, ownTypes]
  | _ => cases dialect <;> cases added <;> simp [newColumn, ownTypes]

theorem modify_spec (column : ColumnSchema) (modifiers : List Modifier) :
    (modify tableName dialect column modifiers).1.type = column.type ∧
      (modify tableName dialect column modifiers).1.generated = column.generated ∧
      ∀ index ∈ (modify tableName dialect column modifiers).2.1, index.spatial = false := by
  induction modifiers generalizing column with
  | nil => simp [modify]
  | cons modifier modifiers ih =>
      have rest := ih (modifier.apply tableName dialect column).1
      cases modifier <;> simpa [modify, Modifier.apply, indexOf] using rest

theorem addColumn_spec {name : String} {method : ColumnMethod} {modifiers : List Modifier}
    (added : addColumn tableName dialect name method modifiers = .ok blueprint) :
    (∀ column ∈ blueprint.columns, column.generated = none) ∧
      (blueprint.Agrees dialect ↔
        ¬(BlueprintCall.column name method modifiers).Differs dialect) := by
  unfold addColumn at added
  cases found : columnOf tableName dialect name method with
  | error message =>
      rw [found] at added
      cases added
  | ok column =>
      rw [found] at added
      cases added
      have start := columnOf_spec found
      rcases columnOf_spec found with ⟨notGenerated, ownType⟩
      rcases modify_spec column modifiers with ⟨sameType, sameGenerated, plain⟩
      refine ⟨?_, ?_⟩
      · intro other member
        rw [List.mem_singleton.mp member, sameGenerated]
        exact notGenerated
      · constructor
        · intro agrees differs
          refine agrees.1 _ (List.mem_singleton_self _) ?_
          rw [sameType]
          exact ownType.mpr differs
        · intro agrees
          refine ⟨fun other member own => ?_, fun index member spatial => ?_⟩
          · rw [List.mem_singleton.mp member, sameType] at own
            exact agrees (ownType.mp own)
          · rw [plain index member] at spatial
            exact absurd spatial.2 Bool.false_ne_true

theorem added_spec {call : BlueprintCall} (added : call.added tableName dialect = .ok blueprint) :
    (∀ column ∈ blueprint.columns, column.generated = none) ∧
      (blueprint.Agrees dialect ↔ ¬call.Differs dialect) := by
  cases call with
  | column name method modifiers => exact addColumn_spec added
  | timestamps =>
      cases dialect <;> cases added <;>
        simp [Blueprint.Agrees, BlueprintCall.Differs, ownTypes, modify, Modifier.apply, newColumn]
  | spatialIndex columns name =>
      cases added
      simp [Blueprint.Agrees, BlueprintCall.Differs, indexOf]
  | _ =>
      cases added
      simp [Blueprint.Agrees, BlueprintCall.Differs, indexOf]

theorem build_spec {calls : List BlueprintCall}
    (built : build tableName dialect calls = .ok blueprint) :
    (∀ column ∈ blueprint.columns, column.generated = none) ∧
      (blueprint.Agrees dialect ↔ ∀ call ∈ calls, ¬call.Differs dialect) := by
  induction calls generalizing blueprint with
  | nil =>
      cases built
      simp [Blueprint.Agrees]
  | cons call calls ih =>
      unfold build at built
      cases found : call.added tableName dialect with
      | error message =>
          rw [found] at built
          cases built
      | ok first =>
          cases onwards : build tableName dialect calls with
          | error message =>
              rw [found, onwards] at built
              cases built
          | ok others =>
              rw [found, onwards] at built
              cases built
              rcases added_spec found with ⟨firstPlain, firstAgrees⟩
              rcases ih onwards with ⟨othersPlain, othersAgree⟩
              refine ⟨fun column member => ?_, ?_⟩
              · rcases List.mem_append.mp member with now | later
                · exact firstPlain column now
                · exact othersPlain column later
              · rw [List.forall_mem_cons, ← firstAgrees, ← othersAgree]
                simp only [Blueprint.Agrees, List.forall_mem_append]
                exact and_and_and_comm

theorem created_eq (plain : ∀ column ∈ blueprint.columns, column.generated = none) :
    created tableName dialect blueprint =
      .ok ⟨blueprint.columns.map (Ddl.columnType ⟨dialect, none⟩),
        blueprint.columns.map fun column => Ddl.plainDefinition ⟨dialect, none⟩ column true,
        blueprint.indexes.map (Ddl.createIndex ⟨dialect, none⟩ tableName),
        blueprint.foreignKeys.map (Ddl.addForeignKey ⟨dialect, none⟩ tableName)⟩ := by
  have written : ∀ columns : List ColumnSchema, (∀ column ∈ columns, column.generated = none) →
      (columns.mapM fun column => Ddl.columnDefinition ⟨dialect, none⟩ column true) =
        .ok (columns.map fun column => Ddl.plainDefinition ⟨dialect, none⟩ column true) := by
    intro columns
    induction columns with
    | nil => exact fun _ => rfl
    | cons column columns ih =>
        intro allPlain
        rcases List.forall_mem_cons.mp allPlain with ⟨first, rest⟩
        have now : Ddl.columnDefinition ⟨dialect, none⟩ column true =
            .ok (Ddl.plainDefinition ⟨dialect, none⟩ column true) := by
          rw [Ddl.columnDefinition, first]
        rw [List.mapM_cons, now, ih rest]
        rfl
  rw [created, written blueprint.columns plain]
  rfl

/--
The two paths write the same types, columns, indexes and foreign keys exactly when no call is
one whose text differs.
-/
theorem created_eq_altered_iff {calls : List BlueprintCall} {blueprint : Blueprint}
    (built : build tableName dialect calls = .ok blueprint) :
    created tableName dialect blueprint = .ok (altered tableName dialect blueprint) ↔
      ∀ call ∈ calls, ¬call.Differs dialect := by
  rcases build_spec built with ⟨plain, agrees⟩
  rw [← agrees, created_eq plain, altered]
  simp only [Except.ok.injEq, Definitions.mk.injEq, List.map_inj_left, plainDefinition_eq_iff,
    createIndex_eq_iff, addForeignKey_eq, implies_true, and_true]
  constructor
  · rintro ⟨sameTypes, -, sameIndexes⟩
    exact ⟨fun column member own => columnType_ne own (sameTypes column member), sameIndexes⟩
  · rintro ⟨types, indexes⟩
    have sameTypes := fun column member => columnType_eq (types column member)
    exact ⟨sameTypes, sameTypes, indexes⟩

/-- An account table with a named index. -/
theorem created_eq_altered_iff_accounts :
    let calls : List BlueprintCall := [.column "id" .id [], .column "name" (.string none)
      [.nullable true, .default (.string "it's"), .unique none]]
    let blueprint := (build "accounts" .postgres calls).toOption.getD ⟨[], [], []⟩
    created "accounts" .postgres blueprint = .ok (altered "accounts" .postgres blueprint) ↔
      ∀ call ∈ calls, ¬call.Differs .postgres :=
  created_eq_altered_iff rfl

/-- A long text has two types on Postgres, and a spatial index is none after `create` on MySQL. -/
theorem created_differs :
    let texts : Blueprint := ⟨[newColumn "bio" "mediumtext" none none], [], []⟩
    let places : Blueprint := ⟨[], [⟨"places_at", ["at"], false, none, [], true⟩], []⟩
    let index := indexOf "places" .mysql ["at"] (some "places_at") false true
    build "users" .postgres [.column "bio" .mediumText []] = .ok texts ∧
    (created "users" .postgres texts).toOption.map Definitions.columns =
      some ["\"bio\" mediumtext NOT NULL"] ∧
    (altered "users" .postgres texts).columns = ["\"bio\" text NOT NULL"] ∧
    build "places" .mysql [.spatialIndex ["at"] (some "places_at")] = .ok places ∧
    Ddl.createIndex ⟨.mysql, none⟩ "places" index ≠ createIndex "places" index .mysql := by
  refine ⟨rfl, by decide +kernel, by decide +kernel, rfl, by decide +kernel⟩

end Calls

end ServerFoundation.Schema
