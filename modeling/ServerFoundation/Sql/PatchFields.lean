import ServerFoundation.Sql.Filters

/-!
# Patches of observed entities

What `patchOne` and `patchMany` assign and what they report as changed. The assignments
are read off the SET clause as the templates it is joined from.
-/

namespace ServerFoundation.Sql

/-- The key columns of an entity, or its column `id`. -/
def primaryKeysOf (columns : List ColumnMetadata) : Option (List ColumnMetadata) :=
  if columns.filter ColumnMetadata.primaryKey ≠ [] then
    some (columns.filter ColumnMetadata.primaryKey)
  else (columns.find? fun column => column.propertyName = "id").map fun column => [column]

/-- What `getEntityMetadata` knows of a table. -/
structure EntityMetadata where
  tableName : String
  columns : List ColumnMetadata
  primaryKeys : List ColumnMetadata
  distinct : (columns.map ColumnMetadata.propertyName).Nodup
  keyed : primaryKeysOf columns = some primaryKeys

/-- A column that a patch names. -/
def patches (patch : Data) (column : ColumnMetadata) : Bool :=
  patch.hasOwn column.propertyName || increments patch column

/-- `getPatchFields`. -/
def getPatchFields (columns : List ColumnMetadata) (patch : Data) : List String :=
  columns.foldl (fun fields column =>
    if patches patch column ∧ column.propertyName ∉ fields then fields ++ [column.propertyName]
    else fields) []

/-- `assertObservedPrimaryKeyIsStable` does not throw. -/
def primaryKeyIsStable (metadata : EntityMetadata) (patch : Data) : Bool :=
  metadata.primaryKeys.all fun column => !patch.hasOwn column.propertyName

/-- The SET clause of a patch of an observed entity. -/
def observedPatchSet (metadata : EntityMetadata) (dialect : Dialect) (patch : Data) :
    Option (Option SqlQuery) :=
  if primaryKeyIsStable metadata patch then renderPatchSet metadata.columns dialect patch else none

/-- One assignment of a SET clause. -/
inductive PatchAssignment where
  | increment (column : ColumnMetadata) (amount : Data)
  | value (column : ColumnMetadata) (serialized : SqlValue)

namespace PatchAssignment

/-- The column of an assignment. -/
def column : PatchAssignment → ColumnMetadata
  | increment column _ => column
  | value column _ => column

/-- The property of an assignment. -/
def property (assignment : PatchAssignment) : String := assignment.column.propertyName

/-- The text of an assignment. -/
def render : PatchAssignment → Option SqlQuery
  | increment column amount => do
      let name ← identifier [column.columnName]
      sqlTag ["", " = ", " + ", ""] [name, name, .data amount]
  | value column serialized => do
      let name ← identifier [column.columnName]
      sqlTag ["", " = ", ""] [name, serialized]

/-- An assignment does what the patch says of its column. -/
def Follows (dialect : Dialect) (patch : Data) : PatchAssignment → Prop
  | increment column amount =>
      ((incPatch patch).bind fun found => found.get? column.propertyName) = some amount
  | value column serialized => increments patch column = false ∧
      ∃ found, patch.get? column.propertyName = some found ∧
        serializeColumnValue (some column) found dialect = some serialized

end PatchAssignment

/-- The SET clause consists of assignments. -/
def SqlQuery.Assigns (set : SqlQuery) (assignments : List PatchAssignment) : Prop :=
  ∃ clauses, assignments.mapM PatchAssignment.render = some clauses ∧
    join (clauses.map SqlQuery.toValue) comma = some set

/-- A SET clause assigns the reported columns, each once and as the patch says, and no key. -/
def ReportsWrites (metadata : EntityMetadata) (dialect : Dialect) (patch : Data) (set : SqlQuery) :
    Prop :=
  ∃ assignments : List PatchAssignment, set.Assigns assignments ∧
    (∀ assignment ∈ assignments,
      assignment.column ∈ metadata.columns ∧ assignment.Follows dialect patch) ∧
    (assignments.map PatchAssignment.property).Nodup ∧
    (∀ property, property ∈ assignments.map PatchAssignment.property ↔
      property ∈ getPatchFields metadata.columns patch) ∧
    ∀ key ∈ metadata.primaryKeys, key.propertyName ∉ assignments.map PatchAssignment.property ∧
      key.propertyName ∉ getPatchFields metadata.columns patch

variable {metadata : EntityMetadata} {dialect : Dialect} {patch : Data}

theorem mem_getPatchFields (columns : List ColumnMetadata) (property : String) :
    property ∈ getPatchFields columns patch ↔
      ∃ column ∈ columns, patches patch column ∧ column.propertyName = property := by
  have step : ∀ fields : List String, property ∈ columns.foldl (fun fields column =>
      if patches patch column ∧ column.propertyName ∉ fields then fields ++ [column.propertyName]
      else fields) fields ↔ property ∈ fields ∨
        ∃ column ∈ columns, patches patch column ∧ column.propertyName = property := by
    induction columns with
    | nil => simp
    | cons column rest ih =>
        intro fields
        rw [List.foldl_cons, ih]
        split_ifs with isNew
        · simp only [List.mem_append, List.mem_cons, List.not_mem_nil, or_false, exists_eq_or_imp,
            isNew.1, true_and, or_assoc, @eq_comm _ property column.propertyName]
        · simp only [List.mem_cons, exists_eq_or_imp]
          constructor
          · rintro (known | found)
            · exact Or.inl known
            · exact Or.inr (Or.inr found)
          · rintro (known | ⟨named, rfl⟩ | found)
            · exact Or.inl known
            · exact Or.inl (by_contra fun absent => isNew ⟨named, absent⟩)
            · exact Or.inr found
  simpa [getPatchFields] using step []

theorem EntityMetadata.primaryKeys_subset (metadata : EntityMetadata) :
    metadata.primaryKeys ⊆ metadata.columns := by
  intro key mem
  have keyed := metadata.keyed
  unfold primaryKeysOf at keyed
  split_ifs at keyed
  · rw [← Option.some.inj keyed] at mem
    exact List.mem_of_mem_filter mem
  · rcases Option.map_eq_some_iff.mp keyed with ⟨column, found, same⟩
    rw [← same, List.mem_singleton] at mem
    rw [mem]
    exact List.mem_of_find?_eq_some found

theorem EntityMetadata.mem_primaryKeys {column : ColumnMetadata} (mem : column ∈ metadata.columns)
    (isKey : column.primaryKey = true) : column ∈ metadata.primaryKeys := by
  have isFiltered := List.mem_filter.mpr ⟨mem, isKey⟩
  have keyed := metadata.keyed
  rw [primaryKeysOf, if_pos (List.ne_nil_of_mem isFiltered)] at keyed
  rw [← Option.some.inj keyed]
  exact isFiltered

theorem mem_updateColumns (columns : List ColumnMetadata) (column : ColumnMetadata) :
    column ∈ updateColumns columns patch ↔ column ∈ columns ∧
      (patch.hasOwn column.propertyName = true ∨
        column.primaryKey = false ∧ increments patch column = true) := by
  simp only [updateColumns, List.mem_append, List.mem_filter, Bool.and_eq_true, Bool.not_eq_true',
    ← and_or_left]
  cases patch.hasOwn column.propertyName <;> simp

theorem updateColumns_nodup (metadata : EntityMetadata) (patch : Data) :
    ((updateColumns metadata.columns patch).map ColumnMetadata.propertyName).Nodup := by
  rw [updateColumns, List.map_append]
  apply List.nodup_append.mpr
  refine ⟨metadata.distinct.sublist (List.filter_sublist.map _),
    metadata.distinct.sublist (List.filter_sublist.map _), ?_⟩
  intro property direct other incremented
  rcases List.mem_map.mp direct with ⟨column, mem, rfl⟩
  rcases List.mem_map.mp incremented with ⟨later, memLater, rfl⟩
  simp only [List.mem_filter, Bool.and_eq_true, Bool.not_eq_true'] at mem memLater
  intro same
  rw [← same, mem.2] at memLater
  simp at memLater

/-- The assignment to a column that a patch writes. -/
def assignmentOf (dialect : Dialect) (patch : Data) (column : ColumnMetadata) :
    Option PatchAssignment :=
  if increments patch column then
    some (.increment column
      (((incPatch patch).bind fun found => found.get? column.propertyName).getD .undefined))
  else
    (serializeColumnValue (some column) ((patch.get? column.propertyName).getD .undefined)
      dialect).map (.value column)

theorem renderAssignment_eq (column : ColumnMetadata) :
    renderAssignment dialect patch column =
      (assignmentOf dialect patch column).bind PatchAssignment.render := by
  unfold renderAssignment assignmentOf
  split_ifs
  · rfl
  · cases written : serializeColumnValue (some column)
      ((patch.get? column.propertyName).getD .undefined) dialect with
    | none => cases identifier [column.columnName] <;> simp [written]
    | some serialized => simp [written, PatchAssignment.render]

theorem assignmentOf_follows {column : ColumnMetadata} {assignment : PatchAssignment}
    (named : patches patch column)
    (isAssigned : assignmentOf dialect patch column = some assignment) :
    assignment.column = column ∧ assignment.Follows dialect patch := by
  unfold assignmentOf at isAssigned
  split_ifs at isAssigned with incremented
  · cases isAssigned
    refine ⟨rfl, ?_⟩
    cases found : incPatch patch with
    | none => simp [increments, found] at incremented
    | some increment =>
        rcases Option.isSome_iff_exists.mp
          (by simpa [increments, found, Data.hasOwn] using incremented)
          with ⟨amount, isAmount⟩
        simp [PatchAssignment.Follows, found, isAmount]
  · rcases Option.map_eq_some_iff.mp isAssigned with ⟨serialized, isSerialized, rfl⟩
    have direct : patch.hasOwn column.propertyName = true := by
      simpa [patches, incremented] using named
    rcases Option.isSome_iff_exists.mp direct with ⟨value, found⟩
    refine ⟨rfl, by simpa using incremented, value, found, ?_⟩
    simpa [found] using isSerialized

theorem exists_assignments (columns : List ColumnMetadata) {clauses : List SqlQuery}
    (rendered : columns.mapM (renderAssignment dialect patch) = some clauses)
    (named : ∀ column ∈ columns, patches patch column) :
    ∃ assignments : List PatchAssignment, assignments.mapM PatchAssignment.render = some clauses ∧
      assignments.map PatchAssignment.column = columns ∧
      ∀ assignment ∈ assignments, assignment.Follows dialect patch := by
  induction columns generalizing clauses with
  | nil => exact ⟨[], rendered, rfl, by simp⟩
  | cons column rest ih =>
      rw [List.mapM_cons, renderAssignment_eq] at rendered
      simp only [Option.bind_eq_bind, Option.pure_def, Option.bind_eq_some_iff] at rendered
      rcases rendered with ⟨clause, ⟨assignment, isAssigned, isClause⟩, others, isOthers, same⟩
      cases same
      rcases assignmentOf_follows (named column (by simp)) isAssigned with ⟨isColumn, follows⟩
      rcases ih isOthers fun other mem => named other (List.mem_cons_of_mem column mem) with
        ⟨assignments, isRendered, areColumns, allFollow⟩
      refine ⟨assignment :: assignments, ?_, by rw [List.map_cons, isColumn, areColumns], ?_⟩
      · rw [List.mapM_cons, isClause, isRendered]
        rfl
      · intro other mem
        rcases List.mem_cons.mp mem with rfl | mem
        · exact follows
        · exact allFollow other mem

/-- On an observed entity the reported fields are the written ones as long as no key is
incremented. -/
theorem reportsWrites_iff {set : SqlQuery}
    (accepted : observedPatchSet metadata dialect patch = some (some set)) :
    ReportsWrites metadata dialect patch set ↔
      ∀ key ∈ metadata.primaryKeys, increments patch key = false := by
  unfold observedPatchSet at accepted
  split_ifs at accepted with stable
  constructor
  · rintro ⟨assignments, _, _, _, _, keys⟩ key mem
    have notReported := (keys key mem).2
    rw [mem_getPatchFields] at notReported
    by_contra incremented
    have named : patches patch key = true := by
      simpa [patches] using Or.inr (by simpa using incremented)
    exact notReported ⟨key, metadata.primaryKeys_subset mem, named, rfl⟩
  · intro unincremented
    have named : ∀ column, column ∈ updateColumns metadata.columns patch ↔
        column ∈ metadata.columns ∧ patches patch column := by
      intro column
      rw [mem_updateColumns]
      apply and_congr_right
      intro mem
      cases isKey : column.primaryKey with
      | true => simp [patches, unincremented column (EntityMetadata.mem_primaryKeys mem isKey)]
      | false => simp [patches]
    unfold renderPatchSet at accepted
    split_ifs at accepted
    · cases accepted
    simp only [Option.bind_eq_bind, Option.bind_eq_some_iff, Option.map_eq_some_iff] at accepted
    rcases accepted with ⟨clauses, rendered, joined, isJoined, same⟩
    cases same
    rcases exists_assignments _ rendered fun column mem => ((named column).mp mem).2 with
      ⟨assignments, isRendered, areColumns, follow⟩
    have properties : assignments.map PatchAssignment.property =
        (updateColumns metadata.columns patch).map ColumnMetadata.propertyName := by
      rw [← areColumns, List.map_map]
      rfl
    have reported : ∀ property, property ∈ assignments.map PatchAssignment.property ↔
        property ∈ getPatchFields metadata.columns patch := by
      intro property
      rw [properties, mem_getPatchFields, List.mem_map]
      simp only [named, and_assoc]
    refine ⟨assignments, ⟨clauses, isRendered, isJoined⟩, ?_, ?_, reported, ?_⟩
    · intro assignment mem
      have written := List.mem_map_of_mem (f := PatchAssignment.column) mem
      rw [areColumns, named] at written
      exact ⟨written.1, follow assignment mem⟩
    · rw [properties]
      exact updateColumns_nodup metadata patch
    · intro key mem
      rw [reported, and_self, mem_getPatchFields]
      rintro ⟨column, isColumn, patched, same⟩
      have direct : patch.hasOwn column.propertyName = false := by
        rw [same]
        simpa using List.all_eq_true.mp stable key mem
      have incremented : increments patch column = false := by
        simpa [increments, same] using unincremented key mem
      simp [patches, direct, incremented] at patched

section Visits

/-- A column of text. -/
def textColumn (name : String) (isKey : Bool) : ColumnMetadata :=
  ⟨name, name, false, false, isKey, false, fun _ => "varchar"⟩

/-- A class of visitors. -/
def visitors : EntityMetadata where
  tableName := "visitors"
  columns := [textColumn "id" true, textColumn "name" false, textColumn "visits" false]
  primaryKeys := [textColumn "id" true]
  distinct := by decide
  keyed := rfl

/-- A new name, and an increment. -/
def visit (incremented : String) : Data :=
  .object [("name", .string "Ada"), ("$inc", .object [(incremented, .number (.finite 1))])]

theorem exists_visit (incremented : String) (accepted :
    ((observedPatchSet visitors .mysql (visit incremented)).bind id).isSome = true) :
    ∃ set, observedPatchSet visitors .mysql (visit incremented) = some (some set) := by
  rcases Option.isSome_iff_exists.mp accepted with ⟨set, found⟩
  rcases Option.bind_eq_some_iff.mp found with ⟨_, isSet, rfl⟩
  exact ⟨set, isSet⟩

theorem reportsWrites_visit : ∃ set,
    observedPatchSet visitors .mysql (visit "visits") = some (some set) ∧
      ReportsWrites visitors .mysql (visit "visits") set := by
  rcases exists_visit "visits" (by decide +kernel) with ⟨set, accepted⟩
  exact ⟨set, accepted, (reportsWrites_iff accepted).mpr (by decide)⟩

/-- An increment of the key is reported, and not written. -/
theorem not_reportsWrites_key : ∃ set,
    observedPatchSet visitors .mysql (visit "id") = some (some set) ∧
      ¬ ReportsWrites visitors .mysql (visit "id") set := by
  rcases exists_visit "id" (by decide +kernel) with ⟨set, accepted⟩
  refine ⟨set, accepted, ?_⟩
  rintro ⟨assignments, _, _, _, _, keys⟩
  exact (keys (textColumn "id" true) (by simp [visitors])).2 (by decide)

end Visits

end ServerFoundation.Sql
