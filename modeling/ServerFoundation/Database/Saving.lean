import ServerFoundation.Database.Session

/-!
# What saving an entity does

A persisted entity agrees with its row: apart from generated columns, the row holds what
its snapshot had, and the primary key has not changed since. Saving such an entity, or
inserting a new one, leaves it clean and in agreement with its row, and touches no other
entity and no other row.
-/

namespace ServerFoundation.Database

namespace FieldValue

variable {Value : Type}

theorem stored_of_not_missing {value : FieldValue Value} (present : value.missing = false) :
    value.stored = value := by
  cases value with
  | undefined => cases present
  | null => cases present
  | value held => rfl

@[simp]
theorem stored_stored (value : FieldValue Value) : value.stored.stored = value.stored := by
  cases value <;> rfl

end FieldValue

variable {Value : Type}

namespace Instance

variable (schema : Schema Value) (entity : Instance Value) {column : ColumnMetadata}
  {other : Instance Value}

/-- The entity has a snapshot that agrees with its row, and still the key that it had then. -/
structure Agrees (row : Snapshot Value) : Prop where
  columns : ∀ column ∈ (entity.metadata schema).columns, column.generated = false →
    read (some row) column.propertyName = (read entity.original column.propertyName).stored
  key : ∀ column ∈ (entity.metadata schema).primaryKeys,
    read entity.original column.propertyName = entity.field column
  keyRow : ∀ column ∈ (entity.metadata schema).primaryKeys,
    read (some row) column.propertyName = entity.field column
  snapshot : entity.hasEntitySnapshot = true

/-- The snapshot is what the fields are now. -/
def Clean : Prop := entity.original = some (entity.getEntityFields schema)

/-- The key addresses a row: no value is missing, and a generated key has been generated. -/
def Addressed [Zero Value] [DecidableEq Value] : Prop :=
  (∀ column ∈ (entity.metadata schema).primaryKeys, (entity.field column).missing = false) ∧
    ((entity.metadata schema).primaryKey.autoIncrement →
      (entity.field (entity.metadata schema).primaryKey).isAutoIncrementSentinel = false)

variable {schema entity}

theorem Clean.read_original (clean : entity.Clean schema)
    (member : column ∈ (entity.metadata schema).columns) :
    read entity.original column.propertyName = entity.field column := by
  rw [clean, read_getEntityFields member]

theorem markEntityClean_clean : (entity.markEntityClean schema).Clean schema := rfl

theorem Clean.agrees (clean : entity.Clean schema) {row : Snapshot Value}
    (columns : ∀ column ∈ (entity.metadata schema).columns, column.generated = false →
      read (some row) column.propertyName = (entity.field column).stored)
    (present : ∀ column ∈ (entity.metadata schema).primaryKeys,
      (entity.field column).missing = false) : entity.Agrees schema row := by
  have keyColumns := (schema.wellFormed entity.classType).keyColumns
  constructor
  case columns =>
    intro column member plain
    rw [columns column member plain, clean.read_original member]
  case key => exact fun column member => clean.read_original (keyColumns column member)
  case keyRow =>
    intro column member
    rw [columns column (keyColumns column member) ((schema.wellFormed _).plainKeys column member),
      FieldValue.stored_of_not_missing (present column member)]
  case snapshot =>
    rw [hasEntitySnapshot, clean]
    rfl

theorem keyColumn_mem (member : column ∈ (entity.metadata schema).primaryKeys) :
    column ∈ (entity.metadata schema).columns :=
  (schema.wellFormed _).keyColumns column member

theorem primaryKey_mem :
    (entity.metadata schema).primaryKey ∈ (entity.metadata schema).primaryKeys :=
  List.mem_of_mem_head? (schema.wellFormed _).first

theorem rowKey_congr (sameClass : other.classType = entity.classType)
    (sameKey : ∀ column ∈ (entity.metadata schema).primaryKeys,
      other.field column = entity.field column) : other.rowKey schema = entity.rowKey schema := by
  have sameMetadata : other.metadata schema = entity.metadata schema := by
    rw [metadata, sameClass, metadata]
  unfold rowKey keyValues
  rw [sameClass, sameMetadata, List.map_congr_left sameKey]

theorem field_of_rowKey_eq (same : other.rowKey schema = entity.rowKey schema)
    (member : column ∈ (entity.metadata schema).primaryKeys) :
    other.field column = entity.field column := by
  have sameClass : other.classType = entity.classType := congrArg Prod.fst same
  have sameMetadata : other.metadata schema = entity.metadata schema := by
    rw [metadata, sameClass, metadata]
  have sameValues : other.keyValues schema = entity.keyValues schema := congrArg Prod.snd same
  rw [keyValues, keyValues, sameMetadata] at sameValues
  exact List.map_inj_left.mp sameValues column member

end Instance

namespace Store

section Rows

variable {schema : Schema Value} {entity : Instance Value} {column : ColumnMetadata}
  {row : Snapshot Value}

theorem get?_hydrate (member : column ∈ (entity.metadata schema).columns) :
    (hydrate (entity.metadata schema) row).get? column.propertyName =
      some (read (some row) column.propertyName) :=
  get?_columns Instance.names _ member

theorem read_updatedRow {dirty : List ColumnMetadata}
    (member : column ∈ (entity.metadata schema).columns) (plain : column.generated = false) :
    read (some (updatedRow schema entity dirty row)) column.propertyName =
      if column ∈ dirty then (entity.field column).stored
      else read (some row) column.propertyName := by
  simp only [updatedRow]
  rw [read_columns Instance.names _ member, plain, if_neg Bool.false_ne_true,
    read_columns Instance.names _ member]

variable [DecidableEq Value]

theorem field_of_not_mem_updateColumns (agrees : entity.Agrees schema row)
    (member : column ∈ (entity.metadata schema).columns) (plain : column.generated = false)
    (kept : column ∉ updateColumns schema entity) :
    read entity.original column.propertyName = entity.field column := by
  by_cases key : column.primaryKey = true
  · exact agrees.key column ((schema.wellFormed _).flagged column member key)
  · by_contra changed
    apply kept
    simp [updateColumns, member, plain, key, Instance.isDirty, changed]

theorem read_updatedRow_of_agrees (agrees : entity.Agrees schema row)
    (member : column ∈ (entity.metadata schema).columns) (plain : column.generated = false) :
    read (some (updatedRow schema entity (updateColumns schema entity) row)) column.propertyName =
      (entity.field column).stored := by
  rw [read_updatedRow member plain]
  split
  · rfl
  · rename_i kept
    rw [agrees.columns column member plain, field_of_not_mem_updateColumns agrees member plain kept]

theorem updateColumns_sublist :
    (updateColumns schema entity).Sublist (entity.metadata schema).columns :=
  List.filter_sublist

theorem field_synchronized {before : Snapshot Value}
    (member : column ∈ (entity.metadata schema).columns) :
    (synchronized entity (updateColumns schema entity) before).field column =
      if column ∈ updateColumns schema entity then entity.field column
      else (before.get? column.propertyName).getD (entity.field column) := by
  have names : ((entity.metadata schema).columns.map (·.propertyName)).Nodup := Instance.names
  simp only [synchronized, Instance.assign, Instance.field]
  split
  · rename_i written
    have sublist : (updateColumns schema entity).Sublist (entity.metadata schema).columns :=
      updateColumns_sublist
    have dirtyNames := names.sublist (sublist.map (·.propertyName))
    rw [get?_columns dirtyNames (fun column => entity.properties column.propertyName) written]
    rfl
  · rename_i kept
    rw [get?_columns_of_not_mem names (fun column => entity.properties column.propertyName)
      updateColumns_sublist member kept]
    rfl

end Rows

section Consistency

variable [DecidableEq Value] [Zero Value] (schema : Schema Value) (store : Store Value)
  {entity : EntityId}

/-- The last recorded state of an entity is that of its snapshot, while its row exists. -/
structure RecordedAs (entity : EntityId) (item : PendingEntityMutation Value) : Prop where
  sameClass : item.metadata.classType = (store.instances entity).classType
  exists_ : item.after.isSome → (store.row schema entity).isSome
  fields : ∀ after, item.after = some after →
    ∀ column ∈ ((store.instances entity).metadata schema).columns,
      read (some after) column.propertyName =
        read (store.instances entity).original column.propertyName

/-- Every row is that of one entity at most, which knows what it holds. -/
structure Consistent : Prop where
  agrees : ∀ entity row, store.row schema entity = some row →
    (store.instances entity).Agrees schema row ∧ (store.instances entity).Addressed schema
  exclusive : ∀ entity other, entity ≠ other → (store.instances entity).Addressed schema →
    store.rowKey schema entity ≠ store.rowKey schema other
  recorded : ∀ entity item,
    store.session.mutationAccumulator.entityMutations.get? entity = some item →
      RecordedAs schema store entity item

variable {schema store}

theorem Consistent.eq_of_rowKey_eq (consistent : Consistent schema store) {other : EntityId}
    (addressed : (store.instances entity).Addressed schema)
    (same : store.rowKey schema other = store.rowKey schema entity) : other = entity := by
  by_contra different
  exact consistent.exclusive entity other (Ne.symm different) addressed same.symm

theorem Consistent.entity_of_entry (consistent : Consistent schema store) {other : EntityId}
    (addressed : (store.instances entity).Addressed schema) {item : PendingEntityMutation Value}
    (stored : store.session.mutationAccumulator.entityMutations.get? other = some item)
    {after : Snapshot Value} (recorded : item.after = some after)
    (sameClass : item.metadata.classType = (store.instances entity).classType)
    (sameKey : ∀ column ∈ ((store.instances entity).metadata schema).primaryKeys,
      read (some after) column.propertyName = (store.instances entity).field column) :
    other = entity := by
  have entry := consistent.recorded other item stored
  have found : (store.row schema other).isSome := entry.exists_ (by rw [recorded]; rfl)
  obtain ⟨row, rowFound⟩ := Option.isSome_iff_exists.mp found
  have agrees := (consistent.agrees other row rowFound).1
  have classes : (store.instances other).classType = (store.instances entity).classType :=
    entry.sameClass.symm.trans sameClass
  have sameMetadata : (store.instances other).metadata schema =
      (store.instances entity).metadata schema := by
    rw [Instance.metadata, classes, Instance.metadata]
  refine consistent.eq_of_rowKey_eq addressed (Instance.rowKey_congr classes ?_)
  intro column member
  have inOther : column ∈ ((store.instances other).metadata schema).primaryKeys :=
    sameMetadata ▸ member
  rw [← agrees.key column inOther,
    ← entry.fields after recorded column (Instance.keyColumn_mem inOther)]
  exact sameKey column member

theorem Consistent.load (consistent : Consistent schema store) {row : Snapshot Value}
    (found : store.row schema entity = some row) :
    ∃ before, store.loadEntitySnapshotForUpdate schema (store.instances entity) = some before ∧
      ∀ column ∈ ((store.instances entity).metadata schema).columns, column.generated = false →
        read (store.instances entity).original column.propertyName =
          (store.instances entity).field column →
        ((before.get? column.propertyName).getD ((store.instances entity).field column)).stored =
            ((store.instances entity).field column).stored ∧
          (column ∈ ((store.instances entity).metadata schema).primaryKeys →
            (before.get? column.propertyName).getD ((store.instances entity).field column) =
              (store.instances entity).field column) := by
  obtain ⟨agrees, addressed⟩ := consistent.agrees entity row found
  simp only [loadEntitySnapshotForUpdate, recordedSnapshot, persistedSnapshot]
  cases pending : store.session.mutationAccumulator.getMutations.findSome? _ with
  | some after =>
      refine ⟨after, rfl, ?_⟩
      rcases List.exists_of_findSome?_eq_some pending with ⟨mutation, reported, selected⟩
      cases mutation with
      | query mutation => cases selected
      | entity mutation =>
          simp only [Option.ite_none_right_eq_some, List.all_eq_true, decide_eq_true_eq] at selected
          rcases selected with ⟨⟨sameClass, sameKey⟩, recorded⟩
          rcases Accumulator.mem_getMutations_iff.mp reported with ⟨other, item, stored, creates⟩
          rcases createEntityMutation_some creates with ⟨-, metadata, -, same⟩
          rw [metadata, Instance.metadata, schema.classType_eq] at sameClass
          rw [same] at recorded
          rw [same, recorded] at sameKey
          have owner := consistent.entity_of_entry addressed stored recorded sameClass sameKey
          subst owner
          intro column member _ kept
          have value : (after.get? column.propertyName).getD
              ((store.instances other).field column) = (store.instances other).field column := by
            have fields := (consistent.recorded other item stored).fields after recorded column
              member
            rw [kept] at fields
            cases present : after.get? column.propertyName with
            | none => rfl
            | some value => simpa [read, present] using fields
          exact ⟨by rw [value], fun _ => value⟩
  | none =>
      have addressedRow : store.rows.get? ((store.instances entity).rowKey schema) = some row :=
        found
      rw [addressedRow]
      refine ⟨_, rfl, ?_⟩
      intro column member plain kept
      rw [get?_hydrate member, Option.getD_some]
      refine ⟨?_, agrees.keyRow column⟩
      rw [agrees.columns column member plain, kept, FieldValue.stored_stored]

end Consistency

section Effect

variable [DecidableEq Value] [Zero Value] (schema : Schema Value) {row before : Snapshot Value}

/-- The entity has been saved: it is clean and agrees with its row, and nothing else has changed
but what is recorded of it. -/
structure Saves (entity : EntityId) (before after : Store Value) : Prop where
  others : ∀ other, other ≠ entity → after.instances other = before.instances other
  sameClass : (after.instances entity).classType = (before.instances entity).classType
  clean : (after.instances entity).Clean schema
  fields : ∀ column ∈ ((before.instances entity).metadata schema).columns,
    column.generated = false → column ∉ ((before.instances entity).metadata schema).primaryKeys →
      ((after.instances entity).field column).stored =
        ((before.instances entity).field column).stored
  agrees : ∃ row, after.row schema entity = some row ∧
    (after.instances entity).Agrees schema row
  addressed : (after.instances entity).Addressed schema
  rows : ∀ key, key ≠ after.rowKey schema entity → after.rows.get? key = before.rows.get? key
  exclusive : ∀ other, other ≠ entity → before.rowKey schema other ≠ after.rowKey schema entity
  queued : after.session.queued = before.session.queued.delete entity
  managed : after.session.managed = before.session.managed
  removed : after.session.removed = before.session.removed
  recorded : ∀ other item,
    after.session.mutationAccumulator.entityMutations.get? other = some item →
      (other ≠ entity ∧
        before.session.mutationAccumulator.entityMutations.get? other = some item) ∨
      (other = entity ∧ RecordedAs schema after entity item)

variable {schema} {store after : Store Value} {entity : EntityId}

omit [DecidableEq Value] [Zero Value] in
theorem instances_markSaved_self :
    (store.markSaved schema entity).instances entity =
      (store.instances entity).markEntityClean schema := by
  simp [markSaved, change]

omit [DecidableEq Value] [Zero Value] in
theorem instances_markSaved_of_ne {other : EntityId} (different : other ≠ entity) :
    (store.markSaved schema entity).instances other = store.instances other := by
  simp [markSaved, change, different]

omit [DecidableEq Value] [Zero Value] in
theorem rowKey_markSaved_self :
    (store.markSaved schema entity).rowKey schema entity = store.rowKey schema entity := by
  rw [rowKey, instances_markSaved_self]
  rfl

theorem saves_of_nothing_dirty (consistent : Consistent schema store)
    (found : store.row schema entity = some row)
    (kept : ∀ column ∈ ((store.instances entity).metadata schema).columns,
      read (store.instances entity).original column.propertyName =
        (store.instances entity).field column) :
    Saves schema entity store (store.markSaved schema entity) := by
  obtain ⟨agrees, addressed⟩ := consistent.agrees entity row found
  have rowKept : (store.markSaved schema entity).row schema entity = some row := by
    rw [Store.row, rowKey_markSaved_self]
    exact found
  constructor
  case others => exact fun other different => instances_markSaved_of_ne different
  case sameClass =>
    rw [instances_markSaved_self]
    rfl
  case clean =>
    rw [instances_markSaved_self]
    exact Instance.markEntityClean_clean
  case fields =>
    intro column _ _ _
    rw [instances_markSaved_self]
    rfl
  case agrees =>
    refine ⟨row, rowKept, ?_⟩
    rw [instances_markSaved_self]
    refine Instance.markEntityClean_clean.agrees ?_ addressed.1
    intro column member plain
    rw [agrees.columns column member plain, kept column member]
    rfl
  case addressed =>
    rw [instances_markSaved_self]
    exact addressed
  case rows => exact fun key _ => rfl
  case exclusive =>
    intro other different
    rw [rowKey_markSaved_self]
    exact (consistent.exclusive entity other different.symm addressed).symm
  case queued => rfl
  case managed => rfl
  case removed => rfl
  case recorded =>
    intro other item stored
    by_cases same : other = entity
    · subst same
      right
      have entry := consistent.recorded other item stored
      refine ⟨rfl, ?_, ?_, ?_⟩
      · rw [instances_markSaved_self]
        exact entry.sameClass
      · intro _
        rw [rowKept]
        rfl
      · intro last recorded column member
        rw [instances_markSaved_self] at member ⊢
        rw [Instance.markEntityClean_clean.read_original member,
          entry.fields last recorded column member, kept column member]
        rfl
    · exact .inl ⟨same, stored⟩

theorem saves_of_write {next : Instance Value} {row : Snapshot Value}
    {old : Option (Snapshot Value)}
    (sameClass : next.classType = (store.instances entity).classType)
    (fields : ∀ column ∈ ((store.instances entity).metadata schema).columns,
      column.generated = false →
      column ∉ ((store.instances entity).metadata schema).primaryKeys →
        (next.field column).stored = ((store.instances entity).field column).stored)
    (columns : ∀ column ∈ (next.metadata schema).columns, column.generated = false →
      read (some row) column.propertyName = (next.field column).stored)
    (addressed : next.Addressed schema)
    (exclusive : ∀ other, other ≠ entity → store.rowKey schema other ≠ next.rowKey schema)
    (instances : after.instances =
      Function.update store.instances entity (next.markEntityClean schema))
    (rows : after.rows = store.rows.set (next.rowKey schema) row)
    (queued : after.session.queued = store.session.queued.delete entity)
    (managed : after.session.managed = store.session.managed)
    (removed : after.session.removed = store.session.removed)
    (recorded : after.session.mutationAccumulator =
      store.session.mutationAccumulator.recordEntity entity (next.metadata schema) old
        (some (next.getEntityFields schema))) :
    Saves schema entity store after := by
  have self : after.instances entity = next.markEntityClean schema := by
    rw [instances, Function.update_self]
  have sameKey : after.rowKey schema entity = next.rowKey schema := by
    rw [rowKey, self]
    rfl
  have rowFound : after.row schema entity = some row := by
    rw [Store.row, sameKey, rows, OrderedMap.get?_set, if_pos rfl]
  refine ⟨?_, ?_, ?_, ?_, ⟨row, rowFound, ?_⟩, ?_, ?_, ?_, queued, managed, removed, ?_⟩
  · intro other different
    rw [instances, Function.update_of_ne different]
  · rw [self]
    exact sameClass
  · rw [self]
    exact Instance.markEntityClean_clean
  · rw [self]
    exact fields
  · rw [self]
    exact Instance.markEntityClean_clean.agrees columns addressed.1
  · rw [self]
    exact addressed
  · intro key different
    rw [sameKey] at different
    rw [rows, OrderedMap.get?_set, if_neg different]
  · rw [sameKey]
    exact exclusive
  · intro other item stored
    rw [recorded] at stored
    rcases Accumulator.get?_recordEntity _ stored with ⟨same, sameMetadata, last⟩ | kept
    · refine .inr ⟨same, ?_, fun _ => by rw [rowFound]; rfl, ?_⟩
      · rw [self, sameMetadata]
        exact schema.classType_eq _
      · intro final finally_ column member
        rw [last] at finally_
        cases finally_
        rw [self]
        rfl
    · exact .inl kept

/-- The entity as an UPDATE leaves it, before it is marked. -/
def updated (schema : Schema Value) (current : Instance Value) (before : Snapshot Value) :
    Instance Value :=
  if schema.hasMutationInterceptorFor current.classType then
    synchronized current (updateColumns schema current) before
  else current

omit [Zero Value] in
theorem classType_updated {current : Instance Value} :
    (updated schema current before).classType = current.classType := by
  unfold updated
  split <;> rfl

theorem saves_of_updateRow (consistent : Consistent schema store)
    (found : store.row schema entity = some row)
    (fields : ∀ column ∈ ((store.instances entity).metadata schema).columns,
      column.generated = false →
        ((updated schema (store.instances entity) before).field column).stored =
          ((store.instances entity).field column).stored)
    (key : ∀ column ∈ ((store.instances entity).metadata schema).primaryKeys,
      (updated schema (store.instances entity) before).field column =
        (store.instances entity).field column) :
    Saves schema entity store
      ((store.updateRow schema entity (updateColumns schema (store.instances entity))
        before).markSaved schema entity) := by
  obtain ⟨agrees, addressed⟩ := consistent.agrees entity row found
  have sameMetadata : (updated schema (store.instances entity) before).metadata schema =
      (store.instances entity).metadata schema := by
    rw [Instance.metadata, classType_updated, Instance.metadata]
  have sameKey : (updated schema (store.instances entity) before).rowKey schema =
      store.rowKey schema entity :=
    Instance.rowKey_congr classType_updated key
  have changed : (store.updateRow schema entity (updateColumns schema (store.instances entity))
      before).instances = Function.update store.instances entity
        (updated schema (store.instances entity) before) := by
    simp only [updateRow, found, change, updated]
  refine @saves_of_write Value _ _ schema store _ entity
    (updated schema (store.instances entity) before)
    (updatedRow schema (store.instances entity) (updateColumns schema (store.instances entity)) row)
    (some before) classType_updated ?_ ?_ ?_ ?_ ?_ ?_ ?_ ?_ ?_ ?_
  · exact fun column member plain _ => fields column member plain
  · intro column member plain
    rw [sameMetadata] at member
    rw [read_updatedRow_of_agrees agrees member plain, fields column member plain]
  · refine ⟨?_, ?_⟩
    · intro column member
      rw [sameMetadata] at member
      rw [key column member]
      exact addressed.1 column member
    · rw [sameMetadata, key _ Instance.primaryKey_mem]
      exact addressed.2
  · intro other different
    rw [sameKey]
    exact (consistent.exclusive entity other different.symm addressed).symm
  · simp only [markSaved, change, changed, Function.update_self, Function.update_idem]
  · rw [sameKey]
    simp only [markSaved, change, updateRow, found]
  · simp only [markSaved, change, updateRow, found, Session.removeQueued,
      Session.recordEntityMutation]
  · simp only [markSaved, change, updateRow, found, Session.removeQueued,
      Session.recordEntityMutation]
  · simp only [markSaved, change, updateRow, found, Session.removeQueued,
      Session.recordEntityMutation]
  · rw [sameMetadata]
    simp only [markSaved, change, updateRow, found, Session.removeQueued,
      Session.recordEntityMutation, Function.update_self, updated]

theorem saves_of_updateEntity (consistent : Consistent schema store)
    (found : store.row schema entity = some row)
    (result : store.updateEntity schema entity = some after) : Saves schema entity store after := by
  obtain ⟨agrees, addressed⟩ := consistent.agrees entity row found
  simp only [updateEntity] at result
  split at result
  · cases result
  split at result
  · cases result
  rename_i noGenerated
  split at result
  · rename_i clean
    cases result
    refine saves_of_nothing_dirty consistent found ?_
    intro column member
    by_cases generated : column.generated = true
    · by_contra changed
      apply noGenerated
      refine List.any_eq_true.mpr ⟨column, member, ?_⟩
      simp [generated, Instance.isDirty, changed]
    · refine field_of_not_mem_updateColumns agrees member (Bool.not_eq_true _ ▸ generated) ?_
      rw [clean]
      exact List.not_mem_nil
  by_cases observed : schema.hasMutationInterceptorFor (store.instances entity).classType = true
  · rcases consistent.load found with ⟨before, loaded, synchronizes⟩
    rw [if_pos observed, loaded] at result
    cases result
    have field : ∀ column ∈ ((store.instances entity).metadata schema).columns,
        (updated schema (store.instances entity) before).field column =
          if column ∈ updateColumns schema (store.instances entity) then
            (store.instances entity).field column
          else (before.get? column.propertyName).getD ((store.instances entity).field column) := by
      intro column member
      rw [updated, if_pos observed, field_synchronized member]
    refine saves_of_updateRow consistent found ?_ ?_
    · intro column member plain
      rw [field column member]
      split
      · rfl
      · rename_i kept
        exact (synchronizes column member plain
          (field_of_not_mem_updateColumns agrees member plain kept)).1
    · intro column member
      have inColumns := Instance.keyColumn_mem member
      rw [field column inColumns]
      split
      · rfl
      · exact (synchronizes column inColumns ((schema.wellFormed _).plainKeys column member)
          (agrees.key column member)).2 member
  · rw [if_neg observed] at result
    cases result
    have unchanged : ∀ before, updated schema (store.instances entity) before =
        store.instances entity := fun before => if_neg observed
    refine saves_of_updateRow consistent found ?_ ?_
    · intro column _ _
      rw [unchanged]
    · intro column _
      rw [unchanged]

section Insert

/-- An INSERT of the entity makes a row with its fields: nothing is left to a default, and no key
but the first is generated. -/
structure Insertable (schema : Schema Value) (current : Instance Value) : Prop where
  defined : ∀ column ∈ (current.metadata schema).columns, column.hasDefault = true →
    column.generated = false → column ∉ (current.metadata schema).primaryKeys →
      current.field column ≠ .undefined
  generatedKey : ∀ column ∈ (current.metadata schema).primaryKeys, column.autoIncrement = true →
    column = (current.metadata schema).primaryKey

/-- A generated key is not zero, and not the key of another entity unless that one has a row. -/
structure Fresh (schema : Schema Value) (store : Store Value) (entity : EntityId)
    (insertId : Value) : Prop where
  nonzero : insertId ≠ 0
  unused : ((store.instances entity).metadata schema).primaryKey.autoIncrement = true →
    ∀ other, other ≠ entity →
      store.rowKey schema other =
          (withInsertId schema (store.instances entity) insertId).rowKey schema →
        (store.row schema other).isSome

variable {current : Instance Value} {insertId : Value} {column : ColumnMetadata}

omit [DecidableEq Value] [Zero Value] in
theorem classType_withInsertId :
    (withInsertId schema current insertId).classType = current.classType := by
  simp only [withInsertId]
  split <;> rfl

omit [DecidableEq Value] [Zero Value] in
theorem metadata_withInsertId :
    (withInsertId schema current insertId).metadata schema = current.metadata schema := by
  rw [Instance.metadata, classType_withInsertId, Instance.metadata]

omit [DecidableEq Value] [Zero Value] in
theorem field_withInsertId_of_ne (member : column ∈ (current.metadata schema).columns)
    (other : column ≠ (current.metadata schema).primaryKey) :
    (withInsertId schema current insertId).field column = current.field column := by
  simp only [withInsertId]
  split
  · refine Instance.field_set_of_ne _ ?_
    intro same
    exact other (eq_of_propertyName_eq Instance.names member
      (Instance.keyColumn_mem Instance.primaryKey_mem) same)
  · rfl

omit [DecidableEq Value] [Zero Value] in
theorem field_withInsertId_primaryKey
    (auto : (current.metadata schema).primaryKey.autoIncrement = true) :
    (withInsertId schema current insertId).field (current.metadata schema).primaryKey =
      .value insertId := by
  simp [withInsertId, auto, Instance.set, Instance.field]

omit [DecidableEq Value] [Zero Value] in
theorem withInsertId_of_not_auto
    (given : ¬(current.metadata schema).primaryKey.autoIncrement = true) :
    withInsertId schema current insertId = current := by
  simp [withInsertId, given]

theorem read_insertedRow (insertable : Insertable schema current)
    (member : column ∈ (current.metadata schema).columns) (plain : column.generated = false) :
    read (some (insertedRow schema current insertId)) column.propertyName =
      ((withInsertId schema current insertId).field column).stored := by
  have written : column ∈ (current.metadata schema).columns.filter fun column =>
      column ∈ insertColumns schema current ∨ column ∈ (current.metadata schema).primaryKeys := by
    rw [List.mem_filter, decide_eq_true_eq]
    refine ⟨member, ?_⟩
    by_cases key : column ∈ (current.metadata schema).primaryKeys
    · exact .inr key
    · left
      have unflagged : column.primaryKey = false := by
        by_contra flagged
        exact key ((schema.wellFormed _).flagged column member (Bool.not_eq_false _ ▸ flagged))
      have defined : column.hasDefault = true → current.field column ≠ .undefined :=
        fun hasDefault => insertable.defined column member hasDefault plain key
      simp only [insertColumns, List.mem_filter]
      refine ⟨member, ?_⟩
      cases hasDefault : column.hasDefault with
      | false => simp [plain, unflagged]
      | true => simp [plain, unflagged, defined hasDefault]
  have names : ((current.metadata schema).columns.map (·.propertyName)).Nodup := Instance.names
  have someNames := names.sublist ((List.filter_sublist (p := fun column =>
    decide (column ∈ insertColumns schema current ∨
      column ∈ (current.metadata schema).primaryKeys))).map (·.propertyName))
  simp only [insertedRow]
  rw [read_columns names _ member]
  rw [get?_columns someNames (fun column =>
    ((withInsertId schema current insertId).field column).stored) written]
  rfl

theorem addressed_withInsertId (insertable : Insertable schema current)
    (present : ∀ column ∈ (current.metadata schema).primaryKeys, column.autoIncrement = false →
      (current.field column).missing = false) (nonzero : insertId ≠ 0) :
    (withInsertId schema current insertId).Addressed schema := by
  refine ⟨?_, ?_⟩
  · intro column member
    rw [metadata_withInsertId] at member
    by_cases auto : column.autoIncrement = true
    · have first := insertable.generatedKey column member auto
      subst first
      rw [field_withInsertId_primaryKey auto]
      rfl
    · have given := present column member (Bool.not_eq_true _ ▸ auto)
      by_cases first : column = (current.metadata schema).primaryKey
      · rw [withInsertId_of_not_auto (first ▸ auto)]
        exact given
      · rw [field_withInsertId_of_ne (Instance.keyColumn_mem member) first]
        exact given
  · rw [metadata_withInsertId]
    intro auto
    rw [field_withInsertId_primaryKey auto]
    exact decide_eq_false nonzero

theorem saves_of_insertEntity (consistent : Consistent schema store)
    (insertable : Insertable schema (store.instances entity))
    (fresh : Fresh schema store entity insertId)
    (result : store.insertEntity schema entity insertId = some after) :
    Saves schema entity store after := by
  simp only [insertEntity] at result
  split at result
  · cases result
  rename_i keyGiven
  split at result
  · cases result
  rename_i absent
  cases result
  have present : ∀ column ∈ ((store.instances entity).metadata schema).primaryKeys,
      column.autoIncrement = false → ((store.instances entity).field column).missing = false := by
    intro column member given
    by_contra missing
    apply keyGiven
    refine List.any_eq_true.mpr ⟨column, member, ?_⟩
    rw [Bool.not_eq_false] at missing
    rw [given, missing]
    rfl
  have addressed := addressed_withInsertId insertable present fresh.nonzero
  have exclusive : ∀ other, other ≠ entity → store.rowKey schema other ≠
      (withInsertId schema (store.instances entity) insertId).rowKey schema := by
    intro other different same
    by_cases auto : ((store.instances entity).metadata schema).primaryKey.autoIncrement = true
    · apply absent
      rw [← same]
      exact fresh.unused auto other different same
    · rw [withInsertId_of_not_auto auto] at same addressed
      exact different (consistent.eq_of_rowKey_eq addressed same)
  refine @saves_of_write Value _ _ schema store _ entity
    (withInsertId schema (store.instances entity) insertId)
    (insertedRow schema (store.instances entity) insertId) none classType_withInsertId ?_ ?_
    addressed exclusive ?_ ?_ ?_ ?_ ?_ ?_
  · intro column member _ notKey
    rw [field_withInsertId_of_ne member]
    rintro rfl
    exact notKey Instance.primaryKey_mem
  · intro column member plain
    rw [metadata_withInsertId] at member
    exact read_insertedRow insertable member plain
  · simp only [markSaved, change, Function.update_self, Function.update_idem]
  · rfl
  · rfl
  · rfl
  · rfl
  · rw [metadata_withInsertId]
    rfl

end Insert

namespace Saves

variable (saves : Saves schema entity store after)
include saves

theorem rowKey_of_ne {other : EntityId} (different : other ≠ entity) :
    after.rowKey schema other = store.rowKey schema other := by
  rw [rowKey, saves.others other different, rowKey]

theorem row_of_ne {other : EntityId} (different : other ≠ entity) :
    after.row schema other = store.row schema other := by
  rw [Store.row, saves.rowKey_of_ne different, saves.rows _ (saves.exclusive other different),
    Store.row]

theorem consistent (consistent : Consistent schema store) : Consistent schema after := by
  constructor
  case agrees =>
    intro other row found
    by_cases same : other = entity
    · subst same
      rcases saves.agrees with ⟨saved, savedFound, agrees⟩
      cases savedFound.symm.trans found
      exact ⟨agrees, saves.addressed⟩
    · rw [saves.row_of_ne same] at found
      rw [saves.others other same]
      exact consistent.agrees other row found
  case exclusive =>
    intro first second different addressed
    by_cases same : first = entity
    · subst same
      rw [saves.rowKey_of_ne different.symm]
      exact (saves.exclusive second different.symm).symm
    · rw [saves.rowKey_of_ne same]
      by_cases sameSecond : second = entity
      · subst sameSecond
        exact saves.exclusive first same
      · rw [saves.rowKey_of_ne sameSecond]
        rw [saves.others first same] at addressed
        exact consistent.exclusive first second different addressed
  case recorded =>
    intro other item stored
    rcases saves.recorded other item stored with ⟨different, kept⟩ | ⟨same, entry⟩
    · have entry := consistent.recorded other item kept
      refine ⟨?_, ?_, ?_⟩
      · rw [saves.others other different]
        exact entry.sameClass
      · rw [saves.row_of_ne different]
        exact entry.exists_
      · rw [saves.others other different]
        exact entry.fields
    · subst same
      exact entry

end Saves

section Delete

variable (schema)

/-- The row of the entity has been deleted, and nothing else has changed but what is recorded of
it. -/
structure Deletes (entity : EntityId) (before after : Store Value) : Prop where
  instances : after.instances = before.instances
  absent : after.row schema entity = none
  rows : ∀ other, other ≠ entity → after.row schema other = before.row schema other
  queued : after.session.queued = before.session.queued
  managed : after.session.managed = before.session.managed
  removed : after.session.removed = before.session.removed
  recorded : ∀ other item,
    after.session.mutationAccumulator.entityMutations.get? other = some item →
      (other ≠ entity ∧
        before.session.mutationAccumulator.entityMutations.get? other = some item) ∨
      (other = entity ∧
        item.metadata.classType = (before.instances entity).classType ∧ item.after = none)

variable {schema}

theorem deletes_of_absent (consistent : Consistent schema store)
    (absent : store.row schema entity = none) : Deletes schema entity store store := by
  refine ⟨rfl, absent, fun _ _ => rfl, rfl, rfl, rfl, ?_⟩
  intro other item stored
  by_cases same : other = entity
  · subst same
    have entry := consistent.recorded other item stored
    refine .inr ⟨rfl, entry.sameClass, ?_⟩
    cases last : item.after with
    | none => rfl
    | some after =>
        have found := entry.exists_ (by rw [last]; rfl)
        rw [absent] at found
        cases found
  · exact .inl ⟨same, stored⟩

theorem deletes_of_deleteEntity (consistent : Consistent schema store)
    (result : store.deleteEntity schema entity = some after) :
    Deletes schema entity store after := by
  simp only [deleteEntity] at result
  split at result
  · cases result
  split at result
  · cases result
  cases found : store.row schema entity with
  | none =>
      have unchanged : after = store := by
        rw [found] at result
        split at result
        · exact (Option.some.inj result).symm
        · exact (Option.some.inj result).symm
        · rename_i impossible
          cases impossible
      subst unchanged
      exact deletes_of_absent consistent found
  | some row =>
      obtain ⟨agrees, addressed⟩ := consistent.agrees entity row found
      have loads : ∃ before, (if schema.hasMutationInterceptorFor (store.instances entity).classType
          then store.loadEntitySnapshotForUpdate schema (store.instances entity)
          else if (store.instances entity).hasEntitySnapshot then
            some (store.instances entity).getEntityOriginal
          else some ((store.instances entity).getEntityFields schema)) = some before := by
        split
        · rcases consistent.load found with ⟨before, loaded, -⟩
          exact ⟨before, loaded⟩
        · split
          · exact ⟨_, rfl⟩
          · exact ⟨_, rfl⟩
      rcases loads with ⟨before, loaded⟩
      rw [loaded, found] at result
      cases result
      refine ⟨rfl, ?_, ?_, rfl, rfl, rfl, ?_⟩
      · rw [Store.row, OrderedMap.get?_erase]
        exact if_pos rfl
      · intro other different
        rw [Store.row, OrderedMap.get?_erase]
        exact if_neg fun same => different (consistent.eq_of_rowKey_eq addressed same)
      · intro other item stored
        rcases Accumulator.get?_recordEntity _ stored with ⟨same, sameMetadata, last⟩ | kept
        · refine .inr ⟨same, ?_, last⟩
          rw [sameMetadata]
          exact schema.classType_eq _
        · exact .inl kept

theorem Deletes.consistent (deletes : Deletes schema entity store after)
    (consistent : Consistent schema store) : Consistent schema after := by
  have sameKey : ∀ other, after.rowKey schema other = store.rowKey schema other := by
    intro other
    rw [rowKey, deletes.instances, rowKey]
  constructor
  case agrees =>
    intro other row found
    by_cases same : other = entity
    · subst same
      rw [deletes.absent] at found
      cases found
    · rw [deletes.rows other same] at found
      rw [deletes.instances]
      exact consistent.agrees other row found
  case exclusive =>
    intro first second different addressed
    rw [deletes.instances] at addressed
    rw [sameKey, sameKey]
    exact consistent.exclusive first second different addressed
  case recorded =>
    intro other item stored
    rcases deletes.recorded other item stored with ⟨different, kept⟩ | ⟨same, sameClass, last⟩
    · have entry := consistent.recorded other item kept
      refine ⟨?_, ?_, ?_⟩
      · rw [deletes.instances]
        exact entry.sameClass
      · rw [deletes.rows other different]
        exact entry.exists_
      · rw [deletes.instances]
        exact entry.fields
    · subst same
      refine ⟨?_, ?_, ?_⟩
      · rw [deletes.instances]
        exact sameClass
      · rw [last]
        intro impossible
        cases impossible
      · rw [last]
        intro _ impossible
        cases impossible

end Delete

end Effect

end Store

end ServerFoundation.Database
