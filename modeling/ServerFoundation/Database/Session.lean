import ServerFoundation.Data.OrderedSet
import ServerFoundation.Database.Entity

/-!
# The session as a unit of work

`DatabaseSession` collects entities to save and to delete and writes them when it is flushed:
queued entities first, which become managed, then the managed ones, and at last the removed ones
are deleted.

The database holds rows by class and primary key. A statement addresses the row of the primary
key of its entity, and reports whether there was one. A column holds the value that its entity
reads back, and an undefined value is stored as `null`. Inside a flush no statement flushes the
session again. The instance that `loadEntitySnapshotForUpdate` loads leaves the session with it
and is not modelled.
-/

namespace ServerFoundation.Database

/-- `InsertedEntityState`. -/
structure InsertedEntityState (Value : Type) where
  metadata : EntityMetadata
  autoIncrementField : Option String
  previousAutoIncrementValue : FieldValue Value

/-- The part of `DatabaseSession` that saving and deleting entities changes. -/
structure Session (Value : Type) where
  transactional : Bool
  queued : OrderedSet EntityId
  managed : OrderedSet EntityId
  removed : OrderedSet EntityId
  mutationAccumulator : Accumulator Value
  insertedEntities : OrderedMap EntityId (InsertedEntityState Value)
  touchedEntities : OrderedMap EntityId EntityMetadata

namespace Session

variable {Value : Type} (session : Session Value)

/-- A session without entities. -/
def empty (transactional : Bool) : Session Value :=
  ⟨transactional, .empty, .empty, .empty, .empty, .empty, .empty⟩

/-- `add`. -/
def add (entity : EntityId) : Session Value :=
  { session with
    removed := session.removed.delete entity
    queued := session.queued.add entity }

/-- `manage`. -/
def manage (entity : EntityId) : Session Value :=
  { session with managed := session.managed.add entity }

/-- `removeQueued`. -/
def removeQueued (entity : EntityId) : Session Value :=
  { session with queued := session.queued.delete entity }

/-- `unmanage`. -/
def unmanage (entity : EntityId) : Session Value :=
  { session with
    queued := session.queued.delete entity
    managed := session.managed.delete entity
    removed := session.removed.delete entity }

/-- `remove`: an entity that was only queued, and never saved, is forgotten. -/
def remove (entity : EntityId) (hasEntitySnapshot : Bool) : Session Value :=
  let wasQueued := session.queued.has entity
  { session with
    queued := session.queued.delete entity
    removed :=
      if !wasQueued || session.managed.has entity || hasEntitySnapshot then
        session.removed.add entity
      else session.removed
    managed := session.managed.delete entity }

/-- `recordEntityMutation`. -/
def recordEntityMutation [DecidableEq Value] (entity : EntityId) (metadata : EntityMetadata)
    (before after : Option (Snapshot Value)) : Session Value :=
  { session with
    touchedEntities := session.touchedEntities.set entity metadata
    mutationAccumulator := session.mutationAccumulator.recordEntity entity metadata before after }

/-- `recordEntityInsert`. -/
def recordEntityInsert (entity : EntityId) (metadata : EntityMetadata)
    (autoIncrementField : Option String) (previousAutoIncrementValue : FieldValue Value) :
    Session Value :=
  { session with
    touchedEntities := session.touchedEntities.set entity metadata
    insertedEntities :=
      if (session.insertedEntities.get? entity).isSome then session.insertedEntities
      else session.insertedEntities.set entity
        ⟨metadata, autoIncrementField, previousAutoIncrementValue⟩ }

end Session

/-- The entities of a program, a session and the rows of the database. -/
structure Store (Value : Type) where
  instances : EntityId → Instance Value
  session : Session Value
  rows : OrderedMap (RowKey Value) (Snapshot Value)

namespace Store

variable {Value : Type} [DecidableEq Value] (schema : Schema Value) (store : Store Value)

/-- Change one entity object. -/
def change (entity : EntityId) (changed : Instance Value) : Store Value :=
  { store with instances := Function.update store.instances entity changed }

/-- The row that an instance addresses. -/
def rowKey (entity : EntityId) : RowKey Value := (store.instances entity).rowKey schema

/-- The row of the key of an entity. -/
def row (entity : EntityId) : Option (Snapshot Value) :=
  store.rows.get? (store.rowKey schema entity)

/-- The end of `saveEntity`. -/
def markSaved (entity : EntityId) : Store Value :=
  let saved := store.change entity ((store.instances entity).markEntityClean schema)
  { saved with session := saved.session.removeQueued entity }

/-- A row as `hydrate` reads it. -/
def hydrate (metadata : EntityMetadata) (row : Snapshot Value) : Snapshot Value :=
  JsObject.fromEntries (metadata.columns.map fun column =>
    (column.propertyName, read (some row) column.propertyName))

/-- The row of an entity as the last recorded mutation of it has left it. -/
def recordedSnapshot (entity : Instance Value) : Option (Snapshot Value) :=
  let metadata := entity.metadata schema
  store.session.mutationAccumulator.getMutations.findSome? fun
    | .query _ => none
    | .entity mutation =>
        if mutation.metadata.classType = metadata.classType ∧
          metadata.primaryKeys.all fun column =>
            read mutation.after column.propertyName = entity.field column
        then mutation.after else none

/-- The row of an entity in the database. -/
def persistedSnapshot (entity : Instance Value) : Option (Snapshot Value) :=
  (store.rows.get? (entity.rowKey schema)).map (hydrate (entity.metadata schema))

/-- `loadEntitySnapshotForUpdate` inside a flush. -/
def loadEntitySnapshotForUpdate (entity : Instance Value) : Option (Snapshot Value) :=
  (store.recordedSnapshot schema entity).or (store.persistedSnapshot schema entity)

/-- `assertPrimaryKeyValues`. -/
def assertPrimaryKeyValues (entity : Instance Value) : Bool :=
  (entity.metadata schema).primaryKeys.all fun column => !(entity.field column).missing

/-- The dirty columns that an UPDATE writes. -/
def updateColumns (entity : Instance Value) : List ColumnMetadata :=
  (entity.metadata schema).columns.filter fun column =>
    !column.primaryKey && !column.generated && entity.isDirty column

/-- The row after an UPDATE of some columns. The database computes generated columns again. -/
def updatedRow (entity : Instance Value) (dirty : List ColumnMetadata) (row : Snapshot Value) :
    Snapshot Value :=
  let metadata := entity.metadata schema
  let written := JsObject.fromEntries (metadata.columns.map fun column =>
    (column.propertyName,
      if column ∈ dirty then (entity.field column).stored else read (some row) column.propertyName))
  JsObject.fromEntries (metadata.columns.map fun column =>
    (column.propertyName,
      if column.generated then schema.computed metadata column written
      else read (some written) column.propertyName))

/-- An observed entity is synchronized with the row that was found. -/
def synchronized (entity : Instance Value) (dirty : List ColumnMetadata) (before : Snapshot Value) :
    Instance Value :=
  (entity.assign before).assign
    (JsObject.fromEntries (dirty.map fun column => (column.propertyName, entity.field column)))

/-- `UPDATE`, and what `saveEntity` records of it. -/
def updateRow (entity : EntityId) (dirty : List ColumnMetadata) (before : Snapshot Value) :
    Store Value :=
  let current := store.instances entity
  let observed := schema.hasMutationInterceptorFor current.classType
  let updated := store.change entity
    (if observed then synchronized current dirty before else current)
  match store.row schema entity with
  | none => updated
  | some row =>
      { updated with
        rows := store.rows.set (store.rowKey schema entity) (updatedRow schema current dirty row)
        session := store.session.recordEntityMutation entity (current.metadata schema) (some before)
          (some ((updated.instances entity).getEntityFields schema)) }

/-- `saveEntity` for an entity that has a snapshot, or an explicit auto-increment key. -/
def updateEntity (entity : EntityId) : Option (Store Value) :=
  let current := store.instances entity
  let metadata := current.metadata schema
  if !assertPrimaryKeyValues schema current then none
  else if metadata.columns.any fun column => column.generated && current.isDirty column then none
  else
    let dirty := updateColumns schema current
    if dirty = [] then some (store.markSaved schema entity)
    else
      let before :=
        if schema.hasMutationInterceptorFor current.classType then
          store.loadEntitySnapshotForUpdate schema current
        else some current.getEntityOriginal
      match before with
      | none => some (store.markSaved schema entity)
      | some before => some ((store.updateRow schema entity dirty before).markSaved schema entity)

variable [Zero Value]

/-- `saveEntity` inserts the entity. -/
def inserts (entity : Instance Value) : Bool :=
  let primaryKey := (entity.metadata schema).primaryKey
  !entity.hasEntitySnapshot &&
    (!primaryKey.autoIncrement || (entity.field primaryKey).isAutoIncrementSentinel)

/-- The columns that an INSERT writes. -/
def insertColumns (entity : Instance Value) : List ColumnMetadata :=
  let metadata := entity.metadata schema
  metadata.columns.filter fun column =>
    !column.generated &&
      !(column.primaryKey && column.autoIncrement &&
        (entity.field metadata.primaryKey).isAutoIncrementSentinel) &&
      !(column.hasDefault && decide (entity.field column = .undefined))

/-- The entity with the key that the database has generated for it. -/
def withInsertId (entity : Instance Value) (insertId : Value) : Instance Value :=
  let primaryKey := (entity.metadata schema).primaryKey
  if primaryKey.autoIncrement then entity.set primaryKey.propertyName (.value insertId) else entity

/-- The row that an INSERT makes, with the generated key. -/
def insertedRow (entity : Instance Value) (insertId : Value) : Snapshot Value :=
  let metadata := entity.metadata schema
  let inserted := insertColumns schema entity
  let keyed := withInsertId schema entity insertId
  let written := JsObject.fromEntries ((metadata.columns.filter fun column =>
    column ∈ inserted ∨ column ∈ metadata.primaryKeys).map fun column =>
      (column.propertyName, (keyed.field column).stored))
  JsObject.fromEntries (metadata.columns.map fun column =>
    (column.propertyName,
      (written.get? column.propertyName).getD (schema.computed metadata column written)))

/-- `saveEntity` for a new entity. -/
def insertEntity (entity : EntityId) (insertId : Value) : Option (Store Value) :=
  let current := store.instances entity
  let metadata := current.metadata schema
  let primaryKey := metadata.primaryKey
  if metadata.primaryKeys.any fun column =>
    !column.autoIncrement && (current.field column).missing then none
  else
    let keyed := withInsertId schema current insertId
    if (store.rows.get? (keyed.rowKey schema)).isSome then none
    else
      let inserted := store.change entity keyed
      let recorded := { inserted with
        rows := store.rows.set (keyed.rowKey schema) (insertedRow schema current insertId)
        session := (store.session.recordEntityInsert entity metadata
          (if primaryKey.autoIncrement then some primaryKey.propertyName else none)
          (current.field primaryKey)).recordEntityMutation entity metadata none
            (some (keyed.getEntityFields schema)) }
      some (recorded.markSaved schema entity)

/-- A class with an interceptor needs a transactional session. -/
def accepts (entity : EntityId) : Bool :=
  !schema.hasMutationInterceptorFor (store.instances entity).classType ||
    store.session.transactional

/-- `saveEntity` inside a flush. -/
def saveEntity (entity : EntityId) (insertId : Value) : Option (Store Value) :=
  if !store.accepts schema entity then none
  else if inserts schema (store.instances entity) then store.insertEntity schema entity insertId
  else store.updateEntity schema entity

omit [Zero Value] in
/-- `deleteEntity` inside a flush. -/
def deleteEntity (entity : EntityId) : Option (Store Value) :=
  let current := store.instances entity
  if !store.accepts schema entity then none
  else if !assertPrimaryKeyValues schema current then none
  else
    let before :=
      if schema.hasMutationInterceptorFor current.classType then
        store.loadEntitySnapshotForUpdate schema current
      else if current.hasEntitySnapshot then some current.getEntityOriginal
      else some (current.getEntityFields schema)
    match before, store.row schema entity with
    | none, _ | some _, none => some store
    | some before, some _ =>
        some { store with
          rows := store.rows.erase (store.rowKey schema entity)
          session := store.session.recordEntityMutation entity (current.metadata schema)
            (some before) none }

variable (insertIds : EntityId → Value)

/-- The first loop of `flush`. -/
def flushQueued (entity : EntityId) : Option (Store Value) :=
  if store.session.removed.has entity then
    some { store with session := store.session.removeQueued entity }
  else
    (store.saveEntity schema entity (insertIds entity)).map fun saved =>
      { saved with session := (saved.session.removeQueued entity).manage entity }

/-- The second loop of `flush`. -/
def flushManaged (entity : EntityId) : Option (Store Value) :=
  if store.session.queued.has entity || store.session.removed.has entity then some store
  else store.saveEntity schema entity (insertIds entity)

omit [Zero Value] in
/-- The third loop of `flush`. -/
def flushRemoved (entity : EntityId) : Option (Store Value) :=
  (store.deleteEntity schema entity).map fun deleted =>
    { deleted with session := deleted.session.unmanage entity }

/-- `flush`, with the keys that the database generates for the entities it inserts. -/
def flush : Option (Store Value) := do
  let queued ← store.session.queued.keys.foldlM
    (fun store entity => store.flushQueued schema insertIds entity) store
  let managed ← queued.session.managed.keys.foldlM
    (fun store entity => store.flushManaged schema insertIds entity) queued
  managed.session.removed.keys.foldlM (fun store entity => store.flushRemoved schema entity) managed

end Store

end ServerFoundation.Database
