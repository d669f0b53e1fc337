import ServerFoundation.Database.Session

/-!
# Saving an entity outside of a flush

A statement of an entity that is saved outside of a flush flushes the session first, with its
values already taken.
-/

namespace ServerFoundation.Database

namespace Store

variable {Value : Type} [DecidableEq Value] [Zero Value] (schema : Schema Value)
  (store : Store Value)

/-- An UPDATE with values that were taken from the entity before the session was flushed. -/
def updateTaken (entity : EntityId) (taken : Instance Value) (dirty : List ColumnMetadata)
    (before : Snapshot Value) : Store Value :=
  let current := store.instances entity
  let updated := store.change entity
    (if schema.hasMutationInterceptorFor taken.classType then
      (current.assign before).assign (JsObject.fromEntries (dirty.map fun column =>
        (column.propertyName, taken.field column)))
    else current)
  match store.rows.get? (taken.rowKey schema) with
  | none => updated
  | some row =>
      { updated with
        rows := store.rows.set (taken.rowKey schema) (updatedRow schema taken dirty row)
        session := store.session.recordEntityMutation entity (taken.metadata schema) (some before)
          (some ((updated.instances entity).getEntityFields schema)) }

/-- An INSERT with values that were taken from the entity before the session was flushed. -/
def insertTaken (entity : EntityId) (taken : Instance Value) (insertId : Value) :
    Option (Store Value) :=
  let metadata := taken.metadata schema
  let primaryKey := metadata.primaryKey
  let key := (withInsertId schema taken insertId).rowKey schema
  if (store.rows.get? key).isSome then none
  else
    let keyed := withInsertId schema (store.instances entity) insertId
    let inserted := store.change entity keyed
    some { inserted with
      rows := store.rows.set key (insertedRow schema taken insertId)
      session := (store.session.recordEntityInsert entity metadata
        (if primaryKey.autoIncrement then some primaryKey.propertyName else none)
        (taken.field primaryKey)).recordEntityMutation entity metadata none
          (some (keyed.getEntityFields schema)) }

variable (insertIds : EntityId → Value)

/-- What `saveEntity` takes for the row before an UPDATE, and the store after a search for it. -/
def beforeUpdate (taken : Instance Value) : Option (Store Value × Option (Snapshot Value)) :=
  if schema.hasMutationInterceptorFor taken.classType then
    match store.recordedSnapshot schema taken with
    | some recorded => some (store, some recorded)
    | none =>
        (store.flush schema insertIds).map fun flushed =>
          (flushed, flushed.persistedSnapshot schema taken)
  else some (store, some taken.getEntityOriginal)

/-- `saveEntity` outside of a flush. -/
def saveDirectly (entity : EntityId) (insertId : Value) : Option (Store Value) :=
  let taken := store.instances entity
  let metadata := taken.metadata schema
  if !store.accepts schema entity then none
  else if inserts schema taken then
    if metadata.primaryKeys.any fun column =>
      !column.autoIncrement && (taken.field column).missing then none
    else
      (store.flush schema insertIds).bind fun flushed =>
        (flushed.insertTaken schema entity taken insertId).map (·.markSaved schema entity)
  else if !assertPrimaryKeyValues schema taken then none
  else if metadata.columns.any fun column => column.generated && taken.isDirty column then none
  else
    let dirty := updateColumns schema taken
    if dirty = [] then some (store.markSaved schema entity)
    else
      (store.beforeUpdate schema insertIds taken).bind fun loaded =>
        match loaded.2 with
        | none => some (loaded.1.markSaved schema entity)
        | some before =>
            (loaded.1.flush schema insertIds).map fun flushed =>
              (flushed.updateTaken schema entity taken dirty before).markSaved schema entity

end Store

end ServerFoundation.Database
