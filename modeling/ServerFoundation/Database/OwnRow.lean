import ServerFoundation.Database.DirectSaving
import ServerFoundation.Database.UnitOfWork

/-!
# The row that an entity is saved to

An UPDATE finds its row by the values that the key fields have now, while its columns are those
that differ from the snapshot. So a save writes the row that the entity was loaded from as long as
the key fields have the values of the snapshot.
-/

namespace ServerFoundation.Database

variable {Value : Type}

namespace Instance

variable (schema : Schema Value) (entity : Instance Value)

/-- The key that the snapshot has. -/
def ownKey : RowKey Value :=
  (entity.classType,
    (entity.metadata schema).primaryKeys.map fun column =>
      read entity.original column.propertyName)

variable [DecidableEq Value]

/-- The fields that have changed since, apart from the key. -/
def dirtyFields : List ColumnMetadata :=
  (entity.metadata schema).columns.filter fun column =>
    column ∉ (entity.metadata schema).primaryKeys ∧ !column.generated ∧ entity.isDirty column

/-- A row holds what has changed. -/
def HeldBy (row : Option (Snapshot Value)) : Prop :=
  ∀ column ∈ entity.dirtyFields schema,
    read row column.propertyName = (entity.field column).stored

end Instance

/-- Two states of a row, apart from the columns that the database computes from the others. -/
def SameRow (schema : Schema Value) (classType : String) (before after : Option (Snapshot Value)) :
    Prop :=
  before.isSome = after.isSome ∧
    ∀ column ∈ (schema.getEntityMetadata classType).columns, column.generated = false →
      read before column.propertyName = read after column.propertyName

namespace Store

section Statements

variable [DecidableEq Value] [Zero Value] (schema : Schema Value) (store : Store Value)

/-- The session tracks no other entity. -/
structure TracksOnly (entity : EntityId) : Prop where
  queued : ∀ other, store.session.queued.has other = true → other = entity
  managed : ∀ other, store.session.managed.has other = true → other = entity
  removed : store.session.removed.keys = []

/-- Every row stands under the key that it holds. -/
def Keyed : Prop :=
  ∀ key row, store.rows.get? key = some row →
    key.2 = (schema.getEntityMetadata key.1).primaryKeys.map fun column =>
      read (some row) column.propertyName

/-- The ways in which an entity is saved. -/
inductive SaveRoute where
  | withoutSession
  | withSession
  | flush
deriving DecidableEq

/-- The store in which an entity is saved. Without a session, an observed entity is saved by the
flush of a transaction. -/
def routed (entity : EntityId) : SaveRoute → Store Value
  | .withoutSession =>
      if schema.hasMutationInterceptorFor (store.instances entity).classType then
        { store with session := (Session.empty true).add entity }
      else store
  | .withSession | .flush => store

/-- The store after the entity was saved, unless the save throws. -/
def saved (insertIds : EntityId → Value) (entity : EntityId) (route : SaveRoute) :
    Option (Store Value) :=
  let start := store.routed schema entity route
  match route with
  | .withoutSession =>
      if schema.hasMutationInterceptorFor (store.instances entity).classType then
        start.flush schema insertIds
      else start.saveEntity schema entity (insertIds entity)
  | .withSession => start.saveDirectly schema insertIds entity (insertIds entity)
  | .flush => start.flush schema insertIds

/-- `saveEntity` throws before it sends a statement. -/
def refuses (entity : EntityId) : Bool :=
  !store.accepts schema entity || !assertPrimaryKeyValues schema (store.instances entity) ||
    ((store.instances entity).metadata schema).columns.any fun column =>
      column.generated && (store.instances entity).isDirty column

/-- A save changes no other row, and its own one holds what has changed. -/
def WritesOwnRow (entity : EntityId) (after : Store Value) : Prop :=
  (∀ key, key ≠ (store.instances entity).ownKey schema →
    SameRow schema key.1 (store.rows.get? key) (after.rows.get? key)) ∧
  (store.instances entity).HeldBy schema
    (after.rows.get? ((store.instances entity).ownKey schema))

/-- The key is that of the snapshot, or what has changed stands already in the entity's own row and
in the one of the key. -/
def KeepsOwnRow (entity : EntityId) : Prop :=
  store.rowKey schema entity = (store.instances entity).ownKey schema ∨
    (store.instances entity).HeldBy schema
      (store.rows.get? ((store.instances entity).ownKey schema)) ∧
    ∀ row, store.row schema entity = some row → (store.instances entity).HeldBy schema (some row)

end Statements

section Rows

variable [DecidableEq Value] {schema : Schema Value} {taken : Instance Value}
  {before between after : OrderedMap (RowKey Value) (Snapshot Value)} {column : ColumnMetadata}
  {row : Snapshot Value}

/-- What an UPDATE with the values of an entity makes of the rows. -/
structure Wrote (schema : Schema Value) (taken : Instance Value)
    (before after : OrderedMap (RowKey Value) (Snapshot Value)) : Prop where
  others : ∀ key, key ≠ taken.rowKey schema → after.get? key = before.get? key
  absent : before.get? (taken.rowKey schema) = none → after.get? (taken.rowKey schema) = none
  present : ∀ row, before.get? (taken.rowKey schema) = some row →
    ∃ next, after.get? (taken.rowKey schema) = some next ∧
      ∀ column ∈ (taken.metadata schema).columns, column.generated = false →
        read (some next) column.propertyName =
          if column ∈ updateColumns schema taken then (taken.field column).stored
          else read (some row) column.propertyName

theorem wrote_nothing (clean : updateColumns schema taken = []) :
    Wrote schema taken before before :=
  ⟨fun _ _ => rfl, id, fun row found => ⟨row, found, fun column _ _ => by simp [clean]⟩⟩

theorem wrote_absent (absent : before.get? (taken.rowKey schema) = none) :
    Wrote schema taken before before :=
  ⟨fun _ _ => rfl, id, fun row found => by rw [absent] at found; cases found⟩

theorem wrote_set (found : before.get? (taken.rowKey schema) = some row) :
    Wrote schema taken before (before.set (taken.rowKey schema)
      (updatedRow schema taken (updateColumns schema taken) row)) where
  others key different := by simp [different]
  absent none := by
    rw [found] at none
    cases none
  present other same := by
    rw [found] at same
    cases same
    exact ⟨_, by simp, fun column member plain => read_updatedRow member plain⟩

theorem Wrote.trans (first : Wrote schema taken before between)
    (second : Wrote schema taken between after) : Wrote schema taken before after where
  others key different := (second.others key different).trans (first.others key different)
  absent none := second.absent (first.absent none)
  present row found := by
    rcases first.present row found with ⟨next, isNext, columns⟩
    rcases second.present next isNext with ⟨last, isLast, columnsLast⟩
    refine ⟨last, isLast, fun column member plain => ?_⟩
    rw [columnsLast column member plain, columns column member plain]
    split_ifs <;> rfl

theorem plain_of_dirty (mem : column ∈ taken.dirtyFields schema) :
    column ∈ (taken.metadata schema).columns ∧ column.generated = false := by
  simp only [Instance.dirtyFields, List.mem_filter, decide_eq_true_eq, Bool.not_eq_true'] at mem
  exact ⟨mem.1, mem.2.2.1⟩

theorem mem_updateColumns_of_dirty (mem : column ∈ taken.dirtyFields schema) :
    column ∈ updateColumns schema taken := by
  simp only [Instance.dirtyFields, List.mem_filter, decide_eq_true_eq, Bool.not_eq_true'] at mem
  rcases mem with ⟨member, notKey, plain, dirty⟩
  have unflagged : column.primaryKey = false := by
    by_contra flagged
    exact notKey ((schema.wellFormed _).flagged column member (by simpa using flagged))
  simp [updateColumns, member, plain, dirty, unflagged]

theorem dirty_of_mem_updateColumns (mem : column ∈ updateColumns schema taken) :
    column ∈ taken.dirtyFields schema ∨ column ∈ (taken.metadata schema).primaryKeys := by
  simp only [updateColumns, List.mem_filter, Bool.and_eq_true, Bool.not_eq_true'] at mem
  rcases mem with ⟨member, ⟨_, plain⟩, dirty⟩
  by_cases key : column ∈ (taken.metadata schema).primaryKeys
  · exact Or.inr key
  · left
    simp [Instance.dirtyFields, member, plain, dirty, key]

variable {store after : Store Value} {entity : EntityId}

theorem read_of_keyed (keyed : store.Keyed schema)
    (found : store.rows.get? (taken.rowKey schema) = some row)
    (inKey : column ∈ (taken.metadata schema).primaryKeys) :
    read (some row) column.propertyName = taken.field column := by
  have values : (taken.metadata schema).primaryKeys.map taken.field =
      (taken.metadata schema).primaryKeys.map fun column =>
        read (some row) column.propertyName := keyed _ row found
  exact (List.map_inj_left.mp values column inKey).symm

theorem writesOwnRow_of_wrote (keyed : store.Keyed schema)
    (present : assertPrimaryKeyValues schema (store.instances entity) = true)
    {own : Snapshot Value}
    (loaded : store.rows.get? ((store.instances entity).ownKey schema) = some own)
    (wrote : Wrote schema (store.instances entity) store.rows after.rows) :
    store.WritesOwnRow schema entity after ↔ store.KeepsOwnRow schema entity := by
  by_cases kept : store.rowKey schema entity = (store.instances entity).ownKey schema
  · constructor
    · exact fun _ => Or.inl kept
    · intro _
      change (store.instances entity).rowKey schema = _ at kept
      constructor
      · intro key different
        rw [wrote.others key (kept ▸ different)]
        exact ⟨rfl, fun _ _ _ => rfl⟩
      · rw [← kept] at loaded ⊢
        rcases wrote.present own loaded with ⟨next, isNext, columns⟩
        intro column dirty
        have written := mem_updateColumns_of_dirty dirty
        rcases plain_of_dirty dirty with ⟨member, plain⟩
        rw [isNext, columns column member plain, if_pos written]
  · have sameOwn := wrote.others _ (Ne.symm kept)
    unfold WritesOwnRow KeepsOwnRow
    rw [sameOwn]
    constructor
    · rintro ⟨rows, held⟩
      refine Or.inr ⟨held, fun row found => ?_⟩
      have same := rows (store.rowKey schema entity) kept
      rcases wrote.present row found with ⟨next, isNext, columns⟩
      change store.rows.get? (store.rowKey schema entity) = some row at found
      change after.rows.get? (store.rowKey schema entity) = some next at isNext
      rw [found, isNext] at same
      intro column dirty
      rcases plain_of_dirty dirty with ⟨member, plain⟩
      rw [same.2 column member plain, columns column member plain,
        if_pos (mem_updateColumns_of_dirty dirty)]
    · rintro (same | ⟨held, other⟩)
      · exact absurd same kept
      · refine ⟨fun key different => ?_, held⟩
        by_cases isKey : key = (store.instances entity).rowKey schema
        · subst isKey
          cases found : store.rows.get? ((store.instances entity).rowKey schema) with
          | none =>
              rw [wrote.absent found]
              exact ⟨rfl, fun _ _ _ => rfl⟩
          | some row =>
              rcases wrote.present row found with ⟨next, isNext, columns⟩
              rw [isNext]
              refine ⟨rfl, fun column member plain => ?_⟩
              rw [columns column member plain]
              split_ifs with written
              · rcases dirty_of_mem_updateColumns written with dirty | inKey
                · exact other row found column dirty
                · rw [read_of_keyed keyed found inKey, FieldValue.stored_of_not_missing]
                  simpa using List.all_eq_true.mp present column inKey
              · rfl
        · rw [wrote.others key isKey]
          exact ⟨rfl, fun _ _ _ => rfl⟩

theorem key_of_load (keyed : store.Keyed schema) {before : Snapshot Value}
    (loads : store.loadEntitySnapshotForUpdate schema taken = some before)
    (inKey : column ∈ (taken.metadata schema).primaryKeys) :
    (before.get? column.propertyName).getD (taken.field column) = taken.field column := by
  rcases Option.or_eq_some_iff.mp loads with pending | ⟨_, isRow⟩
  · rcases List.exists_of_findSome?_eq_some pending with ⟨mutation, _, selected⟩
    cases mutation with
    | query mutation => cases selected
    | entity mutation =>
        simp only [Option.ite_none_right_eq_some, List.all_eq_true, decide_eq_true_eq] at selected
        rcases selected with ⟨⟨_, sameKey⟩, recorded⟩
        have same := sameKey column inKey
        rw [recorded] at same
        cases stands : before.get? column.propertyName with
        | none => rfl
        | some value => simpa [read, stands] using same
  · rcases Option.map_eq_some_iff.mp isRow with ⟨row, found, rfl⟩
    rw [get?_hydrate (Instance.keyColumn_mem inKey), Option.getD_some]
    exact read_of_keyed keyed found inKey

/-- An entity has been saved, so that a second save has nothing to write. -/
structure Resavable (schema : Schema Value) (entity : EntityId) (before after : Store Value) :
    Prop where
  clean : (after.instances entity).Clean schema
  sameClass : (after.instances entity).classType = (before.instances entity).classType
  present : assertPrimaryKeyValues schema (after.instances entity) = true
  transactional : after.session.transactional = before.session.transactional
  queued : after.session.queued = before.session.queued.delete entity
  managed : after.session.managed = before.session.managed
  removed : after.session.removed = before.session.removed

omit [DecidableEq Value] in
theorem resavable_markSaved
    (present : assertPrimaryKeyValues schema (store.instances entity) = true) :
    Resavable schema entity store (store.markSaved schema entity) where
  clean := by
    rw [instances_markSaved_self]
    exact Instance.markEntityClean_clean
  sameClass := by rw [instances_markSaved_self]; rfl
  present := by rw [instances_markSaved_self]; exact present
  transactional := rfl
  queued := rfl
  managed := rfl
  removed := rfl

theorem wrote_updateTaken (store : Store Value) (entity : EntityId) (taken : Instance Value)
    (before : Snapshot Value) :
    Wrote schema taken store.rows
      (store.updateTaken schema entity taken (updateColumns schema taken) before).rows := by
  unfold updateTaken
  cases found : store.rows.get? (taken.rowKey schema) with
  | none => exact wrote_absent found
  | some row => exact wrote_set found

theorem session_updateTaken (store : Store Value) (entity : EntityId) (taken : Instance Value)
    (dirty : List ColumnMetadata) (before : Snapshot Value) :
    let updated := store.updateTaken schema entity taken dirty before
    updated.session.transactional = store.session.transactional ∧
      updated.session.queued = store.session.queued ∧
      updated.session.managed = store.session.managed ∧
      updated.session.removed = store.session.removed := by
  unfold updateTaken
  cases store.rows.get? (taken.rowKey schema) <;> exact ⟨rfl, rfl, rfl, rfl⟩

theorem instances_updateTaken (dirty : List ColumnMetadata) (before : Snapshot Value) :
    (store.updateTaken schema entity taken dirty before).instances entity =
      if schema.hasMutationInterceptorFor taken.classType then
        ((store.instances entity).assign before).assign (JsObject.fromEntries
          (dirty.map fun column => (column.propertyName, taken.field column)))
      else store.instances entity := by
  unfold updateTaken
  cases store.rows.get? (taken.rowKey schema) <;> exact Function.update_self entity _ _

theorem absent_of_persistedSnapshot (missing : store.persistedSnapshot schema taken = none) :
    store.rows.get? (taken.rowKey schema) = none := Option.map_eq_none_iff.mp missing

theorem present_updateTaken (keyed : store.Keyed schema)
    (present : assertPrimaryKeyValues schema (store.instances entity) = true)
    {before : Snapshot Value}
    (loads : schema.hasMutationInterceptorFor (store.instances entity).classType = true →
      store.loadEntitySnapshotForUpdate schema (store.instances entity) = some before) :
    assertPrimaryKeyValues schema ((store.updateTaken schema entity (store.instances entity)
      (updateColumns schema (store.instances entity)) before).instances entity) = true := by
  rw [instances_updateTaken]
  split_ifs with observed
  · refine List.all_eq_true.mpr fun column member => ?_
    have inKey : column ∈ ((store.instances entity).metadata schema).primaryKeys := member
    have sameField : (synchronized (store.instances entity)
        (updateColumns schema (store.instances entity)) before).field column =
          (store.instances entity).field column := by
      rw [field_synchronized (Instance.keyColumn_mem inKey)]
      split_ifs
      · rfl
      · exact key_of_load keyed (loads observed) inKey
    change (!((synchronized (store.instances entity)
      (updateColumns schema (store.instances entity)) before).field column).missing) = true
    rw [sameField]
    exact List.all_eq_true.mp present column inKey
  · exact present

theorem updateEntity_spec (keyed : store.Keyed schema)
    (present : assertPrimaryKeyValues schema (store.instances entity) = true)
    (plain : (((store.instances entity).metadata schema).columns.any fun column =>
      column.generated && (store.instances entity).isDirty column) = false) :
    ∃ after, store.updateEntity schema entity = some after ∧
      Wrote schema (store.instances entity) store.rows after.rows ∧
      Resavable schema entity store after := by
  unfold updateEntity
  simp only [present, plain, Bool.not_true, Bool.false_eq_true, if_false]
  by_cases clean : updateColumns schema (store.instances entity) = []
  · rw [if_pos clean]
    exact ⟨_, rfl, wrote_nothing clean, resavable_markSaved present⟩
  · rw [if_neg clean]
    cases loads : (if schema.hasMutationInterceptorFor (store.instances entity).classType then
        store.loadEntitySnapshotForUpdate schema (store.instances entity)
      else some (store.instances entity).getEntityOriginal) with
    | none =>
        split_ifs at loads
        have absent := absent_of_persistedSnapshot (Option.or_eq_none_iff.mp loads).2
        exact ⟨_, rfl, wrote_absent absent, resavable_markSaved present⟩
    | some before =>
        have marked := resavable_markSaved (present_updateTaken keyed present fun observed =>
          (if_pos observed).symm.trans loads)
        rcases session_updateTaken store entity (store.instances entity)
          (updateColumns schema (store.instances entity)) before with
          ⟨transactional, queued, managed, removed⟩
        refine ⟨(store.updateTaken schema entity (store.instances entity)
          (updateColumns schema (store.instances entity)) before).markSaved schema entity, rfl,
          wrote_updateTaken _ _ _ before, marked.clean, ?_, marked.present,
          marked.transactional.trans transactional, ?_, marked.managed.trans managed,
          marked.removed.trans removed⟩
        · rw [marked.sameClass, instances_updateTaken]
          split_ifs <;> rfl
        · rw [marked.queued, queued]

end Rows

section Routes

variable [DecidableEq Value] [Zero Value] {schema : Schema Value} {store after : Store Value}
  {entity : EntityId} {insertIds : EntityId → Value} {insertId : Value} {set : OrderedSet EntityId}

theorem not_inserts_of_persisted (persisted : (store.instances entity).hasEntitySnapshot = true) :
    inserts schema (store.instances entity) = false := by
  simp [inserts, persisted]

theorem saveEntity_refuses (insertId : Value)
    (persisted : (store.instances entity).hasEntitySnapshot = true)
    (refused : store.refuses schema entity = true) :
    store.saveEntity schema entity insertId = none := by
  simp only [refuses, Bool.or_eq_true, Bool.not_eq_true'] at refused
  unfold saveEntity updateEntity
  rcases refused with (refused | refused) | refused
  · simp [refused]
  · simp [not_inserts_of_persisted persisted, refused]
  · simp [not_inserts_of_persisted persisted, refused]

theorem saveEntity_spec (insertId : Value) (keyed : store.Keyed schema)
    (persisted : (store.instances entity).hasEntitySnapshot = true)
    (taken : store.refuses schema entity = false) :
    ∃ after, store.saveEntity schema entity insertId = some after ∧
      Wrote schema (store.instances entity) store.rows after.rows ∧
      Resavable schema entity store after := by
  simp only [refuses, Bool.or_eq_false_iff, Bool.not_eq_false'] at taken
  rcases taken with ⟨⟨accepted, present⟩, plain⟩
  simpa [saveEntity, accepted, not_inserts_of_persisted persisted] using
    updateEntity_spec keyed present plain

theorem saveEntity_clean (accepted : store.accepts schema entity = true)
    (clean : (store.instances entity).Clean schema)
    (present : assertPrimaryKeyValues schema (store.instances entity) = true) :
    store.saveEntity schema entity insertId = some (store.markSaved schema entity) := by
  have persisted : (store.instances entity).hasEntitySnapshot = true := by
    rw [Instance.hasEntitySnapshot, clean]
    rfl
  have unchanged : ∀ column ∈ ((store.instances entity).metadata schema).columns,
      (store.instances entity).isDirty column = false := by
    intro column member
    simp [Instance.isDirty, clean.read_original member]
  have nothing : updateColumns schema (store.instances entity) = [] := by
    rw [updateColumns, List.filter_eq_nil_iff]
    intro column member
    simp [unchanged column member]
  have plain : (((store.instances entity).metadata schema).columns.any fun column =>
      column.generated && (store.instances entity).isDirty column) = false := by
    rw [List.any_eq_false]
    intro column member
    simp [unchanged column member]
  simp [saveEntity, accepted, not_inserts_of_persisted persisted, updateEntity, present, plain,
    nothing]

theorem keys_of_only (only : ∀ other, OrderedSet.has set other = true → other = entity) :
    set.keys = if OrderedSet.has set entity then [entity] else [] := by
  have all : ∀ other ∈ set.keys, other = entity := fun other mem =>
    only other ((OrderedSet.mem_keys_iff_has set other).mp mem)
  have nodup : set.keys.Nodup := set.nodupKeys
  split_ifs with tracked
  · have mem := (OrderedSet.mem_keys_iff_has set entity).mpr tracked
    generalize set.keys = keys at all nodup mem
    cases keys with
    | nil => cases mem
    | cons first rest =>
        cases rest with
        | nil => rw [all first (List.mem_singleton_self first)]
        | cons second rest =>
            have same := (all first (by simp)).trans (all second (by simp)).symm
            simp [same] at nodup
  · refine List.eq_nil_iff_forall_not_mem.mpr fun other mem => tracked ?_
    rw [← all other mem]
    exact (OrderedSet.mem_keys_iff_has set other).mp mem

theorem has_of_keys_nil (empty : set.keys = []) : OrderedSet.has set entity = false := by
  by_contra tracked
  have mem := (OrderedSet.mem_keys_iff_has set entity).mpr (by simpa using tracked)
  rw [empty] at mem
  cases mem

omit [DecidableEq Value] [Zero Value] in
theorem accepts_congr (sameClass : (after.instances entity).classType =
      (store.instances entity).classType)
    (transactional : after.session.transactional = store.session.transactional) :
    after.accepts schema entity = store.accepts schema entity := by
  rw [accepts, sameClass, transactional, accepts]

/-- The session tracks the entity alone, which has nothing to write. -/
structure Settled (schema : Schema Value) (entity : EntityId) (store : Store Value) : Prop where
  tracks : store.TracksOnly entity
  accepted : store.accepts schema entity = true
  clean : (store.instances entity).Clean schema
  present : assertPrimaryKeyValues schema (store.instances entity) = true

omit [DecidableEq Value] [Zero Value] in
theorem Resavable.settled (resavable : Resavable schema entity store after)
    (tracks : store.TracksOnly entity) (accepted : store.accepts schema entity = true) :
    Settled schema entity after where
  tracks := by
    refine ⟨fun other tracked => ?_, resavable.managed ▸ tracks.managed,
      resavable.removed ▸ tracks.removed⟩
    rw [resavable.queued, OrderedSet.has_delete, Bool.and_eq_true] at tracked
    exact tracks.queued other tracked.2
  accepted := (accepts_congr resavable.sameClass resavable.transactional).trans accepted
  clean := resavable.clean
  present := resavable.present

omit [DecidableEq Value] [Zero Value] in
theorem Settled.manage (settled : Settled schema entity store) :
    Settled schema entity
      { store with session := (store.session.removeQueued entity).manage entity } where
  tracks := by
    refine ⟨fun other tracked => ?_, fun other tracked => ?_, settled.tracks.removed⟩
    · simp only [Session.manage, Session.removeQueued, OrderedSet.has_delete,
        Bool.and_eq_true] at tracked
      exact settled.tracks.queued other tracked.2
    · simp only [Session.manage, OrderedSet.has_add, Bool.or_eq_true, decide_eq_true_eq] at tracked
      exact tracked.elim id (settled.tracks.managed other)
  accepted := settled.accepted
  clean := settled.clean
  present := settled.present

theorem Settled.flushManaged (settled : Settled schema entity store)
    (unqueued : store.session.queued.has entity = false) :
    store.flushManaged schema insertIds entity = some (store.markSaved schema entity) := by
  simp [Store.flushManaged, unqueued, has_of_keys_nil settled.tracks.removed,
    saveEntity_clean settled.accepted settled.clean settled.present]

theorem flush_of_saves (tracks : store.TracksOnly entity)
    (accepted : store.accepts schema entity = true) {first : Store Value}
    (saves : store.saveEntity schema entity (insertIds entity) = some first)
    (resavable : Resavable schema entity store first) :
    ∃ after, store.flush schema insertIds = some after ∧
      (after = store ∧ store.session.queued.has entity = false ∧
        store.session.managed.has entity = false ∨
      after.rows = first.rows ∧ Settled schema entity after) := by
  have notRemoved : store.session.removed.has entity = false := has_of_keys_nil tracks.removed
  have settled := resavable.settled tracks accepted
  unfold flush
  cases queued : store.session.queued.has entity with
  | true =>
      have keys : store.session.queued.keys = [entity] := by
        rw [keys_of_only tracks.queued, if_pos queued]
      have saved := settled.manage
      generalize isSecond : { first with
        session := (first.session.removeQueued entity).manage entity } = second at saved
      have turn : store.flushQueued schema insertIds entity = some second := by
        simp [flushQueued, notRemoved, saves, ← isSecond]
      have managedKeys : second.session.managed.keys = [entity] := by
        rw [keys_of_only saved.tracks.managed, if_pos (by simp [← isSecond, Session.manage])]
      have again : second.flushManaged schema insertIds entity =
          some (second.markSaved schema entity) :=
        saved.flushManaged (by simp [← isSecond, Session.manage, Session.removeQueued])
      have marked := (resavable_markSaved saved.present).settled saved.tracks saved.accepted
      refine ⟨second.markSaved schema entity, ?_, Or.inr ⟨?_, marked⟩⟩
      · simp [keys, turn, managedKeys, again, marked.tracks.removed]
      · rw [← isSecond]
        rfl
  | false =>
      have keys : store.session.queued.keys = [] := by
        rw [keys_of_only tracks.queued, if_neg (by simp [queued])]
      cases managed : store.session.managed.has entity with
      | true =>
          have managedKeys : store.session.managed.keys = [entity] := by
            rw [keys_of_only tracks.managed, if_pos managed]
          have turn : store.flushManaged schema insertIds entity = some first := by
            simp [flushManaged, queued, notRemoved, saves]
          refine ⟨first, ?_, Or.inr ⟨rfl, settled⟩⟩
          simp [keys, managedKeys, turn, settled.tracks.removed]
      | false =>
          have managedKeys : store.session.managed.keys = [] := by
            rw [keys_of_only tracks.managed, if_neg (by simp [managed])]
          refine ⟨store, ?_, Or.inl ⟨rfl, rfl, rfl⟩⟩
          simp [keys, managedKeys, tracks.removed]

/-- The flush of a session that tracks one entity writes what saving this entity writes, and
another flush writes nothing more. -/
theorem flush_spec (insertIds : EntityId → Value) (keyed : store.Keyed schema)
    (tracks : store.TracksOnly entity)
    (persisted : (store.instances entity).hasEntitySnapshot = true)
    (taken : store.refuses schema entity = false) :
    ∃ after, store.flush schema insertIds = some after ∧
      (after.rows = store.rows ∧ store.session.queued.has entity = false ∧
        store.session.managed.has entity = false ∨
      Wrote schema (store.instances entity) store.rows after.rows) ∧
      ∃ again, after.flush schema insertIds = some again ∧ again.rows = after.rows := by
  rcases saveEntity_spec (insertIds entity) keyed persisted taken with
    ⟨first, saves, wrote, resavable⟩
  have accepted : store.accepts schema entity = true := by
    simp only [refuses, Bool.or_eq_false_iff, Bool.not_eq_false'] at taken
    exact taken.1.1
  rcases flush_of_saves tracks accepted saves resavable with
    ⟨after, flushes, ⟨rfl, untracked⟩ | ⟨rows, settled⟩⟩
  · exact ⟨after, flushes, Or.inl ⟨rfl, untracked⟩, after, flushes, rfl⟩
  · rcases flush_of_saves settled.tracks settled.accepted
      (saveEntity_clean settled.accepted settled.clean settled.present)
      (resavable_markSaved settled.present) with ⟨again, flushesAgain, ⟨rfl, _⟩ | ⟨same, _⟩⟩
    · exact ⟨_, flushes, Or.inr (rows ▸ wrote), _, flushesAgain, rfl⟩
    · exact ⟨after, flushes, Or.inr (rows ▸ wrote), again, flushesAgain, same⟩

theorem flush_refuses (tracks : store.TracksOnly entity)
    (tracked : store.session.queued.has entity = true ∨ store.session.managed.has entity = true)
    (persisted : (store.instances entity).hasEntitySnapshot = true)
    (refused : store.refuses schema entity = true) : store.flush schema insertIds = none := by
  have notRemoved : store.session.removed.has entity = false := has_of_keys_nil tracks.removed
  have throws := saveEntity_refuses (insertIds entity) persisted refused
  unfold flush
  cases queued : store.session.queued.has entity with
  | true =>
      have keys : store.session.queued.keys = [entity] := by
        rw [keys_of_only tracks.queued, if_pos queued]
      have turn : store.flushQueued schema insertIds entity = none := by
        simp [flushQueued, notRemoved, throws]
      simp [keys, turn]
  | false =>
      have keys : store.session.queued.keys = [] := by
        rw [keys_of_only tracks.queued, if_neg (by simp [queued])]
      have managed : store.session.managed.has entity = true := by simpa [queued] using tracked
      have managedKeys : store.session.managed.keys = [entity] := by
        rw [keys_of_only tracks.managed, if_pos managed]
      have turn : store.flushManaged schema insertIds entity = none := by
        simp [flushManaged, queued, notRemoved, throws]
      simp [keys, managedKeys, turn]

theorem saveDirectly_refuses (persisted : (store.instances entity).hasEntitySnapshot = true)
    (refused : store.refuses schema entity = true) :
    store.saveDirectly schema insertIds entity insertId = none := by
  simp only [refuses, Bool.or_eq_true, Bool.not_eq_true'] at refused
  unfold saveDirectly
  rcases refused with (refused | refused) | refused
  · simp [refused]
  · simp [not_inserts_of_persisted persisted, refused]
  · simp [not_inserts_of_persisted persisted, refused]

theorem saveDirectly_spec (keyed : store.Keyed schema) (tracks : store.TracksOnly entity)
    (persisted : (store.instances entity).hasEntitySnapshot = true)
    (taken : store.refuses schema entity = false) :
    ∃ after, store.saveDirectly schema insertIds entity insertId = some after ∧
      Wrote schema (store.instances entity) store.rows after.rows := by
  rcases flush_spec insertIds keyed tracks persisted taken with
    ⟨flushed, flushes, flushedRows, again, flushesAgain, sameRows⟩
  have wroteFirst : Wrote schema (store.instances entity) store.rows flushed.rows ∨
      flushed.rows = store.rows := by
    rcases flushedRows with ⟨same, _⟩ | wrote
    · exact Or.inr same
    · exact Or.inl wrote
  -- whichever flush it was, the values that were taken go into the rows that it left
  have writes (last : Store Value) (lastRows : last.rows = flushed.rows) (before : Snapshot Value) :
      Wrote schema (store.instances entity) store.rows ((last.updateTaken schema entity
        (store.instances entity) (updateColumns schema (store.instances entity)) before).markSaved
          schema entity).rows := by
    have second : Wrote schema _ last.rows _ :=
      wrote_updateTaken last entity (store.instances entity) before
    rw [lastRows] at second
    rcases wroteFirst with first | same
    · exact first.trans second
    · exact same ▸ second
  simp only [refuses, Bool.or_eq_false_iff, Bool.not_eq_false'] at taken
  rcases taken with ⟨⟨accepted, present⟩, plain⟩
  unfold saveDirectly
  simp only [accepted, not_inserts_of_persisted persisted, present, plain, Bool.not_true,
    Bool.false_eq_true, if_false]
  by_cases clean : updateColumns schema (store.instances entity) = []
  · rw [if_pos clean]
    exact ⟨_, rfl, wrote_nothing clean⟩
  · rw [if_neg clean, beforeUpdate]
    split_ifs
    · cases store.recordedSnapshot schema (store.instances entity) with
      | some recorded =>
          simp only [Option.bind_some, flushes, Option.map_some]
          exact ⟨_, rfl, writes flushed rfl recorded⟩
      | none =>
          simp only [flushes, Option.map_some, Option.bind_some]
          cases loads : flushed.persistedSnapshot schema (store.instances entity) with
          | none =>
              refine ⟨_, rfl, ?_⟩
              rcases wroteFirst with first | same
              · exact first
              · exact same ▸ wrote_absent (absent_of_persistedSnapshot loads)
          | some before =>
              simp only [flushesAgain, Option.map_some]
              exact ⟨_, rfl, writes again sameRows before⟩
    · simp only [Option.bind_some, flushes, Option.map_some]
      exact ⟨_, rfl, writes flushed rfl _⟩

omit [Zero Value] in
theorem writesOwnRow_iff_of_result {result : Option (Store Value)} (keyed : store.Keyed schema)
    (loaded : (store.rows.get? ((store.instances entity).ownKey schema)).isSome = true)
    {refused : Bool} (throws : refused = true → result = none)
    (present : refused = false → assertPrimaryKeyValues schema (store.instances entity) = true)
    (writes : refused = false → ∃ after, result = some after ∧
      Wrote schema (store.instances entity) store.rows after.rows) :
    (∀ after, result = some after → store.WritesOwnRow schema entity after) ↔
      refused = true ∨ store.KeepsOwnRow schema entity := by
  rcases Option.isSome_iff_exists.mp loaded with ⟨own, isOwn⟩
  cases refused with
  | true => simp [throws rfl]
  | false =>
      rcases writes rfl with ⟨after, isAfter, wrote⟩
      simp [isAfter, writesOwnRow_of_wrote keyed (present rfl) isOwn wrote]

omit [Zero Value] in
theorem present_of_not_refuses (taken : store.refuses schema entity = false) :
    assertPrimaryKeyValues schema (store.instances entity) = true := by
  simp only [refuses, Bool.or_eq_false_iff, Bool.not_eq_false'] at taken
  exact taken.1.2

/-- The row of the entity is written, and no other, as long as the key is that of the snapshot,
unless nothing changes. -/
theorem writesOwnRow_iff (keyed : store.Keyed schema)
    (persisted : (store.instances entity).hasEntitySnapshot = true)
    (loaded : (store.rows.get? ((store.instances entity).ownKey schema)).isSome = true)
    (route : SaveRoute) (tracks : route ≠ .withoutSession → store.TracksOnly entity)
    (tracked : route = .flush →
      store.session.queued.has entity = true ∨ store.session.managed.has entity = true)
    (insertIds : EntityId → Value) :
    (∀ after, store.saved schema insertIds entity route = some after →
      store.WritesOwnRow schema entity after) ↔
      (store.routed schema entity route).refuses schema entity = true ∨
        store.KeepsOwnRow schema entity := by
  have flushes (start : Store Value) (sameRows : start.rows = store.rows)
      (sameInstances : start.instances = store.instances) (only : start.TracksOnly entity)
      (isTracked : start.session.queued.has entity = true ∨
        start.session.managed.has entity = true) :
      (∀ after, start.flush schema insertIds = some after →
        store.WritesOwnRow schema entity after) ↔
        start.refuses schema entity = true ∨ store.KeepsOwnRow schema entity := by
    have startKeyed : start.Keyed schema := by
      unfold Keyed
      rwa [sameRows]
    rw [← sameInstances] at persisted
    apply writesOwnRow_iff_of_result keyed loaded
    · exact flush_refuses only isTracked persisted
    · exact fun taken => sameInstances ▸ present_of_not_refuses taken
    · intro taken
      rcases flush_spec insertIds startKeyed only persisted taken with
        ⟨after, isAfter, ⟨_, unqueued, unmanaged⟩ | wrote, _⟩
      · simp [unqueued, unmanaged] at isTracked
      · exact ⟨after, isAfter, sameRows ▸ sameInstances ▸ wrote⟩
  cases route with
  | flush => exact flushes store rfl rfl (tracks (by decide)) (tracked rfl)
  | withSession =>
      apply writesOwnRow_iff_of_result keyed loaded
      · exact saveDirectly_refuses persisted
      · exact present_of_not_refuses
      · exact saveDirectly_spec keyed (tracks (by decide)) persisted
  | withoutSession =>
      unfold saved routed
      dsimp only
      split_ifs with observed
      · apply flushes { store with session := (Session.empty true).add entity } rfl rfl
        · refine ⟨fun other => by simp [Session.add, Session.empty], ?_, rfl⟩
          intro other impossible
          cases impossible
        · simp [Session.add]
      · apply writesOwnRow_iff_of_result keyed loaded
        · exact saveEntity_refuses _ persisted
        · exact present_of_not_refuses
        · intro taken
          rcases saveEntity_spec (insertIds entity) keyed persisted taken with
            ⟨after, isAfter, wrote, _⟩
          exact ⟨after, isAfter, wrote⟩

end Routes

section Users

/-- A row of users. -/
def userRow (id name : ℕ) : Snapshot ℕ :=
  JsObject.fromEntries [("id", .value id), ("name", .value name)]

/-- The first of two users, with a key and a name assigned since it was loaded. -/
def reassigned (id name : ℕ) : Store ℕ where
  instances _ :=
    ⟨"User", fun property => .value (if property = "id" then id else name), some (userRow 1 7)⟩
  session := .empty false
  rows := (OrderedMap.empty.set ("User", [.value 1]) (userRow 1 7)).set ("User", [.value 2])
    (userRow 2 8)

theorem keyed_reassigned (id name : ℕ) : (reassigned id name).Keyed userSchema := by
  intro key row found
  simp only [reassigned, OrderedMap.get?_set, OrderedMap.get?_empty] at found
  split_ifs at found with second first
  · rw [second, ← Option.some.inj found]
    decide +kernel
  · rw [first, ← Option.some.inj found]
    decide +kernel

theorem writesOwnRow_renamed : ∃ after,
    (reassigned 1 9).saved userSchema (fun _ => 0) 0 .withoutSession = some after ∧
      (reassigned 1 9).WritesOwnRow userSchema 0 after := by
  have isSaved :
      ((reassigned 1 9).saved userSchema (fun _ => 0) 0 .withoutSession).isSome = true := by
    decide +kernel
  rcases Option.isSome_iff_exists.mp isSaved with ⟨after, isAfter⟩
  have writes : ∀ after,
      (reassigned 1 9).saved userSchema (fun _ => 0) 0 .withoutSession = some after →
        (reassigned 1 9).WritesOwnRow userSchema 0 after :=
    (writesOwnRow_iff (keyed_reassigned 1 9) rfl (by decide +kernel) .withoutSession
      (fun other => absurd rfl other) nofun fun _ => 0).mpr (Or.inr (Or.inl (by decide +kernel)))
  exact ⟨after, isAfter, writes after isAfter⟩

/-- An entity that is given the key of another row, and a new name, renames the other row. -/
theorem not_writesOwnRow_moved : ∃ after,
    (reassigned 2 9).saved userSchema (fun _ => 0) 0 .withoutSession = some after ∧
      ¬ (reassigned 2 9).WritesOwnRow userSchema 0 after := by
  have renames : ((reassigned 2 9).saved userSchema (fun _ => 0) 0 .withoutSession).map
      (fun after => read (after.rows.get? ("User", [.value 2])) "name") = some (.value 9) := by
    decide +kernel
  rcases Option.map_eq_some_iff.mp renames with ⟨after, isAfter, renamed⟩
  refine ⟨after, isAfter, fun writes => ?_⟩
  have same := (writes.1 ("User", [.value 2]) (by decide +kernel)).2
    ⟨"name", false, false, false, false⟩ (by simp [userSchema, userMetadata]) rfl
  rw [renamed] at same
  exact absurd same (by decide +kernel)

end Users

end Store

end ServerFoundation.Database
