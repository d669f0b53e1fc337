import ServerFoundation.Database.Saving

/-!
# A session keeps the rows of its entities

Calls of `add`, `remove` and `flush` and assignments to fields, in any order, on entities that
are each the only access to their row. An entity is wanted when the last call about it was
`add`, or when it was loaded and there was none. After a flush the rows that exist are those of
the wanted entities, and hold their fields.

`deleteEntity` leaves the snapshot in place, and an entity that is added again is taken for a
persisted one, so that nothing is inserted. So is a new entity with an explicit auto-increment
key. The session is faithful when at each flush every queued entity either has its row or is
inserted with all its fields.
-/

namespace ServerFoundation.Database

/-- What is done with a session and its entities. -/
inductive SessionCall (Value : Type) where
  | add (entity : EntityId)
  | remove (entity : EntityId)
  | assign (entity : EntityId) (property : String) (value : FieldValue Value)
  | flush (insertIds : EntityId → Value)

variable {Value : Type}

/-- The last call about the entity was `add`, or it was loaded and there was none. -/
def wanted (loaded : EntityId → Bool) (entity : EntityId) (calls : List (SessionCall Value)) :
    Bool :=
  calls.foldl (fun last call =>
    match call with
    | .add added => if added = entity then true else last
    | .remove removed => if removed = entity then false else last
    | .assign _ _ _ | .flush _ => last) (loaded entity)

theorem wanted_concat (loaded : EntityId → Bool) (entity : EntityId)
    (calls : List (SessionCall Value)) (call : SessionCall Value) :
    wanted loaded entity (calls ++ [call]) =
      match call with
      | .add added => if added = entity then true else wanted loaded entity calls
      | .remove removed => if removed = entity then false else wanted loaded entity calls
      | .assign _ _ _ | .flush _ => wanted loaded entity calls := by
  unfold wanted
  rw [List.foldl_append]
  rfl

namespace Store

variable [DecidableEq Value] [Zero Value] (schema : Schema Value)

/-- One call. A flush that throws is not completed. -/
def call (store : Store Value) : SessionCall Value → Option (Store Value)
  | .add entity => some { store with session := store.session.add entity }
  | .remove entity =>
      some { store with
        session := store.session.remove entity (store.instances entity).hasEntitySnapshot }
  | .assign entity property value =>
      some (store.change entity ((store.instances entity).set property value))
  | .flush insertIds => store.flush schema insertIds

/-- No two entities address the same row. -/
def Exclusive (store : Store Value) : Prop :=
  ∀ entity other, entity ≠ other → (store.instances entity).Addressed schema →
    store.rowKey schema entity ≠ store.rowKey schema other

/-- Each entity stays the only access to its row, also with the keys that a flush generates. -/
def OnlyAccess (before : Store Value) (call : SessionCall Value) (after : Store Value) : Prop :=
  after.Exclusive schema ∧
    ∀ insertIds, call = .flush insertIds → ∀ entity, before.session.queued.has entity →
      inserts schema (before.instances entity) → Fresh schema before entity (insertIds entity)

/-- The session has loaded some entities, and the others are new. -/
structure Starts (loaded : EntityId → Bool) (store : Store Value) : Prop where
  consistent : Consistent schema store
  queued : ∀ entity, store.session.queued.has entity = false
  removed : ∀ entity, store.session.removed.has entity = false
  managed : ∀ entity, store.session.managed.has entity = loaded entity
  rows : ∀ entity, (store.row schema entity).isSome = loaded entity
  new : ∀ entity, loaded entity = false → (store.instances entity).hasEntitySnapshot = false

/-- The calls on a session whose entities are each the only access to their row. -/
def unitOfWork (loaded : EntityId → Bool) : TransitionSystem (Store Value) (SessionCall Value) where
  Init := Starts schema loaded
  Step before call after := before.call schema call = some after ∧
    OnlyAccess schema before call after

/-- A queued entity has its row, or is new and will be inserted with all its fields. -/
def Savable (store : Store Value) (entity : EntityId) : Prop :=
  (store.row schema entity).isSome ∨
    (inserts schema (store.instances entity) = true ∧
      Insertable schema (store.instances entity))

/-- At a flush every queued entity can be saved, and a key is only assigned to an entity without a
row. -/
def Faithful (store : Store Value) : SessionCall Value → Prop
  | .flush _ => ∀ entity, store.session.queued.has entity → store.Savable schema entity
  | .assign entity property value =>
      (∃ column ∈ ((store.instances entity).metadata schema).primaryKeys,
        column.propertyName = property) →
      store.row schema entity = none ∧
        store.rows.get? (((store.instances entity).set property value).rowKey schema) = none
  | .add _ | .remove _ => True

section Invariant

variable {schema} {store after : Store Value} {entity : EntityId} {insertIds : EntityId → Value}

theorem Consistent.congr (consistent : Consistent schema store) {session : Session Value}
    (sameMutations : session.mutationAccumulator = store.session.mutationAccumulator) :
    Consistent schema { store with session } := by
  refine ⟨consistent.agrees, consistent.exclusive, ?_⟩
  intro other item stored
  rw [sameMutations] at stored
  have entry := consistent.recorded other item stored
  exact ⟨entry.sameClass, entry.exists_, entry.fields⟩

theorem Consistent.not_inserts (consistent : Consistent schema store)
    (present : (store.row schema entity).isSome) :
    inserts schema (store.instances entity) = false := by
  obtain ⟨row, found⟩ := Option.isSome_iff_exists.mp present
  have snapshot := (consistent.agrees entity row found).1.snapshot
  simp [inserts, snapshot]

theorem saves_of_saveEntity (consistent : Consistent schema store)
    (savable : store.Savable schema entity) {insertId : Value}
    (fresh : inserts schema (store.instances entity) → Fresh schema store entity insertId)
    (saved : store.saveEntity schema entity insertId = some after) :
    Saves schema entity store after := by
  simp only [saveEntity] at saved
  split at saved
  · cases saved
  rcases savable with present | ⟨new, insertable⟩
  · rw [consistent.not_inserts present, if_neg Bool.false_ne_true] at saved
    obtain ⟨row, found⟩ := Option.isSome_iff_exists.mp present
    exact saves_of_updateEntity consistent found saved
  · rw [if_pos new] at saved
    exact saves_of_insertEntity consistent insertable (fresh new) saved

variable (schema) in
/-- Managed entities have rows, and a row without an owner in the session has been deleted. -/
structure Tracked (store : Store Value) : Prop where
  consistent : Consistent schema store
  managed : ∀ entity, store.session.managed.has entity → (store.row schema entity).isSome
  owned : ∀ entity, (store.row schema entity).isSome →
    store.session.queued.has entity ∨ store.session.managed.has entity ∨
      store.session.removed.has entity
  removed : ∀ entity, store.session.removed.has entity →
    store.session.queued.has entity = false ∧ store.session.managed.has entity = false

/-- The session still holds the entity, to be saved or kept up to date. -/
def held (store : Store Value) (entity : EntityId) : Bool :=
  store.session.queued.has entity || store.session.managed.has entity

variable (schema) in
/-- A flush keeps the fields of the entities and holds the same ones. -/
structure Evolves (start store : Store Value) : Prop where
  sameClass : ∀ entity, (store.instances entity).classType = (start.instances entity).classType
  fields : ∀ entity, ∀ column ∈ ((start.instances entity).metadata schema).columns,
    column.generated = false → column ∉ ((start.instances entity).metadata schema).primaryKeys →
      ((store.instances entity).field column).stored =
        ((start.instances entity).field column).stored
  held : ∀ entity, store.held entity = start.held entity

omit [DecidableEq Value] [Zero Value] in
theorem Evolves.refl (start : Store Value) : Evolves schema start start :=
  ⟨fun _ => rfl, fun _ _ _ _ _ => rfl, fun _ => rfl⟩

theorem Evolves.saves {start saved : Store Value} (evolves : Evolves schema start store)
    (saves : Saves schema entity store saved) (instances : after.instances = saved.instances)
    (held : ∀ other, after.held other = store.held other) : Evolves schema start after := by
  refine ⟨?_, ?_, fun other => (held other).trans (evolves.held other)⟩
  · intro other
    rw [instances, ← evolves.sameClass other]
    by_cases same : other = entity
    · subst same
      exact saves.sameClass
    · rw [saves.others other same]
  · intro other column member plain notKey
    rw [instances, ← evolves.fields other column member plain notKey]
    by_cases same : other = entity
    · subst same
      have sameMetadata : (store.instances other).metadata schema =
          (start.instances other).metadata schema := by
        rw [Instance.metadata, evolves.sameClass, Instance.metadata]
      rw [← sameMetadata] at member notKey
      exact saves.fields column member plain notKey
    · rw [saves.others other same]

section Loops

variable {start : Store Value} {rest : List EntityId}

variable (schema insertIds start) in
/-- The queued entities that are still to come can be saved. -/
structure Queued (rest : List EntityId) (store : Store Value) : Prop where
  tracked : Tracked schema store
  evolves : Evolves schema start store
  queued : ∀ entity, store.session.queued.has entity = decide (entity ∈ rest)
  nodup : rest.Nodup
  savable : ∀ entity ∈ rest, store.Savable schema entity
  fresh : ∀ entity ∈ rest, inserts schema (store.instances entity) →
    Fresh schema store entity (insertIds entity)

theorem Fresh.saves {other : EntityId} {insertId : Value}
    (fresh : Fresh schema store other insertId)
    (saves : Saves schema entity store after) (different : other ≠ entity) :
    Fresh schema after other insertId := by
  refine ⟨fresh.nonzero, ?_⟩
  intro auto third differentThird sameKey
  rw [saves.others other different] at auto sameKey
  by_cases same : third = entity
  · subst same
    rcases saves.agrees with ⟨row, found, -⟩
    rw [found]
    rfl
  · rw [saves.rowKey_of_ne same] at sameKey
    rw [saves.row_of_ne same]
    exact fresh.unused auto third differentThird sameKey

theorem Savable.saves {other : EntityId} (savable : store.Savable schema other)
    (saves : Saves schema entity store after) (different : other ≠ entity) :
    after.Savable schema other := by
  rw [Savable, saves.row_of_ne different, saves.others other different]
  exact savable

theorem Queued.turn (queued : Queued schema insertIds start (entity :: rest) store)
    (flushed : store.flushQueued schema insertIds entity = some after) :
    Queued schema insertIds start rest after := by
  have inQueue : store.session.queued.has entity = true := by
    rw [queued.queued]
    exact decide_eq_true (List.mem_cons_self ..)
  have notRemoved : ¬store.session.removed.has entity = true := by
    intro removed
    rw [(queued.tracked.removed entity removed).1] at inQueue
    cases inQueue
  rcases List.nodup_cons.mp queued.nodup with ⟨notLater, nodup⟩
  simp only [flushQueued, if_neg notRemoved] at flushed
  obtain ⟨saved, savedBy, rfl⟩ := Option.map_eq_some_iff.mp flushed
  have saves := saves_of_saveEntity queued.tracked.consistent
    (queued.savable entity (List.mem_cons_self ..)) (queued.fresh entity (List.mem_cons_self ..))
    savedBy
  have inQueueAfter : ∀ other,
      ((saved.session.removeQueued entity).manage entity).queued.has other =
        (decide (other ≠ entity) && store.session.queued.has other) := by
    intro other
    simp only [Session.manage, Session.removeQueued, saves.queued, OrderedSet.has_delete]
    cases decide (other ≠ entity) <;> rfl
  have managedAfter : ∀ other,
      ((saved.session.removeQueued entity).manage entity).managed.has other =
        (decide (other = entity) || store.session.managed.has other) := by
    intro other
    simp only [Session.manage, Session.removeQueued, saves.managed, OrderedSet.has_add]
  refine ⟨⟨(saves.consistent queued.tracked.consistent).congr rfl, ?_, ?_, ?_⟩,
    queued.evolves.saves saves rfl ?_, ?_, nodup, ?_, ?_⟩
  · intro other managed
    rw [managedAfter] at managed
    by_cases same : other = entity
    · subst same
      rcases saves.agrees with ⟨row, found, -⟩
      exact Option.isSome_iff_exists.mpr ⟨row, found⟩
    · rw [decide_eq_false same, Bool.false_or] at managed
      have present := queued.tracked.managed other managed
      rw [← saves.row_of_ne same] at present
      exact present
  · intro other present
    rw [inQueueAfter, managedAfter]
    by_cases same : other = entity
    · right
      left
      rw [decide_eq_true same]
      rfl
    · have presentBefore : (store.row schema other).isSome := by
        rw [← saves.row_of_ne same]
        exact present
      rw [decide_eq_true same, decide_eq_false same, Bool.true_and, Bool.false_or]
      have removedAfter : ((saved.session.removeQueued entity).manage entity).removed =
        store.session.removed := saves.removed
      rw [removedAfter]
      exact queued.tracked.owned other presentBefore
  · intro other removed
    have removedBefore : store.session.removed.has other = true := by
      rw [← saves.removed]
      exact removed
    have different : other ≠ entity := by
      rintro rfl
      exact notRemoved removedBefore
    rw [inQueueAfter, managedAfter, decide_eq_false different, Bool.false_or,
      decide_eq_true different, Bool.true_and]
    exact queued.tracked.removed other removedBefore
  · intro other
    simp only [held, inQueueAfter, managedAfter]
    by_cases same : other = entity
    · subst same
      simp [inQueue]
    · simp [same]
  · intro other
    rw [inQueueAfter, queued.queued]
    by_cases same : other = entity
    · subst same
      simp [notLater]
    · simp [same]
  · intro other later
    have different : other ≠ entity := by
      rintro rfl
      exact notLater later
    have savable := (queued.savable other (List.mem_cons_of_mem _ later)).saves saves different
    exact savable
  · intro other later new
    have different : other ≠ entity := by
      rintro rfl
      exact notLater later
    have newBefore : inserts schema (store.instances other) = true := by
      rw [← saves.others other different]
      exact new
    have fresh := (queued.fresh other (List.mem_cons_of_mem _ later) newBefore).saves saves
      different
    exact ⟨fresh.nonzero, fresh.unused⟩

variable (schema start) in
/-- Every managed entity that is not to come has been saved. -/
structure Managed (rest : List EntityId) (store : Store Value) : Prop where
  tracked : Tracked schema store
  evolves : Evolves schema start store
  queued : ∀ entity, store.session.queued.has entity = false
  pending : ∀ entity ∈ rest, store.session.managed.has entity
  clean : ∀ entity, store.session.managed.has entity →
    entity ∈ rest ∨ (store.instances entity).Clean schema

theorem Managed.turn (managed : Managed schema start (entity :: rest) store)
    (flushed : store.flushManaged schema insertIds entity = some after) :
    Managed schema start rest after := by
  have isManaged := managed.pending entity (List.mem_cons_self ..)
  have notRemoved : store.session.removed.has entity = false := by
    by_contra removed
    rw [Bool.not_eq_false] at removed
    rw [(managed.tracked.removed entity removed).2] at isManaged
    cases isManaged
  have present := managed.tracked.managed entity isManaged
  simp only [flushManaged, managed.queued, notRemoved, Bool.or_false, if_neg Bool.false_ne_true]
    at flushed
  have saves := saves_of_saveEntity managed.tracked.consistent (.inl present)
    (fun new => by rw [managed.tracked.consistent.not_inserts present] at new; cases new) flushed
  have queuedAfter : ∀ other, after.session.queued.has other = false := by
    intro other
    rw [saves.queued, OrderedSet.has_delete, managed.queued, Bool.and_false]
  refine ⟨⟨saves.consistent managed.tracked.consistent, ?_, ?_, ?_⟩,
    managed.evolves.saves saves rfl ?_, queuedAfter, ?_, ?_⟩
  · intro other managedAfter
    rw [saves.managed] at managedAfter
    by_cases same : other = entity
    · subst same
      rcases saves.agrees with ⟨row, found, -⟩
      exact Option.isSome_iff_exists.mpr ⟨row, found⟩
    · rw [saves.row_of_ne same]
      exact managed.tracked.managed other managedAfter
  · intro other presentAfter
    rw [saves.managed, saves.removed]
    by_cases same : other = entity
    · subst same
      exact .inr (.inl isManaged)
    · rw [saves.row_of_ne same] at presentAfter
      rcases managed.tracked.owned other presentAfter with queued | others
      · rw [managed.queued] at queued
        cases queued
      · exact .inr others
  · intro other removed
    rw [saves.removed] at removed
    rw [saves.managed]
    exact ⟨queuedAfter other, (managed.tracked.removed other removed).2⟩
  · intro other
    rw [held, held, queuedAfter, saves.managed, managed.queued]
  · intro other later
    rw [saves.managed]
    exact managed.pending other (List.mem_cons_of_mem _ later)
  · intro other managedAfter
    rw [saves.managed] at managedAfter
    by_cases same : other = entity
    · subst same
      exact .inr saves.clean
    · rw [saves.others other same]
      rcases managed.clean other managedAfter with later | clean
      · rcases List.mem_cons.mp later with impossible | later
        · exact absurd impossible same
        · exact .inl later
      · exact .inr clean

variable (schema start) in
/-- Every managed entity has been saved, and every removed one that is not to come deleted. -/
structure Removed (rest : List EntityId) (store : Store Value) : Prop where
  tracked : Tracked schema store
  evolves : Evolves schema start store
  queued : ∀ entity, store.session.queued.has entity = false
  clean : ∀ entity, store.session.managed.has entity → (store.instances entity).Clean schema
  removed : ∀ entity, store.session.removed.has entity = decide (entity ∈ rest)
  nodup : rest.Nodup

theorem Removed.turn (removed : Removed schema start (entity :: rest) store)
    (flushed : store.flushRemoved schema entity = some after) :
    Removed schema start rest after := by
  rcases List.nodup_cons.mp removed.nodup with ⟨notLater, nodup⟩
  have isRemoved : store.session.removed.has entity = true := by
    rw [removed.removed]
    exact decide_eq_true (List.mem_cons_self ..)
  have notManaged := (removed.tracked.removed entity isRemoved).2
  obtain ⟨deleted, deletedBy, rfl⟩ := Option.map_eq_some_iff.mp flushed
  have deletes := deletes_of_deleteEntity removed.tracked.consistent deletedBy
  have queuedAfter : ∀ other, (deleted.session.unmanage entity).queued.has other = false := by
    intro other
    simp only [Session.unmanage, deletes.queued, OrderedSet.has_delete, removed.queued,
      Bool.and_false]
  have managedAfter : ∀ other, (deleted.session.unmanage entity).managed.has other =
      store.session.managed.has other := by
    intro other
    simp only [Session.unmanage, deletes.managed, OrderedSet.has_delete]
    by_cases same : other = entity
    · subst same
      simp [notManaged]
    · simp [same]
  have removedAfter : ∀ other, (deleted.session.unmanage entity).removed.has other =
      (decide (other ≠ entity) && store.session.removed.has other) := by
    intro other
    simp only [Session.unmanage, deletes.removed, OrderedSet.has_delete]
  refine ⟨⟨(deletes.consistent removed.tracked.consistent).congr rfl, ?_, ?_, ?_⟩, ⟨?_, ?_, ?_⟩,
    queuedAfter, ?_, ?_, nodup⟩
  · intro other managed
    rw [managedAfter] at managed
    have different : other ≠ entity := by
      rintro rfl
      rw [notManaged] at managed
      cases managed
    have present := removed.tracked.managed other managed
    rw [← deletes.rows other different] at present
    exact present
  · intro other present
    have different : other ≠ entity := by
      rintro rfl
      have absent : (deleted.row schema other).isSome = true := present
      rw [deletes.absent] at absent
      cases absent
    have presentBefore : (store.row schema other).isSome := by
      rw [← deletes.rows other different]
      exact present
    rw [managedAfter, removedAfter, decide_eq_true different, Bool.true_and]
    rcases removed.tracked.owned other presentBefore with queued | others
    · rw [removed.queued] at queued
      cases queued
    · exact .inr others
  · intro other stillRemoved
    rw [removedAfter, Bool.and_eq_true] at stillRemoved
    rw [managedAfter]
    exact ⟨queuedAfter other, (removed.tracked.removed other stillRemoved.2).2⟩
  · intro other
    rw [← removed.evolves.sameClass other, deletes.instances]
  · intro other column member plain notKey
    rw [← removed.evolves.fields other column member plain notKey, deletes.instances]
  · intro other
    rw [← removed.evolves.held other, held, held, queuedAfter, managedAfter, removed.queued]
  · intro other managed
    rw [managedAfter] at managed
    rw [deletes.instances]
    exact removed.clean other managed
  · intro other
    rw [removedAfter, removed.removed]
    by_cases same : other = entity
    · subst same
      simp [notLater]
    · simp [same]

end Loops

section

variable (tracked : Tracked schema store)
include tracked

theorem flush_effect
    (savable : ∀ entity, store.session.queued.has entity → store.Savable schema entity)
    (fresh : ∀ entity, store.session.queued.has entity →
      inserts schema (store.instances entity) → Fresh schema store entity (insertIds entity))
    (flushed : store.flush schema insertIds = some after) : Removed schema store [] after := by
  simp only [flush] at flushed
  obtain ⟨queued, queuedBy, flushedManaged⟩ := Option.bind_eq_some_iff.mp flushed
  obtain ⟨managed, managedBy, removedBy⟩ := Option.bind_eq_some_iff.mp flushedManaged
  have afterQueued : Queued schema insertIds store [] queued := by
    refine foldlM_invariant (Queued schema insertIds store)
      (fun entity rest before after invariant turn => invariant.turn turn) ?_ queuedBy
    refine ⟨tracked, .refl store, ?_, store.session.queued.nodupKeys, ?_, ?_⟩
    · intro entity
      rw [Bool.eq_iff_iff, decide_eq_true_eq, OrderedSet.mem_keys_iff_has]
    · intro entity member
      exact savable entity ((OrderedSet.mem_keys_iff_has _ _).mp member)
    · intro entity member
      exact fresh entity ((OrderedSet.mem_keys_iff_has _ _).mp member)
  have afterManaged : Managed schema store [] managed := by
    refine foldlM_invariant (Managed schema store)
      (fun entity rest before after invariant turn => invariant.turn turn) ?_ managedBy
    refine ⟨afterQueued.tracked, afterQueued.evolves, ?_, ?_, ?_⟩
    · intro entity
      rw [afterQueued.queued]
      rfl
    · intro entity member
      exact (OrderedSet.mem_keys_iff_has _ _).mp member
    · intro entity member
      exact .inl ((OrderedSet.mem_keys_iff_has _ _).mpr member)
  refine foldlM_invariant (Removed schema store)
    (fun entity rest before after invariant turn => invariant.turn turn) ?_ removedBy
  refine ⟨afterManaged.tracked, afterManaged.evolves, afterManaged.queued, ?_, ?_,
    managed.session.removed.nodupKeys⟩
  · intro entity member
    rcases afterManaged.clean entity member with impossible | clean
    · cases impossible
    · exact clean
  · intro entity
    rw [Bool.eq_iff_iff, decide_eq_true_eq, OrderedSet.mem_keys_iff_has]

theorem Tracked.add (entity : EntityId) :
    Tracked schema { store with session := store.session.add entity } := by
  refine ⟨tracked.consistent.congr rfl, tracked.managed, ?_, ?_⟩
  · intro other present
    simp only [Session.add, OrderedSet.has_add, OrderedSet.has_delete]
    by_cases same : other = entity
    · exact .inl (by simp [same])
    · simpa [same] using tracked.owned other present
  · intro other removed
    simp only [Session.add, OrderedSet.has_delete, Bool.and_eq_true, decide_eq_true_eq] at removed
    rcases removed with ⟨different, removed⟩
    simpa [Session.add, different] using tracked.removed other removed

theorem Tracked.remove (entity : EntityId) :
    Tracked schema { store with
      session := store.session.remove entity (store.instances entity).hasEntitySnapshot } := by
  have removedBefore : ∀ other, other ≠ entity →
      (store.session.remove entity (store.instances entity).hasEntitySnapshot).removed.has other =
        store.session.removed.has other := by
    intro other different
    simp only [Session.remove]
    split
    · simp [different]
    · rfl
  refine ⟨tracked.consistent.congr rfl, ?_, ?_, ?_⟩
  · intro other managed
    simp only [Session.remove, OrderedSet.has_delete, Bool.and_eq_true] at managed
    exact tracked.managed other managed.2
  · intro other present
    by_cases same : other = entity
    · subst same
      obtain ⟨row, found⟩ := Option.isSome_iff_exists.mp present
      have snapshot := (tracked.consistent.agrees other row found).1.snapshot
      right
      right
      simp [Session.remove, snapshot]
    · rw [removedBefore other same]
      simpa [Session.remove, same] using tracked.owned other present
  · intro other removed
    by_cases same : other = entity
    · subst same
      simp [Session.remove]
    · rw [removedBefore other same] at removed
      simpa [Session.remove, same] using tracked.removed other removed

theorem Tracked.change {changed : Instance Value}
    (sameClass : changed.classType = (store.instances entity).classType)
    (sameOriginal : changed.original = (store.instances entity).original)
    (sameExistence : (store.rows.get? (changed.rowKey schema)).isSome =
      (store.row schema entity).isSome)
    (agrees : ∀ row, store.rows.get? (changed.rowKey schema) = some row →
      changed.Agrees schema row ∧ changed.Addressed schema)
    (exclusive : (store.change entity changed).Exclusive schema) :
    Tracked schema (store.change entity changed) := by
  have self : (store.change entity changed).instances entity = changed :=
    Function.update_self ..
  have others : ∀ other, other ≠ entity →
      (store.change entity changed).instances other = store.instances other :=
    fun other different => Function.update_of_ne different ..
  have rowSelf : (store.change entity changed).row schema entity =
      store.rows.get? (changed.rowKey schema) := by
    rw [Store.row, rowKey, self]
    rfl
  have rowOthers : ∀ other, other ≠ entity →
      (store.change entity changed).row schema other = store.row schema other := by
    intro other different
    rw [Store.row, rowKey, others other different]
    rfl
  have existence : ∀ other, ((store.change entity changed).row schema other).isSome =
      (store.row schema other).isSome := by
    intro other
    by_cases same : other = entity
    · subst same
      rw [rowSelf, sameExistence]
    · rw [rowOthers other same]
  refine ⟨⟨?_, exclusive, ?_⟩, ?_, ?_, tracked.removed⟩
  · intro other row found
    by_cases same : other = entity
    · subst same
      rw [self]
      exact agrees row (rowSelf.symm.trans found)
    · rw [rowOthers other same] at found
      rw [others other same]
      exact tracked.consistent.agrees other row found
  · intro other item stored
    have entry := tracked.consistent.recorded other item stored
    by_cases same : other = entity
    · subst same
      refine ⟨?_, ?_, ?_⟩
      · rw [self, sameClass]
        exact entry.sameClass
      · rw [existence]
        exact entry.exists_
      · intro last recorded column member
        rw [self] at member ⊢
        rw [Instance.metadata, sameClass] at member
        rw [sameOriginal]
        exact entry.fields last recorded column member
    · refine ⟨?_, ?_, ?_⟩
      · rw [others other same]
        exact entry.sameClass
      · rw [existence]
        exact entry.exists_
      · rw [others other same]
        exact entry.fields
  · intro other managed
    rw [existence]
    exact tracked.managed other managed
  · intro other present
    rw [existence] at present
    exact tracked.owned other present

theorem Tracked.assign {property : String} {value : FieldValue Value}
    (faithful : store.Faithful schema (.assign entity property value))
    (exclusive : (store.change entity
      ((store.instances entity).set property value)).Exclusive schema) :
    Tracked schema (store.change entity ((store.instances entity).set property value)) := by
  by_cases key : ∃ column ∈ ((store.instances entity).metadata schema).primaryKeys,
    column.propertyName = property
  · rcases faithful key with ⟨absent, absentAfter⟩
    refine tracked.change rfl rfl ?_ ?_ exclusive
    · rw [absent, absentAfter]
    · intro row found
      rw [absentAfter] at found
      cases found
  · have kept : ∀ column ∈ ((store.instances entity).metadata schema).primaryKeys,
        ((store.instances entity).set property value).field column =
          (store.instances entity).field column := by
      intro column member
      exact Instance.field_set_of_ne value fun same => key ⟨column, member, same⟩
    have sameKey : ((store.instances entity).set property value).rowKey schema =
        store.rowKey schema entity := Instance.rowKey_congr rfl kept
    refine tracked.change rfl rfl (by rw [sameKey]; rfl) ?_ exclusive
    intro row found
    rw [sameKey] at found
    obtain ⟨agrees, addressed⟩ := tracked.consistent.agrees entity row found
    refine ⟨⟨agrees.columns, ?_, ?_, agrees.snapshot⟩, ?_, ?_⟩
    · intro column member
      rw [kept column member]
      exact agrees.key column member
    · intro column member
      rw [kept column member]
      exact agrees.keyRow column member
    · intro column member
      rw [kept column member]
      exact addressed.1 column member
    · intro auto
      have first := kept _ Instance.primaryKey_mem
      have sentinel := addressed.2 auto
      rw [← first] at sentinel
      exact sentinel

end

end Invariant

section Runs

variable {schema} {loaded : EntityId → Bool} {calls : List (SessionCall Value)}
  {before after : Store Value}

theorem tracked_of_run
    (run : ((unitOfWork schema loaded).restrict (Faithful schema)).Run calls before) :
    Tracked schema before ∧ ∀ entity, before.held entity = wanted loaded entity calls := by
  induction run with
  | start initial =>
      refine ⟨⟨initial.consistent, ?_, ?_, ?_⟩, ?_⟩
      · intro entity managed
        rw [initial.rows, ← initial.managed]
        exact managed
      · intro entity present
        rw [initial.rows, ← initial.managed] at present
        exact .inr (.inl present)
      · intro entity removed
        rw [initial.removed] at removed
        cases removed
      · intro entity
        rw [held, initial.queued, initial.managed]
        rfl
  | @step calls call before after run taken ih =>
      rcases ih with ⟨tracked, holds⟩
      rcases taken with ⟨faithful, called, exclusive, fresh⟩
      cases call with
      | add added =>
          cases called
          refine ⟨tracked.add added, ?_⟩
          intro entity
          rw [wanted_concat, ← holds entity]
          by_cases same : added = entity
          · simp [held, Session.add, same]
          · simp [held, Session.add, same, Ne.symm same]
      | remove removed =>
          cases called
          refine ⟨tracked.remove removed, ?_⟩
          intro entity
          rw [wanted_concat, ← holds entity]
          by_cases same : removed = entity
          · simp [held, Session.remove, same]
          · simp [held, Session.remove, same, Ne.symm same]
      | assign entity property value =>
          cases called
          refine ⟨tracked.assign faithful exclusive, ?_⟩
          intro other
          rw [wanted_concat, ← holds other]
          rfl
      | flush insertIds =>
          have effect := flush_effect tracked faithful (fresh insertIds rfl) called
          refine ⟨effect.tracked, ?_⟩
          intro entity
          rw [wanted_concat, ← holds entity]
          exact effect.evolves.held entity

/-- After every flush of a faithful run the rows that exist are those of the wanted entities, and
hold their fields. -/
theorem flush_keeps_rows {insertIds : EntityId → Value}
    (run : ((unitOfWork schema loaded).restrict (Faithful schema)).Run calls before)
    (flushed : ((unitOfWork schema loaded).restrict (Faithful schema)).Step before
      (.flush insertIds) after) (entity : EntityId) :
    ((after.row schema entity).isSome ↔ wanted loaded entity calls) ∧
      ∀ row, after.row schema entity = some row →
        ∀ column ∈ ((before.instances entity).metadata schema).columns, column.generated = false →
          column ∉ ((before.instances entity).metadata schema).primaryKeys →
            read (some row) column.propertyName =
                ((before.instances entity).field column).stored ∧
              read (some row) column.propertyName =
                ((after.instances entity).field column).stored := by
  obtain ⟨tracked, holds⟩ := tracked_of_run run
  rcases flushed with ⟨faithful, taken, -, fresh⟩
  have effect := flush_effect tracked faithful (fresh insertIds rfl) taken
  have managed : after.session.managed.has entity = wanted loaded entity calls := by
    rw [← holds entity, ← effect.evolves.held entity, held, effect.queued, Bool.false_or]
  have owned : (after.row schema entity).isSome → after.session.managed.has entity := by
    intro present
    rcases effect.tracked.owned entity present with queued | managed | removed
    · rw [effect.queued] at queued
      cases queued
    · exact managed
    · rw [effect.removed] at removed
      cases removed
  rw [← managed]
  refine ⟨⟨owned, effect.tracked.managed entity⟩, ?_⟩
  intro row found column member plain notKey
  have clean := effect.clean entity (owned (by rw [found]; rfl))
  have agrees := (effect.tracked.consistent.agrees entity row found).1
  have sameMetadata : (after.instances entity).metadata schema =
      (before.instances entity).metadata schema := by
    rw [Instance.metadata, effect.evolves.sameClass, Instance.metadata]
  have current : read (some row) column.propertyName =
      ((after.instances entity).field column).stored := by
    rw [← sameMetadata] at member
    rw [agrees.columns column member plain, clean.read_original member]
  exact ⟨current.trans (effect.evolves.fields entity column member plain notKey), current⟩

end Runs

section Samples

/-- A class with a generated key and one field. -/
def userMetadata (classType : String) : EntityMetadata :=
  let id : ColumnMetadata := ⟨"id", true, true, false, false⟩
  { classType
    columns := [id, ⟨"name", false, false, false, false⟩]
    primaryKeys := [id]
    primaryKey := id }

/-- A schema with one class of users. -/
def userSchema : Schema ℕ where
  getEntityMetadata := userMetadata
  hasMutationInterceptorFor _ := false
  computed _ _ _ := .null
  classType_eq _ := rfl
  wellFormed _ :=
    { names := by simp [userMetadata]
      keyColumns := by simp [userMetadata]
      first := rfl
      flagged := by simp [userMetadata]
      plainKeys := by simp [userMetadata] }

/-- A new entity. -/
def newUser : Instance ℕ :=
  ⟨"User", fun property => if property = "name" then .value 7 else .value 0, none⟩

/-- A session that has loaded nothing. -/
def newUsers : Store ℕ := ⟨fun _ => newUser, .empty false, .empty⟩

/-- The store after some calls. -/
def afterCalls (calls : List (SessionCall ℕ)) : Store ℕ :=
  calls.foldl (fun store call => (store.call userSchema call).getD store) newUsers

theorem afterCalls_concat {calls : List (SessionCall ℕ)} {call : SessionCall ℕ}
    (completed : ((afterCalls calls).call userSchema call).isSome) :
    (afterCalls calls).call userSchema call = some (afterCalls (calls ++ [call])) := by
  obtain ⟨after, called⟩ := Option.isSome_iff_exists.mp completed
  rw [called, afterCalls, List.foldl_append]
  exact congrArg some (congrArg (Option.getD · _) called).symm

/-- Only the first user has been changed. -/
def OnlyFirst (instances : EntityId → Instance ℕ) : Prop :=
  ∀ entity, entity ≠ 0 → instances entity = newUser

theorem OnlyFirst.new : OnlyFirst fun _ => newUser := fun _ _ => rfl

theorem OnlyFirst.update {instances : EntityId → Instance ℕ} (onlyFirst : OnlyFirst instances)
    (changed : Instance ℕ) : OnlyFirst (Function.update instances 0 changed) := by
  intro entity different
  rw [Function.update_of_ne different]
  exact onlyFirst entity different

theorem OnlyFirst.exclusive {store : Store ℕ} (onlyFirst : OnlyFirst store.instances) :
    store.Exclusive userSchema := by
  have unaddressed : ¬newUser.Addressed userSchema := fun addressed => by
    have sentinel := addressed.2 rfl
    revert sentinel
    decide
  intro entity other different addressed same
  by_cases first : entity = 0
  · subst first
    have otherNew := onlyFirst other different.symm
    rw [rowKey, rowKey, otherNew] at same
    have key : (store.instances 0).field (userMetadata "User").primaryKey =
        newUser.field (userMetadata "User").primaryKey :=
      Instance.field_of_rowKey_eq same Instance.primaryKey_mem
    have sentinel := addressed.2 rfl
    have value : (store.instances 0).field
      ((store.instances 0).metadata userSchema).primaryKey = .value 0 := key
    rw [value] at sentinel
    revert sentinel
    decide
  · rw [onlyFirst entity first] at addressed
    exact unaddressed addressed

theorem OnlyFirst.fresh {store : Store ℕ} (onlyFirst : OnlyFirst store.instances) :
    Fresh userSchema store 0 1 := by
  refine ⟨by decide, ?_⟩
  intro _ other different same
  rw [rowKey, onlyFirst other different] at same
  have key : newUser.field (userMetadata "User").primaryKey = .value 1 :=
    Instance.field_of_rowKey_eq same Instance.primaryKey_mem
  exact absurd key (by decide)

/-- A call about the first user. -/
def aboutFirst : SessionCall ℕ → Bool
  | .add entity | .remove entity | .assign entity _ _ => entity = 0
  | .flush insertIds => insertIds 0 = 1

theorem step_afterCalls {calls : List (SessionCall ℕ)} {call : SessionCall ℕ}
    (completed : ((afterCalls calls).call userSchema call).isSome)
    (queued : (afterCalls calls).session.queued.keys ⊆ [0]) (first : aboutFirst call)
    (onlyFirst : OnlyFirst (afterCalls calls).instances)
    (onlyFirstAfter : OnlyFirst (afterCalls (calls ++ [call])).instances) :
    (unitOfWork userSchema fun _ => false).Step (afterCalls calls) call
      (afterCalls (calls ++ [call])) := by
  refine ⟨afterCalls_concat completed, onlyFirstAfter.exclusive, ?_⟩
  rintro insertIds rfl entity isQueued -
  have isFirst := queued ((OrderedSet.mem_keys_iff_has _ _).mpr isQueued)
  rw [List.mem_singleton] at isFirst
  subst isFirst
  have generated : insertIds 0 = 1 := of_decide_eq_true first
  rw [generated]
  exact onlyFirst.fresh

theorem starts_newUsers : Starts userSchema (fun _ => false) newUsers := by
  have onlyFirst : OnlyFirst newUsers.instances := .new
  refine ⟨⟨?_, onlyFirst.exclusive, ?_⟩, fun _ => rfl, fun _ => rfl, fun _ => rfl, fun _ => rfl,
    fun _ _ => rfl⟩
  · intro entity row found
    cases found
  · intro entity item stored
    cases stored

theorem insertable_newUser : Insertable userSchema newUser := by
  refine ⟨?_, ?_⟩
  · intro column member hasDefault
    rcases List.mem_pair.mp member with rfl | rfl <;> cases hasDefault
  · intro column member _
    exact List.mem_singleton.mp member

/-- A user is added and flushed, and then renamed. -/
def renamingCalls : List (SessionCall ℕ) :=
  [.add 0, .flush fun _ => 1, .assign 0 "name" (.value 8)]

theorem flush_keeps_rows_sample :
    ((afterCalls (renamingCalls ++ [.flush fun _ => 1])).row userSchema 0).isSome ∧
      ∀ row, (afterCalls (renamingCalls ++ [.flush fun _ => 1])).row userSchema 0 = some row →
        read (some row) "name" = .value 8 := by
  have added : OnlyFirst (afterCalls [.add 0]).instances := .new
  have inserted : OnlyFirst (afterCalls [.add 0, .flush fun _ => 1]).instances :=
    ((OnlyFirst.new.update _).update _).update _
  have renamed : OnlyFirst (afterCalls renamingCalls).instances := inserted.update _
  have updated : OnlyFirst (afterCalls (renamingCalls ++ [.flush fun _ => 1])).instances :=
    (renamed.update _).update _
  have queuedFirst : ∀ entity, (afterCalls [.add 0]).session.queued.has entity →
      (afterCalls [.add 0]).Savable userSchema entity := by
    intro entity queued
    have first : entity ∈ [0] := (OrderedSet.mem_keys_iff_has _ _).mpr queued
    rw [List.mem_singleton] at first
    subst first
    exact .inr ⟨by decide, insertable_newUser⟩
  have nothingQueued : ∀ entity, ¬(afterCalls renamingCalls).session.queued.has entity := by
    intro entity queued
    have impossible : entity ∈ [] := (OrderedSet.mem_keys_iff_has _ _).mpr queued
    exact List.not_mem_nil impossible
  have plainField : (afterCalls [.add 0, .flush fun _ => 1]).Faithful userSchema
      (.assign 0 "name" (.value 8)) := by
    rintro ⟨column, member, isKey⟩
    rw [List.mem_singleton.mp member] at isKey
    exact absurd isKey (by decide)
  have runAdded : ((unitOfWork userSchema fun _ => false).restrict (Faithful userSchema)).Run
      [.add 0] (afterCalls [.add 0]) :=
    (TransitionSystem.Run.start starts_newUsers : TransitionSystem.Run _ [] (afterCalls [])).step
      ⟨trivial, step_afterCalls (by decide) (by decide) (by decide) .new added⟩
  have runInserted : ((unitOfWork userSchema fun _ => false).restrict (Faithful userSchema)).Run
      [.add 0, .flush fun _ => 1] (afterCalls [.add 0, .flush fun _ => 1]) :=
    runAdded.step ⟨queuedFirst,
      step_afterCalls (by decide +kernel) (by decide +kernel) (by decide) added inserted⟩
  have run : ((unitOfWork userSchema fun _ => false).restrict (Faithful userSchema)).Run
      renamingCalls (afterCalls renamingCalls) :=
    runInserted.step ⟨plainField,
      step_afterCalls (by decide +kernel) (by decide +kernel) (by decide) inserted renamed⟩
  have kept := flush_keeps_rows run
    ⟨fun entity queued => absurd queued (nothingQueued entity),
      step_afterCalls (by decide +kernel) (by decide +kernel) (by decide) renamed updated⟩ 0
  refine ⟨kept.1.mpr (by decide), ?_⟩
  intro row found
  exact (kept.2 row found ⟨"name", false, false, false, false⟩ (by decide) rfl (by decide)).1

/-- A user is added and flushed, removed and flushed, and added again. -/
def readdingCalls : List (SessionCall ℕ) :=
  [.add 0, .flush fun _ => 1, .remove 0, .flush fun _ => 1, .add 0]

theorem flush_loses_readded :
    ∃ before after : Store ℕ, (unitOfWork userSchema fun _ => false).Run readdingCalls before ∧
      (unitOfWork userSchema fun _ => false).Step before (.flush fun _ => 1) after ∧
      wanted (fun _ => false) 0 readdingCalls ∧ after.row userSchema 0 = none := by
  have added : OnlyFirst (afterCalls [.add 0]).instances := .new
  have inserted : OnlyFirst (afterCalls [.add 0, .flush fun _ => 1]).instances :=
    ((OnlyFirst.new.update _).update _).update _
  have removed : OnlyFirst (afterCalls [.add 0, .flush fun _ => 1, .remove 0]).instances := inserted
  have deleted : OnlyFirst
      (afterCalls [.add 0, .flush fun _ => 1, .remove 0, .flush fun _ => 1]).instances := inserted
  have readded : OnlyFirst (afterCalls readdingCalls).instances := inserted
  have flushed : OnlyFirst (afterCalls (readdingCalls ++ [.flush fun _ => 1])).instances :=
    (readded.update _).update _
  have runAdded : (unitOfWork userSchema fun _ => false).Run [.add 0] (afterCalls [.add 0]) :=
    (TransitionSystem.Run.start starts_newUsers : TransitionSystem.Run _ [] (afterCalls [])).step
      (step_afterCalls (by decide) (by decide) (by decide) .new added)
  have runInserted : (unitOfWork userSchema fun _ => false).Run
      [.add 0, .flush fun _ => 1] (afterCalls [.add 0, .flush fun _ => 1]) :=
    runAdded.step
      (step_afterCalls (by decide +kernel) (by decide +kernel) (by decide) added inserted)
  have runRemoved : (unitOfWork userSchema fun _ => false).Run
      [.add 0, .flush fun _ => 1, .remove 0]
      (afterCalls [.add 0, .flush fun _ => 1, .remove 0]) :=
    runInserted.step
      (step_afterCalls (by decide +kernel) (by decide +kernel) (by decide) inserted removed)
  have runDeleted : (unitOfWork userSchema fun _ => false).Run
      [.add 0, .flush fun _ => 1, .remove 0, .flush fun _ => 1]
      (afterCalls [.add 0, .flush fun _ => 1, .remove 0, .flush fun _ => 1]) :=
    runRemoved.step
      (step_afterCalls (by decide +kernel) (by decide +kernel) (by decide) removed deleted)
  refine ⟨afterCalls readdingCalls, afterCalls (readdingCalls ++ [.flush fun _ => 1]),
    runDeleted.step
      (step_afterCalls (by decide +kernel) (by decide +kernel) (by decide) deleted readded),
    step_afterCalls (by decide +kernel) (by decide +kernel) (by decide) readded flushed,
    by decide, by decide +kernel⟩

end Samples

end Store

end ServerFoundation.Database
