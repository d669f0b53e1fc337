import ServerFoundation.Data.JsObject
import ServerFoundation.Data.TransitionSystem

/-!
# Accumulated mutations

`DatabaseMutationAccumulator` collects what a transaction does to entities, so that
commit interceptors see one net change for each row. Pending entries are keyed by
the entity instance, and an instance that has none of its own takes over the entry
of another instance with the same class and primary key. A checkpoint is a copy of
the accumulator, and restoring one forgets everything recorded since.

Field values are compared with `isDeepStrictEqual`. Here they are `undefined`, `null`
or a value of an arbitrary type whose equality stands for it; the order of the
properties of a snapshot does not count. Copies made by `cloneRecord` are equal to
what they copy.
-/

namespace ServerFoundation.Database

/-- The identity of an entity object. -/
abbrev EntityId := ℕ

/-- A property value. -/
inductive FieldValue (Value : Type) where
  | undefined
  | null
  | value (value : Value)
deriving DecidableEq, Repr

/-- `ColumnMetadata`. -/
structure ColumnMetadata where
  propertyName : String
  primaryKey : Bool
  autoIncrement : Bool
  hasDefault : Bool
  generated : Bool
deriving DecidableEq, Repr

/-- `EntityMetadata`, with the class by its name. -/
structure EntityMetadata where
  classType : String
  columns : List ColumnMetadata
  primaryKeys : List ColumnMetadata
  primaryKey : ColumnMetadata
deriving DecidableEq, Repr

/-- `DatabaseEntitySnapshot`. -/
abbrev Snapshot (Value : Type) := JsObject (FieldValue Value)

variable {Value : Type}

/-- `snapshot?.[key]`. -/
def read (snapshot : Option (Snapshot Value)) (key : String) : FieldValue Value :=
  (snapshot.bind (·.get? key)).getD .undefined

/-- `Object.keys(snapshot ?? {})`. -/
def fieldsOf (snapshot : Option (Snapshot Value)) : List String :=
  ((snapshot.map JsObject.ownEntries).getD []).map Prod.fst

/-- `DatabaseEntityMutationOperation`. -/
inductive EntityMutationOperation where
  | create
  | update
  | delete
deriving DecidableEq, Repr

/-- `DatabaseEntityMutation`. -/
structure EntityMutation (Value : Type) where
  operation : EntityMutationOperation
  entity : EntityId
  metadata : EntityMetadata
  before : Option (Snapshot Value)
  after : Option (Snapshot Value)
  changedFields : List String

/-- `DatabaseQueryMutationOperation`. -/
inductive QueryMutationOperation where
  | update
  | delete
deriving DecidableEq, Repr

/-- `DatabaseQueryMutation`. -/
structure QueryMutation (Value : Type) where
  operation : QueryMutationOperation
  metadata : EntityMetadata
  primaryKeys : List (Snapshot Value)
  before : List (Snapshot Value)
  changedFields : List String
  patch : Option (Snapshot Value)

/-- `DatabaseMutation`. -/
inductive Mutation (Value : Type) where
  | entity (mutation : EntityMutation Value)
  | query (mutation : QueryMutation Value)

/-- `PendingEntityMutation`. -/
structure PendingEntityMutation (Value : Type) where
  sequence : ℕ
  entity : EntityId
  metadata : EntityMetadata
  primaryKeys : List (FieldValue Value)
  before : Option (Snapshot Value)
  after : Option (Snapshot Value)

/-- `PendingQueryMutation`. -/
structure PendingQueryMutation (Value : Type) where
  sequence : ℕ
  mutation : QueryMutation Value

/-- `DatabaseMutationAccumulator`, and also its checkpoints. -/
structure Accumulator (Value : Type) where
  entityMutations : OrderedMap EntityId (PendingEntityMutation Value)
  queryMutations : List (PendingQueryMutation Value)
  nextSequence : ℕ

/-- `getPrimaryKeyValues`: the values of a complete primary key, or none. -/
def getPrimaryKeyValues (metadata : EntityMetadata) (snapshot : Option (Snapshot Value)) :
    List (FieldValue Value) :=
  match snapshot with
  | none => []
  | some _ =>
      let values := metadata.primaryKeys.map fun column => read snapshot column.propertyName
      if values.all fun
        | .value _ => true
        | _ => false
      then values else []

variable [DecidableEq Value]

/-- `isDeepStrictEqual` on two snapshots. -/
def Snapshot.deepEqual (first second : Snapshot Value) : Bool :=
  (first.keys ++ second.keys).all fun key => first.get? key = second.get? key

/-- `getChangedFields`. -/
def getChangedFields (before after : Option (Snapshot Value)) : List String :=
  (fieldsOf before ++ (fieldsOf after).filter (· ∉ fieldsOf before)).filter fun key =>
    read before key ≠ read after key

/-- `createEntityMutation`. -/
def createEntityMutation (pending : PendingEntityMutation Value) : Option (EntityMutation Value) :=
  let mutation (operation : EntityMutationOperation) : EntityMutation Value :=
    { operation
      entity := pending.entity
      metadata := pending.metadata
      before := pending.before
      after := pending.after
      changedFields := getChangedFields pending.before pending.after }
  match pending.before, pending.after with
  | some before, some after => if before.deepEqual after then none else some (mutation .update)
  | none, _ => some (mutation .create)
  | some _, none => some (mutation .delete)

theorem createEntityMutation_some {pending : PendingEntityMutation Value}
    {mutation : EntityMutation Value} (created : createEntityMutation pending = some mutation) :
    mutation.entity = pending.entity ∧ mutation.metadata = pending.metadata ∧
      mutation.before = pending.before ∧ mutation.after = pending.after := by
  unfold createEntityMutation at created
  split at created
  · split at created
    · cases created
    · cases created
      exact ⟨rfl, rfl, rfl, rfl⟩
  · cases created
    exact ⟨rfl, rfl, rfl, rfl⟩
  · cases created
    exact ⟨rfl, rfl, rfl, rfl⟩

namespace Accumulator

variable (accumulator : Accumulator Value)

/-- An accumulator without mutations. -/
def empty : Accumulator Value := ⟨.empty, [], 1⟩

/-- The entry that `recordEntity` continues, with the instance it is stored under. -/
def existingEntry (entity : EntityId) (metadata : EntityMetadata)
    (primaryKeys : List (FieldValue Value)) : Option (EntityId × PendingEntityMutation Value) :=
  match accumulator.entityMutations.get? entity with
  | some pending => some (entity, pending)
  | none =>
      accumulator.entityMutations.entries.find? fun entry =>
        entry.2.metadata.classType = metadata.classType ∧ primaryKeys ≠ [] ∧
          entry.2.primaryKeys = primaryKeys

/-- The entry that `recordEntity` makes. -/
def pendingEntry (entity : EntityId) (metadata : EntityMetadata)
    (before after : Option (Snapshot Value)) : PendingEntityMutation Value :=
  let primaryKeys := getPrimaryKeyValues metadata (after.or before)
  let existing := accumulator.existingEntry entity metadata primaryKeys
  { sequence := (existing.map (·.2.sequence)).getD accumulator.nextSequence
    entity
    metadata
    primaryKeys
    before := (existing.map (·.2.before)).getD before
    after }

omit [DecidableEq Value] in
/-- The entries without one that moves to another instance. -/
def remainingEntries (entity : EntityId)
    (existing : Option (EntityId × PendingEntityMutation Value)) :
    OrderedMap EntityId (PendingEntityMutation Value) :=
  match existing with
  | some (other, _) =>
      if other ≠ entity then accumulator.entityMutations.erase other
      else accumulator.entityMutations
  | none => accumulator.entityMutations

/-- `recordEntity`. -/
def recordEntity (entity : EntityId) (metadata : EntityMetadata)
    (before after : Option (Snapshot Value)) : Accumulator Value :=
  let primaryKeys := getPrimaryKeyValues metadata (after.or before)
  let existing := accumulator.existingEntry entity metadata primaryKeys
  let pending := accumulator.pendingEntry entity metadata before after
  let others := accumulator.remainingEntries entity existing
  { accumulator with
    entityMutations :=
      if pending.before.isNone ∧ pending.after.isNone then others.erase entity
      else others.set entity pending
    nextSequence :=
      if existing.isSome then accumulator.nextSequence else accumulator.nextSequence + 1 }

omit [DecidableEq Value] in
/-- `recordQuery`. -/
def recordQuery (mutation : QueryMutation Value) : Accumulator Value :=
  { accumulator with
    queryMutations := accumulator.queryMutations ++ [⟨accumulator.nextSequence, mutation⟩]
    nextSequence := accumulator.nextSequence + 1 }

/-- The mutations with their sequence numbers, before they are sorted. -/
def numberedMutations : List (ℕ × Mutation Value) :=
  accumulator.queryMutations.map (fun item => (item.sequence, .query item.mutation)) ++
    accumulator.entityMutations.entries.filterMap fun entry =>
      (createEntityMutation entry.2).map fun mutation => (entry.2.sequence, .entity mutation)

/-- `getMutations`. -/
def getMutations : List (Mutation Value) :=
  (sortOn Prod.fst accumulator.numberedMutations).map Prod.snd

theorem mem_getMutations_iff {accumulator : Accumulator Value} {mutation : EntityMutation Value} :
    .entity mutation ∈ accumulator.getMutations ↔
      ∃ entity item, accumulator.entityMutations.get? entity = some item ∧
        createEntityMutation item = some mutation := by
  rw [getMutations, List.mem_map]
  constructor
  · rintro ⟨⟨sequence, found⟩, member, rfl⟩
    rw [(sortOn_perm _ _).mem_iff, numberedMutations, List.mem_append] at member
    rcases member with query | entry
    · rcases List.mem_map.mp query with ⟨item, -, impossible⟩
      cases impossible
    · rcases List.mem_filterMap.mp entry with ⟨⟨entity, item⟩, stored, made⟩
      rcases Option.map_eq_some_iff.mp made with ⟨created, creates, same⟩
      cases same
      exact ⟨entity, item, (OrderedMap.get?_eq_some_iff _ _ _).mpr stored, creates⟩
  · rintro ⟨entity, item, stored, creates⟩
    refine ⟨(item.sequence, .entity mutation), ?_, rfl⟩
    rw [(sortOn_perm _ _).mem_iff, numberedMutations, List.mem_append]
    right
    rw [List.mem_filterMap]
    refine ⟨(entity, item), (OrderedMap.get?_eq_some_iff _ _ _).mp stored, ?_⟩
    rw [creates]
    rfl

theorem get?_recordEntity {entity other : EntityId} {metadata : EntityMetadata}
    {before after : Option (Snapshot Value)} {item : PendingEntityMutation Value}
    (stored : (accumulator.recordEntity entity metadata before after).entityMutations.get? other =
      some item) :
    (other = entity ∧ item.metadata = metadata ∧ item.after = after) ∨
      (other ≠ entity ∧ accumulator.entityMutations.get? other = some item) := by
  have kept : ∀ existing, (accumulator.remainingEntries entity existing).get? other = some item →
      accumulator.entityMutations.get? other = some item := by
    intro existing remaining
    unfold remainingEntries at remaining
    split at remaining
    · split at remaining
      · rw [OrderedMap.get?_erase, Option.ite_none_left_eq_some] at remaining
        exact remaining.2
      · exact remaining
    · exact remaining
  simp only [recordEntity] at stored
  by_cases same : other = entity
  · left
    split at stored
    · rw [OrderedMap.get?_erase, if_pos same] at stored
      cases stored
    · rw [OrderedMap.get?_set, if_pos same] at stored
      cases stored
      exact ⟨same, rfl, rfl⟩
  · right
    refine ⟨same, ?_⟩
    split at stored
    · rw [OrderedMap.get?_erase, if_neg same] at stored
      exact kept _ stored
    · rw [OrderedMap.get?_set, if_neg same] at stored
      exact kept _ stored

end Accumulator

end ServerFoundation.Database
