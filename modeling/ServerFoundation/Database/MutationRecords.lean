import Mathlib.Data.List.Induction
import ServerFoundation.Database.NetMutations

/-!
# The accumulator records its history

An accumulator is in step with a history when its entries summarize the pending rows
of the history and its numbers count what took a number. Recording keeps it in step,
and restoring a checkpoint brings back the pair that was saved. Therefore every
accumulator that recorded consistent calls reports the net mutations of what has not
been undone.
-/

namespace ServerFoundation.Database

variable {Value : Type} [DecidableEq Value]

/-- The accumulator has recorded a history. -/
structure Records (accumulator : Accumulator Value) (history : History Value) : Prop where
  nextSequence : accumulator.nextSequence = history.sequenceAt history.length
  queries : accumulator.queryMutations = history.pendingQueries
  summarized : ∀ entity item, accumulator.entityMutations.get? entity = some item →
    item.entity = entity ∧ ∃ position last, history.Summarizes item position last
  complete : ∀ row, history.Pending row →
    ∃ entity item, accumulator.entityMutations.get? entity = some item ∧ item.row = row

namespace Records

open History

variable {accumulator : Accumulator Value} {history : History Value}
  {item : PendingEntityMutation Value} {call : EntityCall Value} {position : ℕ}
  {mutation : Mutation Value}

theorem empty : Records (.empty : Accumulator Value) [] := by
  constructor
  case nextSequence => rfl
  case queries => rfl
  case summarized =>
    intro entity item stored
    cases stored
  case complete =>
    intro row pending
    simp [Pending, firstBefore, lastAfter, calls] at pending

theorem row_unique (records : Records accumulator history) {first second : EntityId}
    {other : PendingEntityMutation Value}
    (stored : accumulator.entityMutations.get? first = some item)
    (storedToo : accumulator.entityMutations.get? second = some other)
    (sameRow : item.row = other.row) : item = other := by
  rcases records.summarized first item stored with ⟨-, position, last, summarizes⟩
  rcases records.summarized second other storedToo with ⟨-, otherPosition, otherLast, too⟩
  exact summarizes.unique too sameRow

theorem row_of_instance (records : Records accumulator history) (fits : Fits history call)
    (stored : accumulator.entityMutations.get? call.entity = some item) : item.row = call.row := by
  rcases records.summarized _ item stored with ⟨owner, position, last, summarizes⟩
  rcases summarizes.recorded with ⟨recorded, lastRow⟩
  rw [← lastRow]
  exact fits.instance_ last recorded (summarizes.entity.symm.trans owner)

omit [DecidableEq Value] in
theorem rowOf_eq_keyed_iff (entity : EntityId) (metadata : EntityMetadata)
    {keys : List (FieldValue Value)} (complete : keys ≠ []) (item : PendingEntityMutation Value) :
    item.row = rowOf entity metadata keys ↔
      item.metadata.classType = metadata.classType ∧ item.primaryKeys = keys := by
  unfold PendingEntityMutation.row
  cases keys with
  | nil => exact absurd rfl complete
  | cons value rest =>
      cases itemKeys : item.primaryKeys with
      | nil => simp [rowOf]
      | cons itemValue itemRest => simp [rowOf]

theorem existingEntry_some (records : Records accumulator history) (fits : Fits history call)
    {owner : EntityId}
    (found : accumulator.existingEntry call.entity call.metadata call.primaryKeys =
      some (owner, item)) :
    accumulator.entityMutations.get? owner = some item ∧ item.row = call.row := by
  unfold Accumulator.existingEntry at found
  cases own : accumulator.entityMutations.get? call.entity with
  | some stored =>
      simp only [own, Option.some.injEq, Prod.mk.injEq] at found
      rcases found with ⟨rfl, rfl⟩
      exact ⟨own, records.row_of_instance fits own⟩
  | none =>
      simp only [own] at found
      have member := List.mem_of_find?_eq_some found
      have test := List.find?_some found
      simp only [decide_eq_true_eq] at test
      rcases test with ⟨sameClass, complete, sameKeys⟩
      refine ⟨(accumulator.entityMutations.get?_eq_some_iff _ _).mpr member, ?_⟩
      exact (rowOf_eq_keyed_iff call.entity call.metadata complete item).mpr ⟨sameClass, sameKeys⟩

theorem existingEntry_none (records : Records accumulator history)
    (found : accumulator.existingEntry call.entity call.metadata call.primaryKeys = none)
    {owner : EntityId} (stored : accumulator.entityMutations.get? owner = some item) :
    item.row ≠ call.row := by
  intro sameRow
  unfold Accumulator.existingEntry at found
  cases own : accumulator.entityMutations.get? call.entity with
  | some other => simp [own] at found
  | none =>
      simp only [own, List.find?_eq_none, decide_eq_true_eq] at found
      have missed := found (owner, item)
        ((accumulator.entityMutations.get?_eq_some_iff _ _).mp stored)
      cases keys : call.primaryKeys with
      | nil =>
          have unkeyed : item.row = .unkeyed call.entity := by
            rw [sameRow, EntityCall.row, keys, rowOf]
          have sameEntity : item.entity = call.entity := by
            unfold PendingEntityMutation.row at unkeyed
            cases itemKeys : item.primaryKeys with
            | nil => simpa [itemKeys, rowOf] using unkeyed
            | cons value rest => simp [itemKeys, rowOf] at unkeyed
          have owned := (records.summarized owner item stored).1
          rw [← owned, sameEntity, own] at stored
          cases stored
      | cons value rest =>
          have complete : call.primaryKeys ≠ [] := by simp [keys]
          have matched := (rowOf_eq_keyed_iff call.entity call.metadata complete item).mp sameRow
          exact missed ⟨matched.1, complete, matched.2⟩

section Calls

variable {call : EntityCall Value}

omit [DecidableEq Value] in
theorem get?_remainingEntries (accumulator : Accumulator Value) (entity owner : EntityId)
    (existing : Option (EntityId × PendingEntityMutation Value)) (other : owner ≠ entity) :
    (accumulator.remainingEntries entity existing).get? owner =
      match existing with
      | some (holder, _) => if holder = owner then none else accumulator.entityMutations.get? owner
      | none => accumulator.entityMutations.get? owner := by
  rcases existing with _ | ⟨holder, old⟩
  · rfl
  · simp only [Accumulator.remainingEntries]
    by_cases moved : holder = entity
    · subst moved
      rw [if_neg (not_not.mpr rfl), if_neg other.symm]
    · rw [if_pos moved, OrderedMap.get?_erase]
      simp only [eq_comm]

theorem get?_recordEntity_other (records : Records accumulator history) (fits : Fits history call)
    {owner : EntityId} (other : owner ≠ call.entity) (item : PendingEntityMutation Value) :
    (call.record accumulator).entityMutations.get? owner = some item ↔
      accumulator.entityMutations.get? owner = some item ∧ item.row ≠ call.row := by
  have kept : (call.record accumulator).entityMutations.get? owner =
      (accumulator.remainingEntries call.entity
        (accumulator.existingEntry call.entity call.metadata call.primaryKeys)).get? owner := by
    simp only [EntityCall.record, Accumulator.recordEntity]
    split
    · rw [OrderedMap.get?_erase, if_neg other]
      rfl
    · rw [OrderedMap.get?_set, if_neg other]
      rfl
  rw [kept, get?_remainingEntries _ _ _ _ other]
  cases found : accumulator.existingEntry call.entity call.metadata call.primaryKeys with
  | none =>
      refine ⟨fun stored => ⟨stored, records.existingEntry_none found stored⟩, fun both => both.1⟩
  | some existing =>
      rcases existing with ⟨holder, old⟩
      rcases records.existingEntry_some fits found with ⟨oldStored, oldRow⟩
      by_cases sameOwner : holder = owner
      · subst sameOwner
        simp only [if_true, reduceCtorEq, false_iff, not_and, not_not]
        intro stored
        rw [oldStored, Option.some.injEq] at stored
        rw [← stored, oldRow]
      · simp only [sameOwner, if_false, iff_self_and]
        intro stored sameRow
        have same := records.row_unique stored oldStored (sameRow.trans oldRow.symm)
        rw [same] at stored
        exact sameOwner ((records.summarized _ _ oldStored).1.symm.trans
          (records.summarized _ _ stored).1)

/-- The entry that `recordEntity` makes for the call. -/
abbrev newEntry (call : EntityCall Value) (accumulator : Accumulator Value) :
    PendingEntityMutation Value :=
  accumulator.pendingEntry call.entity call.metadata call.before call.after

theorem get?_recordEntity_own (call : EntityCall Value) (accumulator : Accumulator Value) :
    (call.record accumulator).entityMutations.get? call.entity =
      if (newEntry call accumulator).before = none ∧ call.after = none then none
      else some (newEntry call accumulator) := by
  have vanishes : (newEntry call accumulator).before.isNone = true ∧
      (newEntry call accumulator).after.isNone = true ↔
      (newEntry call accumulator).before = none ∧ call.after = none := by
    rw [Option.isNone_iff_eq_none, Option.isNone_iff_eq_none]
    rfl
  simp only [EntityCall.record, Accumulator.recordEntity]
  by_cases vanished : (newEntry call accumulator).before = none ∧ call.after = none
  · rw [if_pos vanished, if_pos (vanishes.mpr vanished), OrderedMap.get?_erase, if_pos rfl]
  · rw [if_neg vanished, if_neg (mt vanishes.mp vanished), OrderedMap.get?_set, if_pos rfl]

theorem pending_iff_existing (records : Records accumulator history) (fits : Fits history call) :
    Pending history call.row ↔
      (accumulator.existingEntry call.entity call.metadata call.primaryKeys).isSome = true := by
  cases found : accumulator.existingEntry call.entity call.metadata call.primaryKeys with
  | some existing =>
      rcases existing with ⟨holder, old⟩
      rcases records.existingEntry_some fits found with ⟨stored, sameRow⟩
      rcases records.summarized _ _ stored with ⟨-, position, last, summarizes⟩
      have pending := summarizes.stillPending
      rw [sameRow] at pending
      simp [pending]
  | none =>
      simp only [Option.isSome_none, Bool.false_eq_true, iff_false]
      intro pending
      rcases records.complete _ pending with ⟨owner, item, stored, sameRow⟩
      exact records.existingEntry_none found stored sameRow

theorem newEntry_before (records : Records accumulator history) (fits : Fits history call) :
    (newEntry call accumulator).before = firstBefore (history ++ [.entity call]) call.row := by
  have recorded : (newEntry call accumulator).before =
      ((accumulator.existingEntry call.entity call.metadata call.primaryKeys).map
        (·.2.before)).getD call.before := rfl
  rw [recorded]
  cases found : accumulator.existingEntry call.entity call.metadata call.primaryKeys with
  | none =>
      have idle : ¬Pending history call.row := by
        rw [records.pending_iff_existing fits, found]
        simp
      rw [firstBefore_append_of_not_pending fits idle]
      rfl
  | some existing =>
      rcases existing with ⟨holder, old⟩
      rcases records.existingEntry_some fits found with ⟨stored, sameRow⟩
      rcases records.summarized _ _ stored with ⟨-, position, last, summarizes⟩
      have pending : Pending history call.row := by
        rw [← sameRow]
        exact summarizes.stillPending
      rw [firstBefore_append_of_pending pending, ← sameRow, ← summarizes.before]
      rfl

theorem newEntry_row (call : EntityCall Value) (accumulator : Accumulator Value) :
    (newEntry call accumulator).row = call.row := rfl

theorem newEntry_sequence (records : Records accumulator history) (fits : Fits history call)
    (still : Pending (history ++ [.entity call]) call.row) :
    ∃ position, Opens (history ++ [.entity call]) call.row position ∧
      (newEntry call accumulator).sequence =
        sequenceAt (history ++ [.entity call]) position := by
  have recorded : (newEntry call accumulator).sequence =
      ((accumulator.existingEntry call.entity call.metadata call.primaryKeys).map
        (·.2.sequence)).getD accumulator.nextSequence := rfl
  rw [recorded]
  cases found : accumulator.existingEntry call.entity call.metadata call.primaryKeys with
  | none =>
      have idle : ¬Pending history call.row := by
        rw [records.pending_iff_existing fits, found]
        simp
      refine ⟨history.length, opens_length idle still, ?_⟩
      rw [sequenceAt_append le_rfl, ← records.nextSequence]
      rfl
  | some existing =>
      rcases existing with ⟨holder, old⟩
      rcases records.existingEntry_some fits found with ⟨stored, sameRow⟩
      rcases records.summarized _ _ stored with ⟨-, position, last, summarizes⟩
      have pending := summarizes.stillPending
      have opens := summarizes.opens
      rw [sameRow] at pending opens
      refine ⟨position, opens.append pending still, ?_⟩
      rw [sequenceAt_append (opens.lt_of_pending pending).le, ← summarizes.sequence]
      rfl

theorem stored_iff_pending (records : Records accumulator history) (fits : Fits history call) :
    Pending (history ++ [.entity call]) call.row ↔
      ¬((newEntry call accumulator).before = none ∧ call.after = none) := by
  rw [Pending, lastAfter_append_own, records.newEntry_before fits]

theorem newEntry_summarizes (records : Records accumulator history) (fits : Fits history call)
    (still : Pending (history ++ [.entity call]) call.row) :
    ∃ position last, Summarizes (history ++ [.entity call]) (newEntry call accumulator)
      position last := by
  rcases records.newEntry_sequence fits still with ⟨position, opens, sequence⟩
  refine ⟨position, call, ?_⟩
  constructor
  case stillPending => exact still
  case opens => exact opens
  case sequence => exact sequence
  case lastCall => rw [newEntry_row, calls_append_own, List.getLast?_concat]
  case before => exact records.newEntry_before fits
  case entity => rfl
  case metadata => rfl
  case primaryKeys => rfl
  case after => rfl

theorem pendingQueries_append (history : History Value) (entry : Entry Value) :
    pendingQueries (history ++ [entry]) = pendingQueries history ++
      match entry with
      | .query mutation => [⟨sequenceAt history history.length, mutation⟩]
      | .entity _ => [] := by
  unfold pendingQueries
  rw [List.length_append, List.length_singleton, List.range_succ, List.filterMap_append]
  congr 1
  · refine List.filterMap_congr fun position member => ?_
    have below := List.mem_range.mp member
    rw [List.getElem?_append_left below, sequenceAt_append below.le]
  · cases entry <;> simp [sequenceAt_append]

theorem recordEntity (records : Records accumulator history) (fits : Fits history call) :
    Records (call.record accumulator) (history ++ [.entity call]) := by
  constructor
  case nextSequence =>
    have taken : (call.record accumulator).nextSequence =
        if (accumulator.existingEntry call.entity call.metadata call.primaryKeys).isSome
        then accumulator.nextSequence else accumulator.nextSequence + 1 := rfl
    rw [taken, List.length_append, List.length_singleton, sequenceAt_append_length,
      ← records.nextSequence]
    by_cases pending : Pending history call.row
    · rw [if_pos ((records.pending_iff_existing fits).mp pending)]
      simp [numbered, pending]
    · rw [if_neg (mt (records.pending_iff_existing fits).mpr pending)]
      simp [numbered, pending]
  case queries =>
    rw [pendingQueries_append, ← records.queries]
    simp [EntityCall.record, Accumulator.recordEntity]
  case summarized =>
    intro entity item stored
    by_cases own : entity = call.entity
    · subst own
      rw [get?_recordEntity_own] at stored
      split at stored
      · cases stored
      · rename_i present
        rw [Option.some.injEq] at stored
        subst stored
        exact ⟨rfl, records.newEntry_summarizes fits
          ((records.stored_iff_pending fits).mpr present)⟩
    · rcases (records.get?_recordEntity_other fits own item).mp stored with ⟨earlier, otherRow⟩
      rcases records.summarized _ _ earlier with ⟨owned, position, last, summarizes⟩
      refine ⟨owned, position, last, summarizes.append_other ?_⟩
      rintro _ ⟨⟩
      exact otherRow.symm
  case complete =>
    intro row pending
    by_cases own : row = call.row
    · subst own
      refine ⟨call.entity, newEntry call accumulator, ?_, rfl⟩
      rw [get?_recordEntity_own, if_neg ((records.stored_iff_pending fits).mp pending)]
    · have other : ∀ recorded, Entry.entity call = .entity recorded → recorded.row ≠ row := by
        rintro _ ⟨⟩
        exact Ne.symm own
      rcases records.complete row ((pending_append_other other).mp pending) with
        ⟨owner, item, stored, sameRow⟩
      have otherOwner : owner ≠ call.entity := by
        rintro rfl
        exact own (sameRow.symm.trans (records.row_of_instance fits stored))
      refine ⟨owner, item, (records.get?_recordEntity_other fits otherOwner item).mpr ⟨stored, ?_⟩,
        sameRow⟩
      rw [sameRow]
      exact own

theorem recordQuery (records : Records accumulator history) (mutation : QueryMutation Value) :
    Records (accumulator.recordQuery mutation) (history ++ [.query mutation]) := by
  have other : ∀ (row : Row Value) (call : EntityCall Value),
      Entry.query mutation = .entity call → call.row ≠ row := by
    rintro _ _ ⟨⟩
  constructor
  case nextSequence =>
    rw [List.length_append, List.length_singleton, sequenceAt_append_length,
      ← records.nextSequence]
    simp [numbered, Accumulator.recordQuery]
  case queries =>
    rw [pendingQueries_append, ← records.queries, ← records.nextSequence]
    rfl
  case summarized =>
    intro entity item stored
    rcases records.summarized entity item stored with ⟨owned, position, last, summarizes⟩
    exact ⟨owned, position, last, summarizes.append_other (other item.row)⟩
  case complete =>
    intro row pending
    exact records.complete row ((pending_append_other (other row)).mp pending)

end Calls

theorem createEntityMutation_eq {last : EntityCall Value}
    (summarizes : Summarizes history item position last) :
    createEntityMutation item = netMutation history item.row := by
  unfold netMutation createEntityMutation
  rw [summarizes.lastCall]
  simp only [summarizes.before, summarizes.after, summarizes.entity, summarizes.metadata]
  have pending := summarizes.stillPending
  simp only [Pending, lastAfter, summarizes.lastCall, Option.bind_some] at pending
  cases first : firstBefore history item.row with
  | none =>
      cases after : last.after with
      | none => exact absurd ⟨first, after⟩ pending
      | some snapshot => simp [sameState]
  | some before =>
      cases last.after with
      | none => simp [sameState]
      | some after => rfl

/-- The mutations by position, with their sequence numbers. -/
def positioned (history : History Value) : List (ℕ × Mutation Value) :=
  (List.range history.length).filterMap fun position =>
    (mutationAt history position).map fun mutation => (sequenceAt history position, mutation)

omit [DecidableEq Value] in
theorem mem_range_of_getElem? {entry : Entry Value} (found : history[position]? = some entry) :
    position ∈ List.range history.length :=
  List.mem_range.mpr (List.getElem?_eq_some_iff.mp found).1

theorem numbered_of_mutationAt (found : mutationAt history position = some mutation) :
    numbered history position = true := by
  unfold mutationAt at found
  unfold numbered
  cases entry : history[position]? with
  | none => simp [entry] at found
  | some stored =>
      cases stored with
      | query query => rfl
      | entity call =>
          simp only [entry] at found
          split at found
          · rename_i opens
            simpa using opens.1
          · cases found

theorem positioned_increasing (history : History Value) :
    (positioned history).Pairwise fun left right => left.1 < right.1 := by
  unfold positioned
  rw [List.pairwise_filterMap]
  refine List.pairwise_lt_range.imp ?_
  intro first second below left leftFound right rightFound
  rw [Option.map_eq_some_iff] at leftFound rightFound
  rcases leftFound with ⟨leftMutation, leftAt, rfl⟩
  rcases rightFound with ⟨rightMutation, -, rfl⟩
  exact sequenceAt_lt (numbered_of_mutationAt leftAt) below

theorem mem_pendingQueries_iff {item : PendingQueryMutation Value} :
    item ∈ pendingQueries history ↔
      ∃ position, history[position]? = some (.query item.mutation) ∧
        item.sequence = sequenceAt history position := by
  unfold pendingQueries
  rw [List.mem_filterMap]
  constructor
  · rintro ⟨position, -, picked⟩
    cases found : history[position]? with
    | none => simp [found] at picked
    | some entry =>
        cases entry with
        | entity call => simp [found] at picked
        | query mutation =>
            simp only [found, Option.some.injEq] at picked
            subst picked
            exact ⟨position, found, rfl⟩
  · rintro ⟨position, found, sequence⟩
    refine ⟨position, mem_range_of_getElem? found, ?_⟩
    simp only [found, ← sequence]

theorem pendingQueries_sequence_nodup (history : History Value) :
    ((pendingQueries history).map (·.sequence)).Nodup := by
  unfold pendingQueries
  rw [List.nodup_iff_pairwise_ne, List.pairwise_map, List.pairwise_filterMap]
  refine List.pairwise_lt_range.imp ?_
  intro first second below left leftFound right rightFound
  have taken : numbered history first = true := by
    unfold numbered
    cases found : history[first]? with
    | none => simp [found] at leftFound
    | some entry =>
        cases entry with
        | entity call => simp [found] at leftFound
        | query mutation => rfl
  have leftSequence : left.sequence = sequenceAt history first := by
    split at leftFound
    · cases leftFound
      rfl
    · cases leftFound
  have rightSequence : right.sequence = sequenceAt history second := by
    split at rightFound
    · cases rightFound
      rfl
    · cases rightFound
  rw [leftSequence, rightSequence]
  exact (sequenceAt_lt taken below).ne

theorem mem_positioned_iff {sequence : ℕ} :
    (sequence, mutation) ∈ positioned history ↔
      ∃ position, mutationAt history position = some mutation ∧
        sequence = sequenceAt history position := by
  unfold positioned
  rw [List.mem_filterMap]
  constructor
  · rintro ⟨position, -, picked⟩
    rw [Option.map_eq_some_iff] at picked
    rcases picked with ⟨found, foundAt, same⟩
    cases same
    exact ⟨position, foundAt, rfl⟩
  · rintro ⟨position, foundAt, rfl⟩
    have inside : position ∈ List.range history.length := by
      cases entry : history[position]? with
      | none => simp [mutationAt, entry] at foundAt
      | some stored => exact mem_range_of_getElem? entry
    exact ⟨position, inside, by rw [foundAt]; rfl⟩

theorem mutationAt_query {mutation : QueryMutation Value} :
    mutationAt history position = some (.query mutation) ↔
      history[position]? = some (.query mutation) := by
  unfold mutationAt
  cases history[position]? with
  | none => simp
  | some entry =>
      cases entry with
      | query other => simp
      | entity call =>
          simp only [Option.some.injEq, reduceCtorEq, iff_false]
          split
          · simp
          · simp

theorem mutationAt_entity {mutation : EntityMutation Value} :
    mutationAt history position = some (.entity mutation) ↔
      ∃ call, history[position]? = some (.entity call) ∧ Opens history call.row position ∧
        netMutation history call.row = some mutation := by
  unfold mutationAt
  cases history[position]? with
  | none => simp
  | some entry =>
      cases entry with
      | query other => simp
      | entity call =>
          simp only [Option.some.injEq, Entry.entity.injEq, exists_eq_left',
            Option.ite_none_right_eq_some, Option.map_eq_some_iff, Mutation.entity.injEq,
            exists_eq_right]

theorem pending_of_netMutation {row : Row Value} {mutation : EntityMutation Value}
    (found : netMutation history row = some mutation) : Pending history row := by
  intro vanished
  unfold netMutation at found
  cases last : (calls history row).getLast? with
  | none => simp [last] at found
  | some call =>
      have afterEq : call.after = none := by
        simpa [lastAfter, last] using vanished.2
      simp [last, vanished.1, afterEq, sameState] at found

theorem call_at_opening {row : Row Value} (opens : Opens history row position)
    (pending : Pending history row) :
    ∃ call, history[position]? = some (.entity call) ∧ call.row = row := by
  have below := opens.lt_of_pending pending
  have now := opens.2 position below le_rfl
  have idle := opens.1
  rw [List.take_succ_eq_append_getElem below] at now
  have found := List.getElem?_eq_getElem below
  by_contra missing
  refine idle ((pending_append_other ?_).mp now)
  intro call isCall sameRow
  rw [isCall] at found
  exact missing ⟨call, found, sameRow⟩

theorem mem_numberedMutations_iff (records : Records accumulator history) {sequence : ℕ} :
    (sequence, mutation) ∈ accumulator.numberedMutations ↔
      (sequence, mutation) ∈ positioned history := by
  rw [mem_positioned_iff]
  unfold Accumulator.numberedMutations
  rw [List.mem_append, List.mem_map, List.mem_filterMap, records.queries]
  cases mutation with
  | query query =>
      simp only [mutationAt_query, Prod.mk.injEq, Option.map_eq_some_iff, reduceCtorEq, and_false,
        exists_false, or_false, Mutation.query.injEq]
      constructor
      · rintro ⟨item, member, rfl, rfl⟩
        exact mem_pendingQueries_iff.mp member
      · rintro ⟨position, found, same⟩
        exact ⟨⟨sequence, query⟩, mem_pendingQueries_iff.mpr ⟨position, found, same⟩, rfl, rfl⟩
  | entity mutation =>
      simp only [Prod.mk.injEq, Option.map_eq_some_iff, reduceCtorEq, and_false,
        exists_false, false_or, Mutation.entity.injEq, mutationAt_entity]
      constructor
      · rintro ⟨⟨owner, item⟩, member, created, creates, rfl, rfl⟩
        have stored := (accumulator.entityMutations.get?_eq_some_iff _ _).mpr member
        rcases records.summarized _ _ stored with ⟨-, position, last, summarizes⟩
        rcases call_at_opening summarizes.opens summarizes.stillPending with ⟨call, found, sameRow⟩
        refine ⟨position, ⟨call, found, ?_, ?_⟩, summarizes.sequence⟩
        · rw [sameRow]
          exact summarizes.opens
        · rw [sameRow, ← createEntityMutation_eq summarizes]
          exact creates
      · rintro ⟨position, ⟨call, found, opens, net⟩, rfl⟩
        rcases records.complete _ (pending_of_netMutation net) with ⟨owner, item, stored, sameRow⟩
        rcases records.summarized _ _ stored with ⟨-, itemPosition, last, summarizes⟩
        have samePosition : itemPosition = position := by
          rw [← sameRow] at opens
          exact summarizes.opens.unique opens summarizes.stillPending
        subst samePosition
        refine ⟨(owner, item), (accumulator.entityMutations.get?_eq_some_iff _ _).mp stored,
          mutation, ?_, summarizes.sequence, rfl⟩
        rw [createEntityMutation_eq summarizes, sameRow]
        exact net

theorem numberedMutations_nodup (records : Records accumulator history) :
    accumulator.numberedMutations.Nodup := by
  unfold Accumulator.numberedMutations
  rw [records.queries]
  refine List.nodup_append.mpr ⟨?_, ?_, ?_⟩
  · have sequences := pendingQueries_sequence_nodup history
    refine List.Nodup.of_map Prod.fst ?_
    rw [List.map_map]
    exact sequences
  · rw [List.nodup_iff_pairwise_ne, List.pairwise_filterMap]
    have distinct := accumulator.entityMutations.nodupKeys
    rw [List.nodup_iff_pairwise_ne, List.pairwise_map] at distinct
    refine List.Pairwise.imp_of_mem ?_ distinct
    intro left right leftMem rightMem different first firstMade second secondMade same
    have leftOwned := (records.summarized left.1 left.2
      ((accumulator.entityMutations.get?_eq_some_iff _ _).mpr leftMem)).1
    have rightOwned := (records.summarized right.1 right.2
      ((accumulator.entityMutations.get?_eq_some_iff _ _).mpr rightMem)).1
    rw [Option.map_eq_some_iff] at firstMade secondMade
    rcases firstMade with ⟨firstMutation, firstCreated, rfl⟩
    rcases secondMade with ⟨secondMutation, secondCreated, rfl⟩
    simp only [Prod.mk.injEq, Mutation.entity.injEq] at same
    have sameEntity := congrArg EntityMutation.entity same.2
    rw [(createEntityMutation_some firstCreated).1,
      (createEntityMutation_some secondCreated).1, leftOwned, rightOwned] at sameEntity
    exact different sameEntity
  · intro first firstMem second secondMem same
    rw [List.mem_map] at firstMem
    rw [List.mem_filterMap] at secondMem
    rcases firstMem with ⟨item, -, rfl⟩
    rcases secondMem with ⟨entry, -, made⟩
    rw [Option.map_eq_some_iff] at made
    rcases made with ⟨mutation, -, rfl⟩
    have sameKind := congrArg Prod.snd same
    cases sameKind

theorem getMutations_eq (records : Records accumulator history) :
    accumulator.getMutations = netMutations history := by
  have increasing := positioned_increasing history
  have positionedNodup : (positioned history).Nodup :=
    List.nodup_iff_pairwise_ne.mpr (increasing.imp fun below same => by
      rw [same] at below
      exact lt_irrefl _ below)
  have perm : accumulator.numberedMutations.Perm (positioned history) := by
    refine (List.perm_ext_iff_of_nodup records.numberedMutations_nodup positionedNodup).mpr ?_
    rintro ⟨sequence, mutation⟩
    exact records.mem_numberedMutations_iff
  unfold Accumulator.getMutations
  rw [sortOn_eq Prod.fst perm increasing]
  unfold positioned netMutations
  rw [List.map_filterMap]
  refine List.filterMap_congr fun position _ => ?_
  cases mutationAt history position <;> rfl

end Records

namespace History

variable {history : History Value}

/-- An instance belongs to one row. -/
def Coherent (history : History Value) : Prop :=
  ∀ first second, .entity first ∈ history → .entity second ∈ history →
    first.entity = second.entity → first.row = second.row

theorem Coherent.append_entity {call : EntityCall Value}
    (coherent : Coherent history) (fits : Fits history call) :
    Coherent (history ++ [.entity call]) := by
  intro first second firstMem secondMem sameEntity
  rw [List.mem_append, List.mem_singleton, Entry.entity.injEq] at firstMem secondMem
  rcases firstMem with firstMem | rfl <;> rcases secondMem with secondMem | rfl
  · exact coherent first second firstMem secondMem sameEntity
  · exact fits.instance_ first firstMem sameEntity
  · exact (fits.instance_ second secondMem sameEntity.symm).symm
  · rfl

omit [DecidableEq Value] in
theorem Coherent.append_query {mutation : QueryMutation Value} (coherent : Coherent history) :
    Coherent (history ++ [.query mutation]) := by
  intro first second firstMem secondMem sameEntity
  simp only [List.mem_append, List.mem_singleton, reduceCtorEq, or_false] at firstMem secondMem
  exact coherent first second firstMem secondMem sameEntity

/-- The instance of a mutation has been recorded for the row. -/
def concerns (history : History Value) (row : Row Value) : Mutation Value → Bool
  | .query _ => false
  | .entity mutation => (calls history row).any (·.entity = mutation.entity)

theorem netMutation_eq_none_iff (history : History Value) (row : Row Value) :
    netMutation history row = none ↔
      sameState (firstBefore history row) (lastAfter history row) = true := by
  unfold netMutation lastAfter
  cases last : (calls history row).getLast? with
  | none =>
      rw [List.getLast?_eq_none_iff] at last
      simp [firstBefore, last, sameState]
  | some call =>
      simp only [Option.bind_some]
      by_cases same : sameState (firstBefore history row) call.after = true
      · simp [same]
      · simp only [same, if_false, Bool.false_eq_true, iff_false]
        cases firstBefore history row <;> cases call.after <;> simp

/-- What the net mutation of a row says. -/
structure NetChange (history : History Value) (row : Row Value)
    (mutation : EntityMutation Value) : Prop where
  before : mutation.before = firstBefore history row
  after : mutation.after = lastAfter history row
  operation : mutation.operation =
    match firstBefore history row, lastAfter history row with
    | none, _ => .create
    | _, none => .delete
    | _, _ => .update
  changedFields : ∀ key, key ∈ mutation.changedFields ↔
    read (firstBefore history row) key ≠ read (lastAfter history row) key
  changedOnce : mutation.changedFields.Nodup

omit [DecidableEq Value] in
theorem read_of_not_mem_fieldsOf {snapshot : Option (Snapshot Value)} {key : String}
    (absent : key ∉ fieldsOf snapshot) : read snapshot key = .undefined := by
  cases snapshot with
  | none => rfl
  | some fields =>
      have missing : fields.get? key = none := by
        cases found : fields.get? key with
        | none => rfl
        | some value =>
            have member := (JsObject.mem_ownEntries_iff fields key value).mpr found
            exact absurd (List.mem_map.mpr ⟨_, member, rfl⟩) absent
      simp [read, missing]

omit [DecidableEq Value] in
theorem fieldsOf_nodup (snapshot : Option (Snapshot Value)) : (fieldsOf snapshot).Nodup := by
  cases snapshot with
  | none => exact List.nodup_nil
  | some fields => exact JsObject.ownEntries_keys_nodup fields

theorem mem_getChangedFields_iff (before after : Option (Snapshot Value)) (key : String) :
    key ∈ getChangedFields before after ↔ read before key ≠ read after key := by
  unfold getChangedFields
  rw [List.mem_filter, List.mem_append, List.mem_filter, decide_eq_true_eq, decide_eq_true_eq,
    and_iff_right_iff_imp]
  intro different
  by_cases inBefore : key ∈ fieldsOf before
  · exact .inl inBefore
  · by_cases inAfter : key ∈ fieldsOf after
    · exact .inr ⟨inAfter, inBefore⟩
    · rw [read_of_not_mem_fieldsOf inBefore, read_of_not_mem_fieldsOf inAfter] at different
      exact absurd rfl different

theorem getChangedFields_nodup (before after : Option (Snapshot Value)) :
    (getChangedFields before after).Nodup := by
  refine List.Nodup.filter _ (List.nodup_append.mpr ⟨fieldsOf_nodup before,
    (fieldsOf_nodup after).filter _, ?_⟩)
  intro first firstMem second secondMem same
  have outside := of_decide_eq_true (List.mem_filter.mp secondMem).2
  rw [← same] at outside
  exact outside firstMem

theorem netMutation_spec {row : Row Value} {mutation : EntityMutation Value}
    (net : netMutation history row = some mutation) :
    NetChange history row mutation ∧ ∃ last ∈ calls history row, last.entity = mutation.entity := by
  unfold netMutation at net
  cases found : (calls history row).getLast? with
  | none => simp [found] at net
  | some last =>
      have lastEq : lastAfter history row = last.after := by simp [lastAfter, found]
      have member : last ∈ calls history row := List.mem_of_getLast? found
      have fields := mem_getChangedFields_iff (firstBefore history row) last.after
      have once := getChangedFields_nodup (firstBefore history row) last.after
      simp only [found] at net
      split at net
      · cases net
      · split at net
        all_goals
          cases net
          rename_i beforeEq afterEq
          refine ⟨?_, last, member, rfl⟩
          constructor <;> simp_all

theorem filterMap_range_single {Item : Type} {pick : ℕ → Option Item} {bound position : ℕ}
    {item : Item} (below : position < bound) (picked : pick position = some item)
    (others : ∀ other, other ≠ position → pick other = none) :
    (List.range bound).filterMap pick = [item] := by
  induction bound with
  | zero => exact absurd below (Nat.not_lt_zero _)
  | succ bound ih =>
      rw [List.range_succ, List.filterMap_append]
      rcases Nat.lt_succ_iff_lt_or_eq.mp below with inside | rfl
      · rw [ih inside]
        simp [others bound inside.ne']
      · have nothing : (List.range position).filterMap pick = [] := by
          rw [List.filterMap_eq_nil_iff]
          intro other member
          exact others other (List.mem_range.mp member).ne
        simp [nothing, picked]

theorem exists_opens {row : Row Value} (pending : Pending history row) :
    ∃ position, Opens history row position := by
  induction history using List.reverseRecOn with
  | nil => simp [Pending, firstBefore, lastAfter, calls] at pending
  | append_singleton earlier entry ih =>
      by_cases before : Pending earlier row
      · rcases ih before with ⟨position, opens⟩
        exact ⟨position, opens.append before pending⟩
      · exact ⟨earlier.length, opens_length before pending⟩

theorem netMutations_filter (coherent : Coherent history) (row : Row Value) :
    (netMutations history).filter (concerns history row) =
      ((netMutation history row).map Mutation.entity).toList := by
  have concernsOwn : ∀ {other : Row Value} {mutation : EntityMutation Value},
      netMutation history other = some mutation →
        concerns history row (.entity mutation) = true → other = row := by
    intro other mutation net concerned
    rcases (netMutation_spec net).2 with ⟨last, lastMem, lastEntity⟩
    rw [concerns, List.any_eq_true] at concerned
    rcases concerned with ⟨call, callMem, callEntity⟩
    rw [decide_eq_true_eq] at callEntity
    rcases mem_calls_iff.mp lastMem with ⟨lastRecorded, lastRow⟩
    rcases mem_calls_iff.mp callMem with ⟨callRecorded, callRow⟩
    rw [← lastRow, ← callRow]
    exact coherent last call lastRecorded callRecorded (lastEntity.trans callEntity.symm)
  have elsewhere : ∀ position mutation, mutationAt history position = some mutation →
      concerns history row mutation = true →
        Opens history row position ∧
          ((netMutation history row).map Mutation.entity) = some mutation := by
    intro position mutation found concerned
    cases mutation with
    | query query => cases concerned
    | entity mutation =>
        rcases Records.mutationAt_entity.mp found with ⟨call, -, opens, net⟩
        have own := concernsOwn net concerned
        rw [own] at opens net
        exact ⟨opens, by rw [net]; rfl⟩
  unfold netMutations
  rw [List.filter_filterMap]
  cases net : netMutation history row with
  | none =>
      simp only [Option.map_none, Option.toList_none]
      rw [List.filterMap_eq_nil_iff]
      intro position _
      cases found : mutationAt history position with
      | none => rfl
      | some mutation =>
          by_cases concerned : concerns history row mutation = true
          · have impossible := (elsewhere position mutation found concerned).2
            rw [net] at impossible
            cases impossible
          · simp [Option.filter, concerned]
  | some mutation =>
      have pending := Records.pending_of_netMutation net
      rcases exists_opens pending with ⟨opening, opens⟩
      rcases Records.call_at_opening opens pending with ⟨call, callAt, callRow⟩
      have opensCall := opens
      rw [← callRow] at opensCall
      have foundAt : mutationAt history opening = some (.entity mutation) :=
        Records.mutationAt_entity.mpr ⟨call, callAt, opensCall, by rw [callRow]; exact net⟩
      have concerned : concerns history row (.entity mutation) = true := by
        rcases (netMutation_spec net).2 with ⟨last, lastMem, lastEntity⟩
        rw [concerns, List.any_eq_true]
        exact ⟨last, lastMem, decide_eq_true lastEntity⟩
      refine filterMap_range_single (opens.lt_of_pending pending) ?_ ?_
      · simp [foundAt, Option.filter, concerned]
      · intro other different
        cases found : mutationAt history other with
        | none => rfl
        | some otherMutation =>
            by_cases concernedToo : concerns history row otherMutation = true
            · have opensToo := (elsewhere other otherMutation found concernedToo).1
              exact absurd (opensToo.unique opens pending) different
            · simp [Option.filter, concernedToo]

end History

/-- An accumulator with its history and the checkpoints that can be restored, latest first. -/
structure Recording (Value : Type) where
  accumulator : Accumulator Value
  history : History Value
  saved : List (Accumulator Value × History Value)

/-- A call of an accumulator. -/
inductive RecordingStep (Value : Type) where
  | recordEntity (call : EntityCall Value)
  | recordQuery (mutation : QueryMutation Value)
  | checkpoint
  | restore (depth : ℕ)

namespace Recording

open History

/-- Nothing has been recorded. -/
def start : Recording Value := ⟨.empty, [], []⟩

/-- Restoring a checkpoint gives up the later ones. -/
def apply (recording : Recording Value) : RecordingStep Value → Recording Value
  | .recordEntity call =>
      { recording with
        accumulator := call.record recording.accumulator
        history := recording.history ++ [.entity call] }
  | .recordQuery mutation =>
      { recording with
        accumulator := recording.accumulator.recordQuery mutation
        history := recording.history ++ [.query mutation] }
  | .checkpoint =>
      { recording with saved := (recording.accumulator, recording.history) :: recording.saved }
  | .restore depth =>
      match recording.saved[depth]? with
      | none => recording
      | some (accumulator, history) =>
          { accumulator, history, saved := recording.saved.drop depth }

/-- Calls are consistent with what has been recorded. -/
def Consistent (recording : Recording Value) : RecordingStep Value → Prop
  | .recordEntity call => Fits recording.history call
  | .restore depth => depth < recording.saved.length
  | _ => True

/-- The recordings of consistent calls, with checkpoints restored in stack order. -/
def system : TransitionSystem (Recording Value) (RecordingStep Value) where
  Init := (· = start)
  Step before step after := before.Consistent step ∧ after = before.apply step

/-- The current pair and the saved ones are in step. -/
structure InStep (recording : Recording Value) : Prop where
  records : Records recording.accumulator recording.history
  coherent : Coherent recording.history
  saved : ∀ pair ∈ recording.saved, Records pair.1 pair.2 ∧ Coherent pair.2

theorem InStep.apply {recording : Recording Value} (inStep : InStep recording)
    {step : RecordingStep Value} (consistent : recording.Consistent step) :
    InStep (recording.apply step) := by
  cases step with
  | recordEntity call =>
      exact ⟨inStep.records.recordEntity consistent, inStep.coherent.append_entity consistent,
        inStep.saved⟩
  | recordQuery mutation =>
      exact ⟨inStep.records.recordQuery mutation, inStep.coherent.append_query, inStep.saved⟩
  | checkpoint =>
      refine ⟨inStep.records, inStep.coherent, ?_⟩
      intro pair member
      rcases List.mem_cons.mp member with rfl | older
      · exact ⟨inStep.records, inStep.coherent⟩
      · exact inStep.saved pair older
  | restore depth =>
      unfold Recording.apply
      cases found : recording.saved[depth]? with
      | none =>
          simp only [found]
          exact inStep
      | some pair =>
          simp only [found]
          rcases inStep.saved pair (List.mem_of_getElem? found) with ⟨records, coherent⟩
          refine ⟨records, coherent, ?_⟩
          intro other member
          exact inStep.saved other (List.mem_of_mem_drop member)

theorem inStep_of_reachable {recording : Recording Value} (reachable : system.Reachable recording) :
    InStep recording := by
  refine reachable.invariant InStep ?_ ?_
  · rintro _ rfl
    refine ⟨Records.empty, ?_, ?_⟩
    · intro first second firstMem
      cases firstMem
    · intro pair member
      cases member
  · rintro before step _ - inStep ⟨consistent, rfl⟩
    exact inStep.apply consistent

/-- Interceptors receive the net change: the queries and the net changes of the rows that have one,
in the order in which they became pending. -/
theorem getMutations_netChange {recording : Recording Value}
    (reachable : system.Reachable recording) :
    recording.accumulator.getMutations = netMutations recording.history ∧
      ∀ row,
        recording.accumulator.getMutations.filter (concerns recording.history row) =
          ((netMutation recording.history row).map Mutation.entity).toList ∧
        (netMutation recording.history row = none ↔
          sameState (firstBefore recording.history row) (lastAfter recording.history row) = true) ∧
        ∀ mutation, netMutation recording.history row = some mutation →
          NetChange recording.history row mutation := by
  have inStep := inStep_of_reachable reachable
  have reported := inStep.records.getMutations_eq
  refine ⟨reported, fun row => ⟨?_, netMutation_eq_none_iff _ row, ?_⟩⟩
  · rw [reported]
    exact netMutations_filter inStep.coherent row
  · intro mutation net
    exact (netMutation_spec net).1

instance (recording : Recording Value) : DecidablePred recording.Consistent
  | .recordEntity call => inferInstanceAs (Decidable (Fits recording.history call))
  | .recordQuery _ => isTrue trivial
  | .checkpoint => isTrue trivial
  | .restore depth => inferInstanceAs (Decidable (depth < recording.saved.length))

/-- An instance inserts a row, another one takes it over in a transaction that is rolled back, and
the row is deleted and inserted once more. -/
def sampleSteps : List (RecordingStep ℕ) :=
  let id : ColumnMetadata := ⟨"id", true, false, false, false⟩
  let metadata : EntityMetadata := ⟨"User", [id], [id], id⟩
  let snapshot (key name : ℕ) : Snapshot ℕ :=
    JsObject.fromEntries [("id", .value key), ("name", .value name)]
  [.recordEntity ⟨0, metadata, none, some (snapshot 5 1)⟩, .checkpoint,
    .recordEntity ⟨1, metadata, some (snapshot 5 1), some (snapshot 5 2)⟩, .restore 0,
    .recordEntity ⟨2, metadata, some (snapshot 5 1), none⟩,
    .recordQuery ⟨.delete, metadata, [], [], [], none⟩,
    .recordEntity ⟨2, metadata, none, some (snapshot 5 3)⟩,
    .recordEntity ⟨3, metadata, some (snapshot 6 1), some (snapshot 6 2)⟩]

theorem getMutations_netChange_sample :
    let recording := sampleSteps.foldl apply start
    recording.accumulator.getMutations = netMutations recording.history ∧
      recording.accumulator.getMutations.length = 3 := by
  have reachable : system.Reachable (sampleSteps.foldl apply start) := by
    refine (TransitionSystem.Reachable.start rfl).follow apply Consistent ?_ ?_
    · intro before step consistent
      exact ⟨consistent, rfl⟩
    · decide +kernel
  refine ⟨(getMutations_netChange reachable).1, ?_⟩
  decide +kernel

end Recording

end ServerFoundation.Database
