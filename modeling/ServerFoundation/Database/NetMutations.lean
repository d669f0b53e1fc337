import ServerFoundation.Database.Mutation

/-!
# Interceptors receive the net change

The history of an accumulator is the list of what has been recorded and not undone
by a restore. A row is an entity class with a complete primary key; an instance
without one is a row of its own. When the calls for every row fit together, the
accumulator holds exactly one entry for each row that has a pending change, and
`getMutations` lists the net changes in the order in which they became pending.
-/

namespace ServerFoundation.Database

variable {Value : Type}

/-- The arguments of `recordEntity`. -/
structure EntityCall (Value : Type) where
  entity : EntityId
  metadata : EntityMetadata
  before : Option (Snapshot Value)
  after : Option (Snapshot Value)

/-- What a history records. -/
inductive Entry (Value : Type) where
  | entity (call : EntityCall Value)
  | query (mutation : QueryMutation Value)

/-- A row by its class and primary key, or an instance without a complete key. -/
inductive Row (Value : Type) where
  | keyed (classType : String) (primaryKeys : List (FieldValue Value))
  | unkeyed (entity : EntityId)
deriving DecidableEq

/-- The row of an instance with the given primary key values. -/
def rowOf (entity : EntityId) (metadata : EntityMetadata) :
    List (FieldValue Value) → Row Value
  | [] => .unkeyed entity
  | value :: rest => .keyed metadata.classType (value :: rest)

namespace EntityCall

/-- The primary key values of a call. -/
def primaryKeys (call : EntityCall Value) : List (FieldValue Value) :=
  getPrimaryKeyValues call.metadata (call.after.or call.before)

/-- The row that a call concerns. -/
def row (call : EntityCall Value) : Row Value :=
  rowOf call.entity call.metadata call.primaryKeys

/-- `recordEntity` with the arguments of the call. -/
def record [DecidableEq Value] (call : EntityCall Value) (accumulator : Accumulator Value) :
    Accumulator Value :=
  accumulator.recordEntity call.entity call.metadata call.before call.after

end EntityCall

/-- The row that an entry concerns. -/
def PendingEntityMutation.row (pending : PendingEntityMutation Value) : Row Value :=
  rowOf pending.entity pending.metadata pending.primaryKeys

variable [DecidableEq Value]

/-- The same state of a row: the same record, or none. -/
def sameState : Option (Snapshot Value) → Option (Snapshot Value) → Bool
  | none, none => true
  | some first, some second => first.deepEqual second
  | _, _ => false

/-- What has been recorded, the oldest entry first. -/
abbrev History (Value : Type) := List (Entry Value)

namespace History

variable (history : History Value) (row : Row Value)

/-- The calls for a row, oldest first. -/
def calls : List (EntityCall Value) :=
  history.filterMap fun
    | .entity call => if call.row = row then some call else none
    | .query _ => none

/-- The row before its first call. -/
def firstBefore : Option (Snapshot Value) := (calls history row).head?.bind (·.before)

/-- The row after its last call. -/
def lastAfter : Option (Snapshot Value) := (calls history row).getLast?.bind (·.after)

/-- The row has been touched, and has not vanished again: it existed at first or exists at last. -/
def Pending : Prop := ¬(firstBefore history row = none ∧ lastAfter history row = none)

instance : Decidable (Pending history row) :=
  inferInstanceAs (Decidable ¬((firstBefore history row) = none ∧ lastAfter history row = none))

/-- The row has been pending since the entry at the given position, and was not before it. -/
def Opens (position : ℕ) : Prop :=
  ¬Pending (history.take position) row ∧
    ∀ later, later < history.length → position ≤ later → Pending (history.take (later + 1)) row

instance (position : ℕ) : Decidable (Opens history row position) :=
  inferInstanceAs (Decidable (_ ∧ _))

/-- The net change of a row, if its first and last states differ. -/
def netMutation : Option (EntityMutation Value) :=
  match (calls history row).getLast? with
  | none => none
  | some last =>
      let before := firstBefore history row
      let mutation (operation : EntityMutationOperation) : EntityMutation Value :=
        { operation
          entity := last.entity
          metadata := last.metadata
          before
          after := last.after
          changedFields := getChangedFields before last.after }
      if sameState before last.after then none
      else
        match before, last.after with
        | none, _ => some (mutation .create)
        | _, none => some (mutation .delete)
        | _, _ => some (mutation .update)

/-- The mutation that stands at a position of the history: a query, or the net change of the row
that has been pending since then. -/
def mutationAt (position : ℕ) : Option (Mutation Value) :=
  match history[position]? with
  | some (.query mutation) => some (.query mutation)
  | some (.entity call) =>
      if Opens history call.row position then (netMutation history call.row).map .entity else none
  | none => none

/-- The net changes of a history, in the order in which they became pending. -/
def netMutations : List (Mutation Value) :=
  (List.range history.length).filterMap (mutationAt history)

/-- The call finds the row in the state in which the previous call left it, and the instance still
belongs to the row. -/
structure Fits (call : EntityCall Value) : Prop where
  before : ∀ previous, (calls history call.row).getLast? = some previous →
    sameState call.before previous.after = true
  instance_ : ∀ earlier, .entity earlier ∈ history → earlier.entity = call.entity →
    earlier.row = call.row

/-- An entry that is not about the instance of the call, or about the same row. -/
def keepsRow (call : EntityCall Value) : Entry Value → Bool
  | .entity earlier => earlier.entity = call.entity → earlier.row = call.row
  | .query _ => true

theorem fits_iff (call : EntityCall Value) :
    Fits history call ↔
      (∀ previous ∈ (calls history call.row).getLast?,
        sameState call.before previous.after = true) ∧
      ∀ entry ∈ history, keepsRow call entry = true := by
  constructor
  · intro fits
    refine ⟨fun previous member => fits.before previous member, ?_⟩
    intro entry member
    cases entry with
    | query mutation => rfl
    | entity earlier => exact decide_eq_true fun same => fits.instance_ earlier member same
  · rintro ⟨before, rows⟩
    exact ⟨fun previous found => before previous found,
      fun earlier member => of_decide_eq_true (rows (.entity earlier) member)⟩

instance (call : EntityCall Value) : Decidable (Fits history call) :=
  decidable_of_iff' _ (fits_iff history call)

section Appending

variable {history row} {entry : Entry Value} {call : EntityCall Value}

theorem calls_append_other (other : ∀ call, entry = .entity call → call.row ≠ row) :
    calls (history ++ [entry]) row = calls history row := by
  unfold calls
  rw [List.filterMap_append]
  cases entry with
  | entity call => simp [other call rfl]
  | query mutation => simp

theorem calls_append_own (call : EntityCall Value) :
    calls (history ++ [.entity call]) call.row = calls history call.row ++ [call] := by
  unfold calls
  rw [List.filterMap_append]
  simp

theorem lastAfter_append_own (call : EntityCall Value) :
    lastAfter (history ++ [.entity call]) call.row = call.after := by
  simp [lastAfter, calls_append_own]

theorem pending_append_other (other : ∀ call, entry = .entity call → call.row ≠ row) :
    Pending (history ++ [entry]) row ↔ Pending history row := by
  unfold Pending firstBefore lastAfter
  rw [calls_append_other other]

theorem last_of_pending (pending : Pending history row) :
    ∃ last, (calls history row).getLast? = some last := by
  cases found : (calls history row).getLast? with
  | some last => exact ⟨last, rfl⟩
  | none =>
      rw [List.getLast?_eq_none_iff] at found
      simp [Pending, firstBefore, lastAfter, found] at pending

theorem mem_calls_iff : call ∈ calls history row ↔ .entity call ∈ history ∧ call.row = row := by
  unfold calls
  rw [List.mem_filterMap]
  constructor
  · rintro ⟨entry, member, picked⟩
    cases entry with
    | entity other =>
        simp only [Option.ite_none_right_eq_some, Option.some.injEq] at picked
        rcases picked with ⟨own, rfl⟩
        exact ⟨member, own⟩
    | query mutation => cases picked
  · rintro ⟨member, own⟩
    exact ⟨.entity call, member, by simp [own]⟩

theorem firstBefore_append_of_not_pending (fits : Fits history call)
    (idle : ¬Pending history call.row) :
    firstBefore (history ++ [.entity call]) call.row = call.before := by
  unfold firstBefore
  rw [calls_append_own]
  cases found : (calls history call.row).getLast? with
  | none =>
      rw [List.getLast?_eq_none_iff] at found
      simp [found]
  | some previous =>
      have vanished := not_not.mp idle
      have absent : previous.after = none := by
        simpa [lastAfter, found] using vanished.2
      have consistent := fits.before previous found
      rw [absent] at consistent
      have notEmpty : calls history call.row ≠ [] := by
        intro empty
        simp [empty] at found
      have sameHead : (calls history call.row ++ [call]).head? = (calls history call.row).head? :=
        List.head?_append_of_ne_nil _ notEmpty
      have beforeAbsent : call.before = none := by
        cases stored : call.before with
        | none => rfl
        | some snapshot => simp [stored, sameState] at consistent
      rw [sameHead, beforeAbsent]
      exact vanished.1

theorem firstBefore_append_of_pending (pending : Pending history call.row) :
    firstBefore (history ++ [.entity call]) call.row = firstBefore history call.row := by
  rcases last_of_pending pending with ⟨last, found⟩
  have notEmpty : calls history call.row ≠ [] := by
    intro empty
    simp [empty] at found
  unfold firstBefore
  rw [calls_append_own, List.head?_append_of_ne_nil _ notEmpty]

end Appending

section Opening

variable {history row} {entry : Entry Value}

theorem Opens.lt_of_pending {position : ℕ} (opens : Opens history row position)
    (pending : Pending history row) : position < history.length := by
  by_contra beyond
  have whole : history.take position = history := List.take_of_length_le (not_lt.mp beyond)
  rw [Opens, whole] at opens
  exact opens.1 pending

theorem Opens.unique {first second : ℕ} (opensFirst : Opens history row first)
    (opensSecond : Opens history row second) (pending : Pending history row) : first = second := by
  have firstLt := opensFirst.lt_of_pending pending
  have secondLt := opensSecond.lt_of_pending pending
  rcases lt_trichotomy first second with below | same | above
  · have stillPending := opensFirst.2 (second - 1) (by omega) (by omega)
    rw [Nat.sub_add_cancel (by omega)] at stillPending
    exact absurd stillPending opensSecond.1
  · exact same
  · have stillPending := opensSecond.2 (first - 1) (by omega) (by omega)
    rw [Nat.sub_add_cancel (by omega)] at stillPending
    exact absurd stillPending opensFirst.1

theorem Opens.append {position : ℕ} (opens : Opens history row position)
    (pending : Pending history row) (still : Pending (history ++ [entry]) row) :
    Opens (history ++ [entry]) row position := by
  have below := opens.lt_of_pending pending
  refine ⟨?_, ?_⟩
  · rw [List.take_append_of_le_length below.le]
    exact opens.1
  · intro later laterLt from_
    rw [List.length_append, List.length_singleton] at laterLt
    rcases Nat.lt_or_ge later history.length with inside | last
    · rw [List.take_append_of_le_length inside]
      exact opens.2 later inside from_
    · rw [List.take_of_length_le (by simp; omega)]
      exact still

theorem opens_length (idle : ¬Pending history row) (pending : Pending (history ++ [entry]) row) :
    Opens (history ++ [entry]) row history.length := by
  refine ⟨?_, ?_⟩
  · rw [List.take_left]
    exact idle
  · intro later laterLt from_
    rw [List.take_of_length_le (by simp at laterLt ⊢; omega)]
    exact pending

end Opening

/-- The entry at a position takes a sequence number: a query, or a call for a row that is not
pending. -/
def numbered (position : ℕ) : Bool :=
  match history[position]? with
  | some (.query _) => true
  | some (.entity call) => ¬Pending (history.take position) call.row
  | none => false

/-- The next sequence number before the entry at a position. -/
def sequenceAt (position : ℕ) : ℕ := 1 + (List.range position).countP (numbered history)

section Numbering

variable {history} {entry : Entry Value}

theorem sequenceAt_succ (position : ℕ) :
    sequenceAt history (position + 1) =
      sequenceAt history position + if numbered history position then 1 else 0 := by
  simp [sequenceAt, List.range_succ, List.countP_append, List.countP_cons, Nat.add_assoc]

theorem sequenceAt_mono : Monotone (sequenceAt history) := by
  refine monotone_nat_of_le_succ fun position => ?_
  rw [sequenceAt_succ]
  exact Nat.le_add_right _ _

theorem sequenceAt_lt {first second : ℕ} (taken : numbered history first = true)
    (below : first < second) : sequenceAt history first < sequenceAt history second :=
  calc
    sequenceAt history first < sequenceAt history (first + 1) := by
      rw [sequenceAt_succ, taken]
      exact Nat.lt_succ_self _
    _ ≤ sequenceAt history second := sequenceAt_mono below

theorem numbered_append {position : ℕ} (below : position < history.length) :
    numbered (history ++ [entry]) position = numbered history position := by
  unfold numbered
  rw [List.getElem?_append_left below, List.take_append_of_le_length below.le]

theorem sequenceAt_append {position : ℕ} (below : position ≤ history.length) :
    sequenceAt (history ++ [entry]) position = sequenceAt history position := by
  unfold sequenceAt
  congr 1
  refine List.countP_congr fun earlier member => ?_
  rw [numbered_append (lt_of_lt_of_le (List.mem_range.mp member) below)]

theorem sequenceAt_append_length (entry : Entry Value) :
    sequenceAt (history ++ [entry]) (history.length + 1) =
      sequenceAt history history.length +
        if numbered (history ++ [entry]) history.length then 1 else 0 := by
  rw [sequenceAt_succ, sequenceAt_append le_rfl]

end Numbering

/-- The queries of a history with their sequence numbers. -/
def pendingQueries : List (PendingQueryMutation Value) :=
  (List.range history.length).filterMap fun position : ℕ =>
    match history[position]? with
    | some (.query mutation) => some ⟨sequenceAt history position, mutation⟩
    | _ => none

/-- A pending entry says what the history says about its row: since when it has been pending, and
its first and last state. -/
structure Summarizes (item : PendingEntityMutation Value) (position : ℕ)
    (last : EntityCall Value) : Prop where
  stillPending : Pending history item.row
  opens : Opens history item.row position
  sequence : item.sequence = sequenceAt history position
  lastCall : (calls history item.row).getLast? = some last
  entity : item.entity = last.entity
  metadata : item.metadata = last.metadata
  primaryKeys : item.primaryKeys = last.primaryKeys
  before : item.before = firstBefore history item.row
  after : item.after = last.after

namespace Summarizes

variable {history} {item : PendingEntityMutation Value} {position : ℕ} {last : EntityCall Value}

theorem unique {other : PendingEntityMutation Value} {otherPosition : ℕ}
    {otherLast : EntityCall Value} (summarizes : Summarizes history item position last)
    (summarizesToo : Summarizes history other otherPosition otherLast)
    (sameRow : item.row = other.row) : item = other := by
  have samePosition : position = otherPosition := by
    have opens := summarizesToo.opens
    rw [← sameRow] at opens
    exact summarizes.opens.unique opens summarizes.stillPending
  have sameLast : last = otherLast := by
    have found := summarizesToo.lastCall
    rw [← sameRow, summarizes.lastCall] at found
    exact Option.some.inj found
  cases item with
  | mk sequence entity metadata primaryKeys before after =>
      cases other with
      | mk =>
          have sequenceEq := summarizes.sequence.trans
            ((congrArg _ samePosition).trans summarizesToo.sequence.symm)
          have entityEq := summarizes.entity.trans
            ((congrArg _ sameLast).trans summarizesToo.entity.symm)
          have metadataEq := summarizes.metadata.trans
            ((congrArg _ sameLast).trans summarizesToo.metadata.symm)
          have primaryKeysEq := summarizes.primaryKeys.trans
            ((congrArg _ sameLast).trans summarizesToo.primaryKeys.symm)
          have beforeEq := summarizes.before.trans
            ((congrArg _ sameRow).trans summarizesToo.before.symm)
          have afterEq := summarizes.after.trans
            ((congrArg _ sameLast).trans summarizesToo.after.symm)
          simp only at sequenceEq entityEq metadataEq primaryKeysEq beforeEq afterEq
          rw [sequenceEq, entityEq, metadataEq, primaryKeysEq, beforeEq, afterEq]

theorem recorded (summarizes : Summarizes history item position last) :
    .entity last ∈ history ∧ last.row = item.row :=
  mem_calls_iff.mp (List.mem_of_getLast? summarizes.lastCall)

theorem append_other {entry : Entry Value} (summarizes : Summarizes history item position last)
    (other : ∀ call, entry = .entity call → call.row ≠ item.row) :
    Summarizes (history ++ [entry]) item position last := by
  have still := (pending_append_other other).mpr summarizes.stillPending
  have below := summarizes.opens.lt_of_pending summarizes.stillPending
  constructor
  case stillPending => exact still
  case opens => exact summarizes.opens.append summarizes.stillPending still
  case sequence => rw [sequenceAt_append below.le, summarizes.sequence]
  case lastCall => rw [calls_append_other other, summarizes.lastCall]
  case before => rw [firstBefore, calls_append_other other, ← firstBefore, summarizes.before]
  case entity => exact summarizes.entity
  case metadata => exact summarizes.metadata
  case primaryKeys => exact summarizes.primaryKeys
  case after => exact summarizes.after

end Summarizes

end History

end ServerFoundation.Database
