import ServerFoundation.Reflection.MetadataRevival

/-!
# The walk through a value

The walk of `reviveCompactMetadata` under the invariant: whatever answers the markers, the walk
leaves every place below the value with what it holds in the graph. With it, `resolve` answers
by induction on its fuel.
-/

namespace ServerFoundation.Reflection.CompactMetadata

theorem sizeOf_lt_of_mem_parts {value part : JsonValue} (mem : part ∈ parts value) :
    sizeOf part < sizeOf value := by
  cases value with
  | array items =>
      change part ∈ items at mem
      have := List.sizeOf_lt_of_mem mem
      simp only [JsonValue.array.sizeOf_spec]
      omega
  | object members =>
      simp only [parts] at mem
      split_ifs at mem
      · cases mem
      · rcases List.mem_map.mp mem with ⟨⟨key, member⟩, memMembers, same⟩
        dsimp only at same
        subst same
        have := List.sizeOf_lt_of_mem memMembers
        simp only [JsonValue.object.sizeOf_spec, Prod.mk.sizeOf_spec] at this ⊢
        omega
  | null => cases mem
  | boolean value => cases mem
  | number value => cases mem
  | string text => cases mem

theorem parts_induction {property : JsonValue → Prop}
    (step : ∀ value, (∀ part ∈ parts value, property part) → property value) (value : JsonValue) :
    property value :=
  step value fun part mem =>
    have := sizeOf_lt_of_mem_parts mem
    parts_induction step part
termination_by sizeOf value

theorem bind_ok {First Second : Type} {action : Action First} {next : First → Action Second}
    {before after : State} {result : First} (ran : action before = .ok (result, after)) :
    (action >>= next) before = next result after := by
  change (action before >>= fun pair => next pair.1 pair.2) = _
  rw [ran]
  rfl

section Equations

variable (recipe : List (String × JsonValue) → Except String Value) (answer : Entry → Action Value)
  {value : JsonValue}

theorem reviveMembers_eq (members : List (String × JsonValue)) (address : Address)
    (position : ℕ) : reviveMembers recipe answer members address position =
      reviveItems recipe answer (members.map Prod.snd) address position := by
  induction members generalizing position with
  | nil => rfl
  | cons member members ih =>
      rcases member with ⟨key, value⟩
      simp only [reviveMembers, reviveItems, List.map_cons, ih]

theorem reviveItems_cons {item : JsonValue} (items : List JsonValue) {address : Address}
    {position : ℕ} {before after : State} {meaning : Value}
    (unwritten : before.places (address.child position) = none)
    (revived : reviveCompactMetadata recipe answer item (address.child position) before =
      .ok (meaning, after)) :
    reviveItems recipe answer (item :: items) address position before =
      reviveItems recipe answer items address (position + 1)
        (after.assign (address.child position) meaning) := by
  have read : readPlace (address.child position) before = .ok ((), before) := by
    rw [readPlace, bind_ok (rfl : (get : Action State) before = .ok (before, before)), unwritten]
    rfl
  simp only [reviveItems]
  rw [bind_ok read, bind_ok revived]
  rfl

theorem reviveCompactMetadata_plain {address : Address} {before after : State}
    (plain : ∀ members, value = .object members → isRecipe members = false)
    (unmarked : marker? value = none)
    (walked : reviveItems recipe answer (parts value) address 0 before = .ok ((), after)) :
    reviveCompactMetadata recipe answer value address before =
      .ok (original address value, after) := by
  cases value with
  | array items =>
      simp only [reviveCompactMetadata]
      exact bind_ok walked
  | object members =>
      simp only [parts, unmarked, Option.isSome_none, Bool.false_eq_true, if_false] at walked
      rw [← reviveMembers_eq] at walked
      simp only [reviveCompactMetadata, plain members rfl, unmarked, Bool.false_eq_true, if_false]
      exact bind_ok walked
  | null =>
      cases walked
      rfl
  | boolean value =>
      cases walked
      rfl
  | number value =>
      cases walked
      rfl
  | string text =>
      cases walked
      rfl

theorem reviveCompactMetadata_marker (address : Address) {target : Entry}
    (plain : ∀ members, value = .object members → isRecipe members = false)
    (marks : marker? value = some target) :
    reviveCompactMetadata recipe answer value address = answer target := by
  cases value with
  | object members =>
      simp only [reviveCompactMetadata, plain members rfl, marks, Bool.false_eq_true, if_false]
  | array items => cases marks
  | null => cases marks
  | boolean value => cases marks
  | number value => cases marks
  | string text => cases marks

theorem parts_marker {target : Entry} (marks : marker? value = some target) : parts value = [] := by
  cases value with
  | object members => simp [parts, marks]
  | array items => cases marks
  | null => rfl
  | boolean value => rfl
  | number value => rfl
  | string text => rfl

end Equations

section Walking

variable {payload : Payload} {pending : List Entry} {address : Address}

/-- No entry that is under way and is itself a marker can be reached. -/
def Safe (payload : Payload) (pending : List Entry) (entry : Entry) : Prop :=
  ∀ early ∈ pending, ∀ value target, payload.encoded? early = some value →
    marker? value = some target → ¬ payload.Reaches entry early

/-- What an answer for an entry leaves behind. -/
structure Answered (payload : Payload) (pending : List Entry) (entry : Entry) (meaning : Value)
    (before after : State) : Prop where
  holds : payload.Holds (.root entry) meaning
  sound : Sound payload pending after
  initialized : after.initialized entry = true
  extended : Extends payload entry (fun _ => False) before after

/-- An answer for every entry, as long as there are fewer entries to be opened. -/
def Answers (payload : Payload) (bound : ℕ) (answer : Entry → Action Value) : Prop :=
  ∀ entry pending before, (payload.encoded? entry).isSome → Sound payload pending before →
    Safe payload pending entry → unopened payload before < bound →
    ∃ meaning after, answer entry before = .ok (meaning, after) ∧
      Answered payload pending entry meaning before after

/-- What the walk of a value leaves behind. -/
structure Revived (payload : Payload) (pending : List Entry) (address : Address)
    (meaning : Value) (before after : State) : Prop where
  holds : payload.Holds address meaning
  sound : Sound payload pending after
  walked : Walked payload after address
  extended : Extends payload address.entry
    (fun place => address.Below place ∧ place ≠ address) before after

variable (recipe : List (String × JsonValue) → Except String Value) {bound : ℕ}
  {answer : Entry → Action Value} {entry : Entry}

/-- The walk of a value succeeds, wherever the value stands in the entry. -/
def Revives (payload : Payload) (pending : List Entry) (entry : Entry) (bound : ℕ)
    (answer : Entry → Action Value) (value : JsonValue) : Prop :=
  ∀ address before, address.entry = entry → payload.at? address = some value →
    Sound payload pending before →
    (∀ place, address.Below place → place ≠ address → before.places place = none) →
    unopened payload before < bound →
    ∃ meaning after,
      reviveCompactMetadata recipe answer value address before = .ok (meaning, after) ∧
        Revived payload pending address meaning before after

/-- The places from a position on. -/
def Address.From (address : Address) (position : ℕ) (place : Address) : Prop :=
  ∃ later, position ≤ later ∧ (address.child later).Below place

theorem Address.From.below {place : Address} {position : ℕ} (inside : address.From position place) :
    address.Below place ∧ place ≠ address := by
  rcases inside with ⟨later, _, below⟩
  refine ⟨Address.below_child.trans below, fun same => ?_⟩
  rw [same] at below
  exact Address.not_child_below below

theorem Address.not_from_succ {place : Address} {position : ℕ}
    (below : (address.child position).Below place) : ¬ address.From (position + 1) place := by
  rintro ⟨later, after, belowToo⟩
  have := below.position_unique belowToo
  omega

theorem reviveItems_revives (isPending : entry ∈ pending) (items : List JsonValue)
    (walks : ∀ item ∈ items, Revives recipe payload pending entry bound answer item) {position : ℕ}
    {before : State} (inEntry : address.entry = entry) (found : ∀ offset < items.length,
      payload.at? (address.child (position + offset)) = items[offset]?)
    (sound : Sound payload pending before)
    (unwritten : ∀ place, address.From position place → before.places place = none)
    (room : unopened payload before < bound) :
    ∃ after, reviveItems recipe answer items address position before = .ok ((), after) ∧
      Sound payload pending after ∧
      (∀ offset < items.length, Walked payload after (address.child (position + offset)) ∧
        (after.places (address.child (position + offset))).isSome) ∧
      Extends payload entry (address.From position) before after := by
  induction items generalizing position before with
  | nil => exact ⟨before, rfl, sound, by simp, Extends.refl before⟩
  | cons item items ih =>
      have isPart : payload.at? (address.child position) = some item := by
        simpa using found 0 (by simp)
      have opened : ∀ {state : State}, Sound payload pending state →
          state.initialized address.entry = true := by
        intro state sound
        rw [inEntry]
        exact (sound.published entry isPending).1
      rcases walks item (by simp) (address.child position) before inEntry isPart sound
        (fun place below _ => unwritten place ⟨position, Nat.le_refl position, below⟩) room with
        ⟨meaning, middle, ran, revived⟩
      have assigned : Sound payload pending (middle.assign (address.child position) meaning) :=
        revived.sound.assign (opened revived.sound) (by simp) revived.holds
      have stepped : Extends payload entry (fun place => (address.child position).Below place)
          before (middle.assign (address.child position) meaning) := by
        rw [← inEntry]
        exact (revived.extended.weaken fun place inside => inside.1).trans
          (Extends.assign meaning middle (Address.Below.refl _))
      have unwrittenLater : ∀ place, address.From (position + 1) place →
          (middle.assign (address.child position) meaning).places place = none := by
        intro place inside
        have initialized : before.initialized place.entry = true := by
          rw [inside.below.1.1]
          exact opened sound
        rw [stepped.kept place initialized fun below => Address.not_from_succ below inside]
        rcases inside with ⟨later, after, below⟩
        exact unwritten place ⟨later, by omega, below⟩
      have foundLater : ∀ offset < items.length,
          payload.at? (address.child (position + 1 + offset)) = items[offset]? := by
        intro offset small
        rw [Nat.add_assoc, Nat.add_comm 1 offset]
        exact found (offset + 1) (by simpa using small)
      rcases ih (fun other mem => walks other (List.mem_cons_of_mem item mem)) foundLater
        assigned unwrittenLater (Nat.lt_of_le_of_lt stepped.unopened_le room) with
        ⟨after, rest, soundAfter, filled, extended⟩
      refine ⟨after, ?_, soundAfter, ?_, ?_⟩
      · rw [reviveItems_cons recipe answer items
          (unwritten _ ⟨position, Nat.le_refl position, Address.Below.refl _⟩) ran]
        exact rest
      · intro offset small
        cases offset with
        | succ offset =>
            rw [← Nat.add_assoc, Nat.add_right_comm]
            exact filled offset (by simpa using small)
        | zero =>
            refine ⟨(revived.walked.assign _ meaning).extends_keep extended (opened assigned)
              fun place below => Address.not_from_succ below, ?_⟩
            rw [Nat.add_zero, extended.kept (address.child position) (opened assigned)
              (Address.not_from_succ (Address.Below.refl _))]
            simp [State.assign]
      · refine (stepped.weaken fun place below => ⟨position, Nat.le_refl position, below⟩).trans
          (extended.weaken ?_)
        rintro place ⟨later, after, below⟩
        exact ⟨later, by omega, below⟩

theorem revives (wellFormed : payload.WellFormed) (answers : Answers payload bound answer)
    (isPending : entry ∈ pending)
    (safe : ∀ target, payload.Mentions entry target → Safe payload pending target)
    (value : JsonValue) : Revives recipe payload pending entry bound answer value := by
  induction value using parts_induction with
  | step value ih =>
      intro address before inEntry found sound unwritten room
      have plain : ∀ members, value = .object members → isRecipe members = false := by
        rintro members rfl
        exact wellFormed.plain address members found
      cases marks : marker? value with
      | some target =>
          have mentions : payload.Mentions entry target := ⟨address, value, inEntry, found, marks⟩
          rcases answers target pending before (wellFormed.inRange entry target mentions) sound
            (safe target mentions) room with ⟨meaning, after, ran, answered⟩
          refine ⟨meaning, after, ?_, Payload.Holds.marker found marks answered.holds,
            answered.sound, ?_, ?_⟩
          · rw [reviveCompactMetadata_marker recipe answer address plain marks]
            exact ran
          · apply Walked.of_parts found
            · intro other marksOther
              rw [marks] at marksOther
              cases marksOther
              exact answered.initialized
            · simp [parts_marker marks]
          · rw [inEntry]
            exact Extends.of_mentions mentions (answered.extended.weaken fun _ => False.elim)
      | none =>
          have places : ∀ offset < (parts value).length,
              payload.at? (address.child (0 + offset)) = (parts value)[offset]? := by
            intro offset _
            rw [Nat.zero_add, payload.at?_child found]
          rcases reviveItems_revives recipe isPending (parts value) ih inEntry places sound
            (fun place inside => unwritten place inside.below.1 inside.below.2) room with
            ⟨after, ran, soundAfter, filled, extended⟩
          refine ⟨original address value, after,
            reviveCompactMetadata_plain recipe answer plain marks ran,
            Payload.Holds.itself found marks, soundAfter, ?_, ?_⟩
          · apply Walked.of_parts found
            · simp [marks]
            · intro position small
              simpa using filled position small
          · rw [inEntry]
            exact extended.weaken fun place inside => inside.below

end Walking

section Resolving

variable {payload : Payload} {pending : List Entry} {entry : Entry} {state : State}
  (recipe : List (String × JsonValue) → Except String Value)

theorem mentions_unique {value : JsonValue} {target other : Entry}
    (found : payload.encoded? entry = some value) (marks : marker? value = some target)
    (mentions : payload.Mentions entry other) : other = target := by
  rcases mentions with ⟨place, inside, inEntry, isPlace, marksOther⟩
  by_cases same : place = .root entry
  · subst same
    rw [payload.at?_root, found] at isPlace
    cases isPlace
    exact Option.some.inj (marksOther.symm.trans marks)
  · rcases (Address.root_below inEntry).child same with ⟨position, below⟩
    have isPart := payload.at?_of_below below (by simp [isPlace])
    rw [payload.at?_child (payload.at?_root entry ▸ found), parts_marker marks] at isPart
    simp at isPart

theorem Safe.publish (wellFormed : payload.WellFormed) (safe : Safe payload pending entry)
    {target : Entry} (mentions : payload.Mentions entry target) :
    Safe payload (entry :: pending) target := by
  intro early mem value goal found marks reached
  rcases List.mem_cons.mp mem with same | memPending
  · subst same
    rw [mentions_unique found marks mentions] at reached
    exact wellFormed.grounded early value goal found marks reached
  · exact safe early memPending value goal found marks (mentions.reaches.trans reached)

theorem unopened_publish_lt (value : Value) (found : (payload.encoded? entry).isSome)
    (unopened : state.initialized entry = false) :
    CompactMetadata.unopened payload (state.publish entry value) <
      CompactMetadata.unopened payload state := by
  apply Finset.card_lt_card
  constructor
  · intro other mem
    rw [Finset.mem_filter] at mem ⊢
    refine ⟨mem.1, ?_⟩
    by_cases same : other = entry
    · rw [same]
      exact unopened
    · simpa [State.publish, same] using mem.2
  · intro subset
    have mem := subset (Finset.mem_filter.mpr ⟨payload.mem_entries found, unopened⟩)
    rw [Finset.mem_filter] at mem
    simp [State.publish] at mem

theorem Sound.holds_resolved (sound : Sound payload pending state)
    (safe : Safe payload pending entry) (initialized : state.initialized entry = true) :
    ∃ meaning, state.resolved entry = some meaning ∧ payload.Holds (.root entry) meaning := by
  by_cases mem : entry ∈ pending
  · rcases (sound.published entry mem).2 with ⟨value, found, published⟩
    refine ⟨_, published, Payload.Holds.itself found ?_⟩
    cases marks : marker? value with
    | none => rfl
    | some target =>
        exact absurd Relation.ReflTransGen.refl (safe entry mem value target found marks)
  · exact (sound.finished entry initialized mem).resolved

theorem resolve_initialized (fuel : ℕ) {meaning : Value} (found : (payload.encoded? entry).isSome)
    (initialized : state.initialized entry = true)
    (resolved : state.resolved entry = some meaning) :
    resolve recipe payload (fuel + 1) entry state = .ok (meaning, state) := by
  rcases Option.isSome_iff_exists.mp found with ⟨value, found⟩
  simp only [resolve, found]
  rw [bind_ok (rfl : (get : Action State) state = .ok (state, state))]
  simp only [initialized, Bool.true_eq_false, if_false]
  rw [bind_ok (rfl : (get : Action State) state = .ok (state, state)), resolved]
  rfl

theorem modify_ok (change : State → State) (state : State) :
    (modify change : Action Unit) state = .ok ((), change state) := rfl

theorem resolve_revived (fuel : ℕ) {before after : State} {value : JsonValue} {meaning : Value}
    (found : payload.encoded? entry = some value) (unopened : before.initialized entry = false)
    (revived : reviveCompactMetadata recipe (resolve recipe payload fuel) value (.root entry)
      (before.publish entry (original (.root entry) value)) = .ok (meaning, after)) :
    resolve recipe payload (fuel + 1) entry before =
      .ok (meaning, after.setResolved entry meaning) := by
  simp only [resolve, found]
  rw [bind_ok (rfl : (get : Action State) before = .ok (before, before))]
  simp only [unopened, if_true]
  rw [bind_ok (modify_ok _ before), bind_ok revived, bind_ok (modify_ok _ after)]
  rw [bind_ok (rfl : (get : Action State) (after.setResolved entry meaning) = _)]
  simp only [State.setResolved, Function.update_self, Option.getD_some]
  rfl

theorem resolve_answers (wellFormed : payload.WellFormed)
    (recipe : List (String × JsonValue) → Except String Value) (fuel : ℕ) :
    Answers payload fuel (resolve recipe payload fuel) := by
  induction fuel with
  | zero =>
      intro entry pending before _ _ _ room
      omega
  | succ fuel ih =>
      intro entry pending before isEntry sound safe room
      cases initialized : before.initialized entry with
      | true =>
          rcases sound.holds_resolved safe initialized with ⟨meaning, resolved, holds⟩
          exact ⟨meaning, before, resolve_initialized recipe fuel isEntry initialized resolved,
            holds, sound, initialized, Extends.refl before⟩
      | false =>
          rcases Option.isSome_iff_exists.mp isEntry with ⟨value, found⟩
          have published := sound.publish initialized found
          have unwritten : ∀ place, (Address.root entry).Below place → place ≠ .root entry →
              (before.publish entry (original (.root entry) value)).places place = none := by
            intro place below _
            apply sound.unwritten
            rw [below.1]
            exact initialized
          have fewer := unopened_publish_lt (original (.root entry) value) isEntry initialized
          rcases revives recipe wellFormed ih List.mem_cons_self
            (fun target mentions => safe.publish wellFormed mentions) value (.root entry) _ rfl
            found published unwritten (by omega) with ⟨meaning, after, ran, revived⟩
          have isNew : entry ∉ pending := by
            intro mem
            rw [(sound.published entry mem).1] at initialized
            cases initialized
          refine ⟨meaning, after.setResolved entry meaning,
            resolve_revived recipe fuel found initialized ran, revived.holds,
            revived.sound.finish isNew revived.walked revived.holds,
            (revived.sound.published entry (by simp)).1, ?_, ?_, ?_⟩
          · intro other opened
            apply revived.extended.initialized
            by_cases same : other = entry
            · simp [State.publish, same]
            · simpa [State.publish, same] using opened
          · intro other opened
            rcases revived.extended.fresh other opened with early | reached
            · by_cases same : other = entry
              · rw [same]
                exact Or.inr Relation.ReflTransGen.refl
              · exact Or.inl (by simpa [State.publish, same] using early)
            · exact Or.inr reached
          · intro place opened _
            have different : place.entry ≠ entry := by
              intro same
              rw [same, initialized] at opened
              cases opened
            exact revived.extended.kept place (by simpa [State.publish, different] using opened)
              fun inside => different inside.1.1

end Resolving

end ServerFoundation.Reflection.CompactMetadata
