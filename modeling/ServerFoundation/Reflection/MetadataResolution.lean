import ServerFoundation.Reflection.MetadataWalk

/-!
# Resolution of a registry

Whatever types are asked for first, the calls build one and the same graph. The fields of a
recursive type then hold the object that the type was resolved to.
-/

namespace ServerFoundation.Reflection.CompactMetadata

namespace Payload

/-- What stands at a place in the graph. -/
noncomputable def content (payload : Payload) (place : Address) : Value :=
  open Classical in
  if meant : ∃ meaning, payload.Holds place meaning then meant.choose else .primitive .null

theorem Holds.content_eq {payload : Payload} {place : Address} {meaning : Value}
    (holds : payload.Holds place meaning) : payload.content place = meaning := by
  have meant : ∃ meaning, payload.Holds place meaning := ⟨meaning, holds⟩
  rw [content, dif_pos meant]
  exact meant.choose_spec.unique holds

theorem mem_of_encoded? (payload : Payload) {entry : Entry} {value : JsonValue}
    (found : payload.encoded? entry = some value) : value ∈ payload.types ++ payload.nodes := by
  cases entry with
  | type index =>
      simp only [encoded?] at found
      split_ifs at found
      exact List.mem_append_left _ (List.mem_of_getElem? found)
  | node index =>
      simp only [encoded?] at found
      split_ifs at found
      exact List.mem_append_right _ (List.mem_of_getElem? found)

theorem at?_induction (payload : Payload) {property : JsonValue → Prop}
    (tables : ∀ value ∈ payload.types ++ payload.nodes, property value)
    (inner : ∀ value part, property value → part ∈ parts value → property part)
    {place : Address} {value : JsonValue} (found : payload.at? place = some value) :
    property value := by
  rcases place with ⟨entry, path⟩
  induction path generalizing value with
  | nil => exact tables value (payload.mem_of_encoded? found)
  | cons position path ih =>
      change ((payload.at? ⟨entry, path⟩).bind _) = _ at found
      rcases Option.bind_eq_some_iff.mp found with ⟨outer, foundOuter, isPart⟩
      exact inner outer value (ih foundOuter) (List.mem_of_getElem? isPart)

end Payload

variable {payload : Payload}

theorem Sound.reaches {state : State} (sound : Sound payload [] state) {entry target : Entry}
    (initialized : state.initialized entry = true) (reached : payload.Reaches entry target) :
    state.initialized target = true := by
  induction reached with
  | refl => exact initialized
  | tail _ mentions ih =>
      rcases mentions with ⟨place, value, inEntry, found, marks⟩
      exact (sound.finished _ ih (by simp)).walked.targets place value _
        (Address.root_below inEntry) found marks

theorem Sound.places_eq {state : State} (sound : Sound payload [] state) {place : Address}
    {value : JsonValue} (initialized : state.initialized place.entry = true)
    (found : payload.at? place = some value) (inner : place.path ≠ []) :
    state.places place = some (payload.content place) := by
  have proper : place ≠ .root place.entry := by
    intro same
    rw [same] at inner
    exact inner rfl
  have filled := (sound.finished place.entry initialized (by simp)).walked.filled place
    (Address.root_below rfl) proper (by simp [found])
  rcases Option.isSome_iff_exists.mp filled with ⟨meaning, written⟩
  rw [written, (sound.placed place meaning written).2.2.content_eq]

theorem Sound.eq_of_initialized {first second : State} (left : Sound payload [] first)
    (right : Sound payload [] second) (same : first.initialized = second.initialized) :
    first = second := by
  have written : ∀ {state other : State}, Sound payload [] state → Sound payload [] other →
      state.initialized = other.initialized → ∀ place meaning,
      state.places place = some meaning → other.places place = some meaning := by
    intro state other sound soundOther same place meaning assigned
    rcases sound.placed place meaning assigned with ⟨initialized, inner, holds⟩
    rcases Option.isSome_iff_exists.mp holds.found with ⟨value, found⟩
    rw [soundOther.places_eq (by rw [← same]; exact initialized) found inner, holds.content_eq]
  have resolved : first.resolved = second.resolved := by
    funext entry
    cases initialized : first.initialized entry with
    | false => rw [left.blank entry initialized, right.blank entry (by rw [← same, initialized])]
    | true =>
        rcases (left.finished entry initialized (by simp)).resolved with ⟨meaning, found, holds⟩
        rw [same] at initialized
        rcases (right.finished entry initialized (by simp)).resolved with
          ⟨other, foundOther, holdsOther⟩
        rw [found, foundOther, holds.unique holdsOther]
  have places : first.places = second.places := by
    funext place
    cases assigned : first.places place with
    | some meaning => exact (written left right same place meaning assigned).symm
    | none =>
        cases assignedOther : second.places place with
        | none => rfl
        | some meaning =>
            rw [written right left same.symm place meaning assignedOther] at assigned
            cases assigned
  cases first
  cases second
  simp_all

section Calls

variable (recipe : List (String × JsonValue) → Except String Value)

/-- What a series of calls leaves behind. -/
structure Called (payload : Payload) (indexes : List ℤ) (before after : State) : Prop where
  sound : Sound payload [] after
  initialized : ∀ entry, after.initialized entry = true ↔
    before.initialized entry = true ∨ ∃ index ∈ indexes, payload.Reaches (.type index) entry

theorem resolveTypes_called (wellFormed : payload.WellFormed) {fuel : ℕ}
    (room : payload.types.length + payload.nodes.length < fuel) (indexes : List ℤ)
    (inRange : ∀ index ∈ indexes, (payload.encoded? (.type index)).isSome) {before : State}
    (sound : Sound payload [] before) :
    ∃ after, resolveTypes recipe payload fuel indexes before =
        .ok (indexes.map fun index => payload.content (.root (.type index)), after) ∧
      Called payload indexes before after := by
  induction indexes generalizing before with
  | nil => exact ⟨before, rfl, sound, by simp⟩
  | cons index indexes ih =>
      have fewer : unopened payload before < fuel := by
        have := Finset.card_filter_le payload.entries fun entry => before.initialized entry = false
        have := payload.card_entries_le
        unfold unopened
        omega
      rcases resolve_answers wellFormed recipe fuel (.type index) [] before
        (inRange index (by simp)) sound (by simp [Safe]) fewer with ⟨meaning, middle, ran, answered⟩
      rcases ih (fun other mem => inRange other (List.mem_cons_of_mem index mem))
        answered.sound with ⟨after, rest, called⟩
      refine ⟨after, ?_, called.sound, ?_⟩
      · simp only [resolveTypes]
        rw [bind_ok ran, bind_ok rest, List.map_cons, answered.holds.content_eq]
        rfl
      · intro entry
        rw [called.initialized entry]
        constructor
        · rintro (early | ⟨other, mem, reached⟩)
          · rcases answered.extended.fresh entry early with early | reached
            · exact Or.inl early
            · exact Or.inr ⟨index, by simp, reached⟩
          · exact Or.inr ⟨other, List.mem_cons_of_mem index mem, reached⟩
        · rintro (early | ⟨other, mem, reached⟩)
          · exact Or.inl (answered.extended.initialized entry early)
          · rcases List.mem_cons.mp mem with same | mem
            · subst same
              exact Or.inl (answered.sound.reaches answered.initialized reached)
            · exact Or.inr ⟨other, mem, reached⟩

/-- A registry holds a graph: at every place of an initialised entry stands the parsed value, or,
for a marker, what the entry of the marker is resolved to. -/
structure Renders (payload : Payload) (fuel : ℕ) (content : Address → Value) (state : State) :
    Prop where
  places : ∀ place value, state.initialized place.entry = true →
    payload.at? place = some value → place.path ≠ [] → state.places place = some (content place)
  plain : ∀ place value, state.initialized place.entry = true →
    payload.at? place = some value → marker? value = none → content place = original place value
  marker : ∀ place value target, state.initialized place.entry = true →
    payload.at? place = some value → marker? value = some target →
      resolve recipe payload fuel target state = .ok (content place, state)

/-- There is one graph: whatever types are asked for, in whatever order, the calls return its
objects, and the registry holds what can be reached. -/
def ResolvesCorrectly (payload : Payload) : Prop :=
  ∃ content : Address → Value, ∀ fuel, payload.types.length + payload.nodes.length < fuel →
    ∀ indexes : List ℤ, (∀ index ∈ indexes, (payload.encoded? (.type index)).isSome) →
      ∃ state,
        (∀ others : List ℤ, (∀ index, index ∈ others ↔ index ∈ indexes) →
          resolveTypes recipe payload fuel others State.initial =
            .ok (others.map fun index => content (.root (.type index)), state)) ∧
        (∀ entry, state.initialized entry = true ↔
          ∃ index ∈ indexes, payload.Reaches (.type index) entry) ∧
        Renders recipe payload fuel content state

/-- Every order of calls yields the right graph, if no entry that is itself a marker leads back
to itself. -/
theorem resolvesCorrectly (wellFormed : payload.WellFormed) :
    ResolvesCorrectly recipe payload := by
  refine ⟨payload.content, fun fuel room indexes inRange => ?_⟩
  rcases resolveTypes_called recipe wellFormed room indexes inRange Sound.start with
    ⟨state, _, called⟩
  have initialized : ∀ entry, state.initialized entry = true ↔
      ∃ index ∈ indexes, payload.Reaches (.type index) entry := by
    intro entry
    rw [called.initialized]
    simp [State.initial]
  refine ⟨state, fun others same => ?_, initialized, ?_, ?_, ?_⟩
  · rcases resolveTypes_called recipe wellFormed room others
      (fun index mem => inRange index ((same index).mp mem)) Sound.start with
      ⟨other, ranToo, calledToo⟩
    rw [ranToo, calledToo.sound.eq_of_initialized called.sound]
    funext entry
    rw [Bool.eq_iff_iff, calledToo.initialized, called.initialized]
    simp only [same]
  · intro place value opened found inner
    exact called.sound.places_eq opened found inner
  · intro place value _ found plain
    exact (Payload.Holds.itself found plain).content_eq
  · intro place value target opened found marks
    have mentions : payload.Mentions place.entry target := ⟨place, value, rfl, found, marks⟩
    have openedTarget := called.sound.reaches opened mentions.reaches
    rcases (called.sound.finished target openedTarget (by simp)).resolved with
      ⟨meaning, resolved, holds⟩
    rw [(Payload.Holds.marker found marks holds).content_eq]
    rcases Nat.exists_eq_succ_of_ne_zero (by omega : fuel ≠ 0) with ⟨depth, rfl⟩
    exact resolve_initialized recipe depth (wellFormed.inRange _ _ mentions) openedTarget resolved

end Calls

section Examples

/-- The place of an object. -/
def Value.address? : Value → Option Address
  | .object address => some address
  | _ => none

/-- A reference to a type. -/
def typeMarker (index : ℚ) : JsonValue := .object [("$tsfType", .number (.finite index))]

/-- A reference to a shared node. -/
def nodeMarker (index : ℚ) : JsonValue := .object [("$tsfNode", .number (.finite index))]

/-- An array type, and its items. -/
def arrayType (element : JsonValue) : JsonValue :=
  .object [("kind", .number (.finite 14)), ("element", element)]

/-- A type that is a marker of another, which refers back to it. -/
def loopedTypes : Payload := ⟨[typeMarker 1, arrayType (typeMarker 0)], []⟩

/-- A call for the first of the looped types. -/
def loopedRun : Except Failure (List Value × State) :=
  resolveTypes (fun _ => .error "") loopedTypes 3 [0] State.initial

/-- A recursive type by way of a shared node, and a second name of it. -/
def recursiveTypes : Payload :=
  ⟨[arrayType (nodeMarker 0), typeMarker 0], [.array [typeMarker 0]]⟩

theorem marker?_typeMarker_zero : marker? (typeMarker 0) = some (.type 0) := by decide +kernel

theorem marker?_typeMarker_one : marker? (typeMarker 1) = some (.type 1) := by decide +kernel

theorem marker?_nodeMarker_zero : marker? (nodeMarker 0) = some (.node 0) := by decide +kernel

theorem parts_arrayType (element : JsonValue) :
    parts (arrayType element) = [.number (.finite 14), element] := rfl

theorem loopedTypes_values {place : Address} {value : JsonValue}
    (found : loopedTypes.at? place = some value) :
    value = typeMarker 0 ∨ value = typeMarker 1 ∨ value = arrayType (typeMarker 0) ∨
      value = .number (.finite 14) := by
  apply loopedTypes.at?_induction _ _ found
  · simp [loopedTypes]
  · rintro value part (rfl | rfl | rfl | rfl) mem
    · simp [parts_marker marker?_typeMarker_zero] at mem
    · simp [parts_marker marker?_typeMarker_one] at mem
    · rw [parts_arrayType] at mem
      simp only [List.mem_cons, List.not_mem_nil, or_false] at mem
      rcases mem with rfl | rfl
      · simp
      · simp
    · cases mem

/-- The recursion of the type is cut, since the marker itself is the first of the two to be
published. -/
theorem not_resolvesCorrectly_loopedTypes :
    (∀ entry target, loopedTypes.Mentions entry target →
      (loopedTypes.encoded? target).isSome) ∧
    (∀ place members, loopedTypes.at? place = some (.object members) →
      isRecipe members = false) ∧
    (∀ value ∈ loopedTypes.types ++ loopedTypes.nodes, ∃ members, value = .object members) ∧
    ¬ ResolvesCorrectly (fun _ => .error "") loopedTypes := by
  refine ⟨?_, ?_, ?_, ?_⟩
  · rintro entry target ⟨place, value, _, found, marks⟩
    rcases loopedTypes_values found with rfl | rfl | rfl | rfl
    · rw [marker?_typeMarker_zero] at marks
      cases marks
      rfl
    · rw [marker?_typeMarker_one] at marks
      cases marks
      rfl
    · cases marks
    · cases marks
  · intro place members found
    rcases loopedTypes_values found with same | same | same | same
    · cases same
      rfl
    · cases same
      rfl
    · cases same
      rfl
    · cases same
  · simp [loopedTypes, typeMarker, arrayType]
  · rintro ⟨content, renders⟩
    rcases renders 3 (by decide) [0] (by decide) with ⟨state, ran, _, held⟩
    have run : loopedRun = _ := ran [0] (by simp)
    have opened : (loopedRun.toOption.map fun run => run.2.initialized (.type 1)) = some true := by
      decide +kernel
    have stored : (loopedRun.toOption.bind fun run =>
        (run.2.places ⟨.type 1, [1]⟩).bind Value.address?) = some (.root (.type 0)) := by
      decide +kernel
    have returned : (loopedRun.toOption.bind fun run =>
        (resolve (fun _ => .error "") loopedTypes 3 (.type 0) run.2).toOption.bind fun answer =>
          answer.1.address?) = some (.root (.type 1)) := by
      decide +kernel
    rw [run] at opened stored returned
    have initialized : state.initialized (.type 1) = true := Option.some.inj opened
    have found : loopedTypes.at? ⟨.type 1, [1]⟩ = some (typeMarker 0) := rfl
    have place := held.places ⟨.type 1, [1]⟩ (typeMarker 0) initialized found (by simp)
    have answer := held.marker ⟨.type 1, [1]⟩ (typeMarker 0) (.type 0) initialized found
      marker?_typeMarker_zero
    simp only [Except.toOption, Option.bind_some, place] at stored
    simp only [Except.toOption, Option.bind_some, answer, stored] at returned
    cases returned

theorem recursiveTypes_values {place : Address} {value : JsonValue}
    (found : recursiveTypes.at? place = some value) :
    value = typeMarker 0 ∨ value = nodeMarker 0 ∨ value = arrayType (nodeMarker 0) ∨
      value = .array [typeMarker 0] ∨ value = .number (.finite 14) := by
  apply recursiveTypes.at?_induction _ _ found
  · simp [recursiveTypes]
  · rintro value part (rfl | rfl | rfl | rfl | rfl) mem
    · simp [parts_marker marker?_typeMarker_zero] at mem
    · simp [parts_marker marker?_nodeMarker_zero] at mem
    · rw [parts_arrayType] at mem
      simp only [List.mem_cons, List.not_mem_nil, or_false] at mem
      rcases mem with rfl | rfl
      · simp
      · simp
    · simp only [parts, List.mem_singleton] at mem
      exact Or.inl mem
    · cases mem

theorem recursiveTypes_wellFormed : recursiveTypes.WellFormed := by
  have mentioned : ∀ entry target, recursiveTypes.Mentions entry target →
      target = .type 0 ∨ target = .node 0 := by
    rintro entry target ⟨place, value, _, found, marks⟩
    rcases recursiveTypes_values found with rfl | rfl | rfl | rfl | rfl
    · rw [marker?_typeMarker_zero] at marks
      cases marks
      exact Or.inl rfl
    · rw [marker?_nodeMarker_zero] at marks
      cases marks
      exact Or.inr rfl
    · cases marks
    · cases marks
    · cases marks
  constructor
  · intro entry target mentions
    rcases mentioned entry target mentions with rfl | rfl
    · rfl
    · rfl
  · intro place members found
    rcases recursiveTypes_values found with same | same | same | same | same
    · cases same
      rfl
    · cases same
      rfl
    · cases same
      rfl
    · cases same
    · cases same
  · intro entry value target found marks reached
    -- The entries that can be reached are no markers.
    have notMarker : entry = .type 0 ∨ entry = .node 0 := by
      rcases Relation.ReflTransGen.cases_tail reached with same | ⟨middle, _, mentions⟩
      · rw [same]
        exact mentioned entry target ⟨.root entry, value, rfl, found, marks⟩
      · exact mentioned middle entry mentions
    rcases notMarker with rfl | rfl
    · cases found
      cases marks
    · cases found
      cases marks

theorem resolvesCorrectly_recursiveTypes :
    ResolvesCorrectly (fun _ => .error "") recursiveTypes :=
  resolvesCorrectly (fun _ => .error "") recursiveTypes_wellFormed

end Examples

end ServerFoundation.Reflection.CompactMetadata
