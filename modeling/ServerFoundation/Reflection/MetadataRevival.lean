import ServerFoundation.Reflection.MetadataGraph

/-!
# The registry between two steps

While an entry is revived, others are asked for, and they already hold the objects that are
still being walked. The invariant names the entries whose walk is under way. Such an entry has
been published as it was parsed, every other initialised entry is finished, and what has been
assigned to a place is what the place holds in the graph.
-/

namespace ServerFoundation.Reflection.CompactMetadata

variable (payload : Payload)

/-- Nothing is left to be done at a place and below it. -/
structure Walked (state : State) (address : Address) : Prop where
  targets : ∀ place value target, address.Below place → payload.at? place = some value →
    marker? value = some target → state.initialized target = true
  filled : ∀ place, address.Below place → place ≠ address → (payload.at? place).isSome →
    (state.places place).isSome

/-- An entry has its final value. -/
structure Finished (state : State) (entry : Entry) : Prop where
  resolved : ∃ meaning, state.resolved entry = some meaning ∧ payload.Holds (.root entry) meaning
  walked : Walked payload state (.root entry)

/-- The invariant, for the entries that are being revived. -/
structure Sound (pending : List Entry) (state : State) : Prop where
  published : ∀ entry ∈ pending, state.initialized entry = true ∧
    ∃ value, payload.encoded? entry = some value ∧
      state.resolved entry = some (original (.root entry) value)
  finished : ∀ entry, state.initialized entry = true → entry ∉ pending →
    Finished payload state entry
  placed : ∀ place meaning, state.places place = some meaning →
    state.initialized place.entry = true ∧ place.path ≠ [] ∧ payload.Holds place meaning
  blank : ∀ entry, state.initialized entry = false → state.resolved entry = none

/-- Entries are only initialised if they can be reached, and the places of earlier entries are not
assigned to, except the touched ones. -/
structure Extends (root : Entry) (touched : Address → Prop) (before after : State) : Prop where
  initialized : ∀ entry, before.initialized entry = true → after.initialized entry = true
  fresh : ∀ entry, after.initialized entry = true →
    before.initialized entry = true ∨ payload.Reaches root entry
  kept : ∀ place, before.initialized place.entry = true → ¬ touched place →
    after.places place = before.places place

/-- The entries that have not been asked for. -/
def unopened (state : State) : ℕ :=
  (payload.entries.filter fun entry => state.initialized entry = false).card

variable {payload}

theorem Sound.start : Sound payload [] State.initial where
  published := by simp
  finished := by
    intro entry initialized
    cases initialized
  placed := by
    intro place meaning written
    cases written
  blank := by
    intro entry _
    rfl

namespace Extends

variable {root : Entry} {touched : Address → Prop} {before middle after : State}

theorem refl (state : State) : Extends payload root touched state state where
  initialized := fun _ initialized => initialized
  fresh := fun _ initialized => Or.inl initialized
  kept := fun _ _ _ => rfl

theorem trans (first : Extends payload root touched before middle)
    (second : Extends payload root touched middle after) :
    Extends payload root touched before after where
  initialized := fun entry initialized =>
    second.initialized entry (first.initialized entry initialized)
  fresh := by
    intro entry initialized
    rcases second.fresh entry initialized with early | reached
    · exact first.fresh entry early
    · exact Or.inr reached
  kept := by
    intro place initialized untouched
    rw [second.kept place (first.initialized _ initialized) untouched,
      first.kept place initialized untouched]

theorem weaken {wider : Address → Prop} (step : Extends payload root touched before after)
    (included : ∀ place, touched place → wider place) :
    Extends payload root wider before after where
  initialized := step.initialized
  fresh := step.fresh
  kept := fun place initialized untouched =>
    step.kept place initialized fun inside => untouched (included place inside)

theorem of_mentions {target : Entry} (mentions : payload.Mentions root target)
    (step : Extends payload target touched before after) :
    Extends payload root touched before after where
  initialized := step.initialized
  fresh := by
    intro entry initialized
    rcases step.fresh entry initialized with early | reached
    · exact Or.inl early
    · exact Or.inr (mentions.reaches.trans reached)
  kept := step.kept

theorem assign {place : Address} (meaning : Value) (state : State) (inside : touched place) :
    Extends payload root touched state (state.assign place meaning) where
  initialized := fun _ initialized => initialized
  fresh := fun _ initialized => Or.inl initialized
  kept := by
    intro other _ untouched
    have different : other ≠ place := fun same => untouched (same ▸ inside)
    simp [State.assign, different]

theorem unopened_le (step : Extends payload root touched before after) :
    unopened payload after ≤ unopened payload before := by
  apply Finset.card_le_card
  intro entry mem
  simp only [Finset.mem_filter] at mem ⊢
  refine ⟨mem.1, ?_⟩
  cases early : before.initialized entry with
  | false => rfl
  | true => simp [step.initialized entry early] at mem

end Extends

namespace Walked

variable {root : Entry} {touched : Address → Prop} {before after : State} {address : Address}

theorem extends_keep (walked : Walked payload before address)
    (step : Extends payload root touched before after)
    (initialized : before.initialized address.entry = true)
    (untouched : ∀ place, address.Below place → ¬ touched place) :
    Walked payload after address where
  targets := fun place value target below found marks =>
    step.initialized target (walked.targets place value target below found marks)
  filled := by
    intro place below proper found
    have same : before.initialized place.entry = true := by rw [below.1]; exact initialized
    rw [step.kept place same (untouched place below)]
    exact walked.filled place below proper found

theorem assign (walked : Walked payload before address) (place : Address) (meaning : Value) :
    Walked payload (before.assign place meaning) address where
  targets := walked.targets
  filled := by
    intro other below proper found
    by_cases same : other = place
    · simp [State.assign, same]
    · simpa [State.assign, same] using walked.filled other below proper found

theorem of_parts {value : JsonValue} (found : payload.at? address = some value)
    (target : ∀ target, marker? value = some target → before.initialized target = true)
    (parts : ∀ position < (parts value).length, Walked payload before (address.child position) ∧
      (before.places (address.child position)).isSome) :
    Walked payload before address := by
  have inner : ∀ place, address.Below place → place ≠ address → (payload.at? place).isSome →
      ∃ position, (address.child position).Below place ∧
        Walked payload before (address.child position) ∧
        (before.places (address.child position)).isSome := by
    intro place below proper isPlace
    rcases below.child proper with ⟨position, below⟩
    have isPart := payload.at?_of_below below isPlace
    rw [payload.at?_child found] at isPart
    exact ⟨position, below, parts position (by simpa using isPart)⟩
  constructor
  · intro place inside marked below isPlace marks
    by_cases same : place = address
    · subst same
      rw [found] at isPlace
      cases isPlace
      exact target marked marks
    · rcases inner place below same (by simp [isPlace]) with ⟨position, below, walked, _⟩
      exact walked.targets place inside marked below isPlace marks
  · intro place below proper isPlace
    rcases inner place below proper isPlace with ⟨position, below, walked, written⟩
    by_cases same : place = address.child position
    · rw [same]
      exact written
    · exact walked.filled place below same isPlace

end Walked

namespace Sound

variable {pending : List Entry} {state : State}

theorem assign (sound : Sound payload pending state) {place : Address} {meaning : Value}
    (initialized : state.initialized place.entry = true) (inner : place.path ≠ [])
    (holds : payload.Holds place meaning) :
    Sound payload pending (state.assign place meaning) where
  published := sound.published
  finished := by
    intro entry opened notPending
    rcases sound.finished entry opened notPending with ⟨resolved, walked⟩
    exact ⟨resolved, walked.assign place meaning⟩
  placed := by
    intro other written assigned
    by_cases same : other = place
    · subst same
      simp only [State.assign, Function.update_self, Option.some.injEq] at assigned
      subst assigned
      exact ⟨initialized, inner, holds⟩
    · simp only [State.assign, Function.update_of_ne same] at assigned
      exact sound.placed other written assigned
  blank := sound.blank

theorem unwritten (sound : Sound payload pending state) {place : Address}
    (unopened : state.initialized place.entry = false) : state.places place = none := by
  cases written : state.places place with
  | none => rfl
  | some meaning =>
      rw [(sound.placed place meaning written).1] at unopened
      cases unopened

theorem publish (sound : Sound payload pending state) {entry : Entry} {value : JsonValue}
    (unopened : state.initialized entry = false) (found : payload.encoded? entry = some value) :
    Sound payload (entry :: pending) (state.publish entry (original (.root entry) value)) where
  published := by
    intro other mem
    by_cases same : other = entry
    · subst same
      simp [State.publish, found]
    · simpa [State.publish, same] using
        sound.published other ((List.mem_cons.mp mem).resolve_left same)
  finished := by
    intro other opened notPending
    rw [List.mem_cons, not_or] at notPending
    simp only [State.publish, Function.update_of_ne notPending.1] at opened
    rcases sound.finished other opened notPending.2 with ⟨resolved, walked⟩
    constructor
    · simpa [State.publish, notPending.1] using resolved
    · constructor
      · intro place inside target below isPlace marks
        have early := walked.targets place inside target below isPlace marks
        by_cases same : target = entry
        · simp [State.publish, same]
        · simpa [State.publish, same] using early
      · exact walked.filled
  placed := by
    intro place meaning written
    rcases sound.placed place meaning written with ⟨opened, inner, holds⟩
    have different : place.entry ≠ entry := by
      intro same
      rw [same, unopened] at opened
      cases opened
    exact ⟨by simpa [State.publish, different] using opened, inner, holds⟩
  blank := by
    intro other closed
    by_cases same : other = entry
    · simp [State.publish, same] at closed
    · simp only [State.publish, Function.update_of_ne same] at closed ⊢
      exact sound.blank other closed

theorem finish {entry : Entry} {meaning : Value} (sound : Sound payload (entry :: pending) state)
    (isNew : entry ∉ pending) (walked : Walked payload state (.root entry))
    (holds : payload.Holds (.root entry) meaning) :
    Sound payload pending (state.setResolved entry meaning) where
  published := by
    intro other mem
    have different : other ≠ entry := fun same => isNew (same ▸ mem)
    simpa [State.setResolved, different] using
      sound.published other (List.mem_cons_of_mem entry mem)
  finished := by
    intro other opened notPending
    by_cases same : other = entry
    · subst same
      exact ⟨⟨meaning, by simp [State.setResolved], holds⟩, ⟨walked.targets, walked.filled⟩⟩
    · rcases sound.finished other opened (by simp [same, notPending]) with ⟨resolved, walkedToo⟩
      refine ⟨?_, ⟨walkedToo.targets, walkedToo.filled⟩⟩
      simpa [State.setResolved, same] using resolved
  placed := sound.placed
  blank := by
    intro other closed
    change state.initialized other = false at closed
    have different : other ≠ entry := by
      intro same
      rw [same, (sound.published entry (by simp)).1] at closed
      cases closed
    simpa [State.setResolved, different] using sound.blank other closed

end Sound

end ServerFoundation.Reflection.CompactMetadata
