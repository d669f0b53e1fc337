import Mathlib.Data.Finset.Card
import Mathlib.Data.Finset.Image
import Mathlib.Logic.Relation
import ServerFoundation.Reflection.CompactMetadata

/-!
# The graph of a registry

What a payload says about the graph, read off the tables alone: what stands at a place, which
entries mention which, and what a place holds when every marker stands for the object it
names.
-/

namespace ServerFoundation.Reflection.CompactMetadata

/-- The values that a walk finds in a value. -/
def parts : JsonValue → List JsonValue
  | .array items => items
  | .object members =>
      if (marker? (.object members)).isSome then [] else members.map Prod.snd
  | _ => []

/-- An assignment into a part of a value goes to a place below the place of the value. -/
def Address.Below (address place : Address) : Prop :=
  place.entry = address.entry ∧ address.path <:+ place.path

namespace Address

variable {address place : Address} {position : ℕ}

@[simp] theorem root_entry (entry : Entry) : (root entry).entry = entry := rfl

@[simp] theorem root_path (entry : Entry) : (root entry).path = [] := rfl

@[simp] theorem child_entry : (address.child position).entry = address.entry := rfl

@[simp] theorem child_path : (address.child position).path = position :: address.path := rfl

theorem Below.refl (address : Address) : address.Below address :=
  ⟨rfl, List.suffix_rfl⟩

theorem below_child : address.Below (address.child position) :=
  ⟨rfl, List.suffix_cons position address.path⟩

theorem Below.trans {last : Address} (first : address.Below place) (second : place.Below last) :
    address.Below last :=
  ⟨second.1.trans first.1, first.2.trans second.2⟩

theorem root_below {entry : Entry} (same : place.entry = entry) : (root entry).Below place :=
  ⟨same, List.nil_suffix⟩

theorem Below.child (below : address.Below place) (proper : place ≠ address) :
    ∃ position, (address.child position).Below place := by
  rcases below with ⟨sameEntry, initial, path⟩
  rcases List.eq_nil_or_concat initial with rfl | ⟨before, position, rfl⟩
  · exact absurd (by cases place; cases address; simp_all) proper
  · exact ⟨position, sameEntry, before, by simp [← path]⟩

theorem Below.position_unique {other : ℕ} (first : (address.child position).Below place)
    (second : (address.child other).Below place) : position = other := by
  have same : (address.child position).path = (address.child other).path := by
    apply List.IsSuffix.eq_of_length
    · exact List.suffix_of_suffix_length_le first.2 second.2 (by simp)
    · simp
  exact (List.cons.inj same).1

theorem not_child_below : ¬ (address.child position).Below address := by
  intro below
  have := below.2.length_le
  simp at this

end Address

namespace Payload

variable (payload : Payload) {place : Address}

/-- The value at the end of a path, as it was parsed. -/
def parsed? (entry : Entry) : List ℕ → Option JsonValue
  | [] => payload.encoded? entry
  | position :: path => (parsed? entry path).bind fun value => (parts value)[position]?

/-- The parsed value at a place. -/
def at? (place : Address) : Option JsonValue := payload.parsed? place.entry place.path

@[simp] theorem at?_root (entry : Entry) : payload.at? (.root entry) = payload.encoded? entry := rfl

theorem at?_child {value : JsonValue} (found : payload.at? place = some value) (position : ℕ) :
    payload.at? (place.child position) = (parts value)[position]? := by
  change (payload.at? place).bind _ = _
  rw [found]
  rfl

theorem at?_of_child {position : ℕ} (found : (payload.at? (place.child position)).isSome) :
    (payload.at? place).isSome := by
  change ((payload.at? place).bind _).isSome at found
  cases outer : payload.at? place with
  | none => simp [outer] at found
  | some value => rfl

theorem at?_of_below {address : Address} (below : address.Below place)
    (found : (payload.at? place).isSome) : (payload.at? address).isSome := by
  rcases address with ⟨entry, path⟩
  rcases place with ⟨placeEntry, placePath⟩
  rcases below with ⟨sameEntry, initial, split⟩
  dsimp only at sameEntry split
  subst sameEntry split
  induction initial with
  | nil => exact found
  | cons position initial ih => exact ih (at?_of_child payload found)

/-- An entry has a marker of another somewhere. -/
def Mentions (entry target : Entry) : Prop :=
  ∃ place value, place.entry = entry ∧ payload.at? place = some value ∧ marker? value = some target

/-- An entry leads to another one. -/
def Reaches : Entry → Entry → Prop := Relation.ReflTransGen payload.Mentions

/-- What a place holds in the graph: the value itself, or the value that its marker stands
for. -/
inductive Holds : Address → Value → Prop where
  | itself {place : Address} {value : JsonValue} (found : payload.at? place = some value)
      (plain : marker? value = none) : Holds place (original place value)
  | marker {place : Address} {value : JsonValue} {target : Entry} {meaning : Value}
      (found : payload.at? place = some value) (marks : marker? value = some target)
      (stands : Holds (.root target) meaning) : Holds place meaning

variable {payload}

theorem Holds.unique {first second : Value} (left : payload.Holds place first)
    (right : payload.Holds place second) : first = second := by
  induction left with
  | itself found plain =>
      cases right with
      | itself foundToo _ => rw [Option.some.inj (found.symm.trans foundToo)]
      | marker foundToo marks _ =>
          rw [Option.some.inj (found.symm.trans foundToo), marks] at plain
          cases plain
  | marker found marks stands ih =>
      cases right with
      | itself foundToo plain =>
          rw [Option.some.inj (found.symm.trans foundToo), plain] at marks
          cases marks
      | marker foundToo marksToo standsToo =>
          rw [Option.some.inj (found.symm.trans foundToo), marksToo] at marks
          cases marks
          exact ih standsToo

theorem Holds.found {meaning : Value} (holds : payload.Holds place meaning) :
    (payload.at? place).isSome := by
  cases holds with
  | itself found _ => simp [found]
  | marker found _ _ => simp [found]

theorem Mentions.reaches {entry target : Entry} (mentions : payload.Mentions entry target) :
    payload.Reaches entry target :=
  Relation.ReflTransGen.single mentions

variable (payload)

/-- A registry without values of the side table, whose markers name entries of the tables, and
where no entry that is itself a marker leads back to itself. -/
structure WellFormed : Prop where
  inRange : ∀ entry target, payload.Mentions entry target → (payload.encoded? target).isSome
  plain : ∀ place members, payload.at? place = some (.object members) → isRecipe members = false
  grounded : ∀ entry value target, payload.encoded? entry = some value →
    marker? value = some target → ¬ payload.Reaches target entry

/-- The entries of the two tables. -/
def entries : Finset Entry :=
  (Finset.range payload.types.length).image (fun (index : ℕ) => Entry.type index) ∪
    (Finset.range payload.nodes.length).image fun (index : ℕ) => Entry.node index

theorem position_of_isSome {values : List JsonValue} {index : ℤ}
    (found : (if index < 0 then none else values[index.toNat]?).isSome) :
    ∃ position < values.length, (position : ℤ) = index := by
  split_ifs at found with negative
  · cases found
  · refine ⟨index.toNat, by simpa using found, ?_⟩
    omega

theorem mem_entries {entry : Entry} (found : (payload.encoded? entry).isSome) :
    entry ∈ payload.entries := by
  simp only [entries, Finset.mem_union, Finset.mem_image, Finset.mem_range]
  cases entry with
  | type index =>
      rcases position_of_isSome found with ⟨position, bound, same⟩
      exact Or.inl ⟨position, bound, congrArg Entry.type same⟩
  | node index =>
      rcases position_of_isSome found with ⟨position, bound, same⟩
      exact Or.inr ⟨position, bound, congrArg Entry.node same⟩

theorem card_entries_le : payload.entries.card ≤ payload.types.length + payload.nodes.length := by
  apply (Finset.card_union_le _ _).trans
  apply Nat.add_le_add
  · exact Finset.card_image_le.trans (by simp)
  · exact Finset.card_image_le.trans (by simp)

end Payload

end ServerFoundation.Reflection.CompactMetadata
