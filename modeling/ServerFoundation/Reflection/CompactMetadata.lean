import ServerFoundation.Data.JsonValue

/-!
# Compact metadata

The registry of a module, as `JSON.parse` returns it: a table of types and a table of shared
nodes, whose values refer to each other by markers. An entry is revived when it is first asked
for. Its value is published before the walk through it, and the walk puts what a marker
stands for into the place of the marker.

An object is known by its place in the tables. The values of the side table (constructors,
lazy functions, imported aliases) are a parameter.
-/

namespace ServerFoundation.Reflection.CompactMetadata

/-- An entry of one of the tables. -/
inductive Entry where
  | type (index : ℤ)
  | node (index : ℤ)
deriving DecidableEq, Repr

/-- A place in the tables: the entry, and the positions that lead to it, the last one first. -/
structure Address where
  entry : Entry
  path : List ℕ
deriving DecidableEq, Repr

namespace Address

/-- The place of the value of an entry. -/
def root (entry : Entry) : Address := ⟨entry, []⟩

/-- A place below an object. -/
def child (address : Address) (position : ℕ) : Address :=
  ⟨address.entry, position :: address.path⟩

end Address

/-- A value with its identity: an object or an array is named by the place it was parsed at. -/
inductive Value where
  | primitive (value : JsonValue)
  | object (address : Address)
  | foreign (reference : ℕ)

/-- The two tables of a module. -/
structure Payload where
  types : List JsonValue
  nodes : List JsonValue

/-- Why reviving ends without a value. -/
inductive Failure where
  | thrown (message : String)
  | rewritten (place : Address)
  | outOfFuel
deriving DecidableEq, Repr

/-- The flags and the tables of the registry, and the places that have been assigned to. -/
structure State where
  initialized : Entry → Bool
  resolved : Entry → Option Value
  places : Address → Option Value

/-- Work on a registry that may fail. -/
abbrev Action (Result : Type) := StateT State (Except Failure) Result

namespace State

/-- A registry that has not been asked. -/
def initial : State := ⟨fun _ => false, fun _ => none, fun _ => none⟩

/-- The value of an entry becomes visible. -/
def publish (entry : Entry) (value : Value) (state : State) : State :=
  { state with
    initialized := Function.update state.initialized entry true
    resolved := Function.update state.resolved entry (some value) }

/-- The value of an entry is final. -/
def setResolved (entry : Entry) (value : Value) (state : State) : State :=
  { state with resolved := Function.update state.resolved entry (some value) }

/-- A place of an object is written. -/
def assign (place : Address) (value : Value) (state : State) : State :=
  { state with places := Function.update state.places place (some value) }

end State

/-- `Number.isSafeInteger(value)`, with the integer. -/
def integer? : JsonValue → Option ℤ
  | .number (.finite value) =>
      if (JsNumber.finite value).isSafeInteger then some value.num else none
  | _ => none

/-- `isCompactMetadataReference`. -/
def isCompactMetadataReference : List (String × JsonValue) → Bool
  | [(key, value)] => key = "$tsf" && (integer? value).isSome
  | _ => false

/-- `isCompactMetadataImport`. -/
def isCompactMetadataImport : List (String × JsonValue) → Bool
  | [(key, .array [index, exportName])] =>
      key = "$tsfImport" && (integer? index).isSome && exportName.isString
  | [(key, .array [index, specifier, exportName])] =>
      key = "$tsfImport" && (integer? index).isSome && specifier.isString && exportName.isString
  | _ => false

/-- `isCompactMetadataAlias`. -/
def isCompactMetadataAlias : List (String × JsonValue) → Bool
  | [(key, .array [index, exportName, typeName])] =>
      key = "$tsfAlias" && (integer? index).isSome && exportName.isString && typeName.isString
  | [(key, .array [index, specifier, exportName, typeName])] =>
      key = "$tsfAlias" && (integer? index).isSome && specifier.isString &&
        exportName.isString && typeName.isString
  | _ => false

/-- A member list that stands for a value of the side table. -/
def isRecipe (members : List (String × JsonValue)) : Bool :=
  isCompactMetadataReference members || isCompactMetadataImport members ||
    isCompactMetadataAlias members

/-- `isCompactMetadataType` and `isCompactMetadataNode`, with the entry that is meant. -/
def marker? : JsonValue → Option Entry
  | .object [(key, value)] =>
      if key = "$tsfType" then (integer? value).map .type
      else if key = "$tsfNode" then (integer? value).map .node
      else none
  | _ => none

/-- The value that was parsed at a place. -/
def original (place : Address) : JsonValue → Value
  | .array _ => .object place
  | .object _ => .object place
  | value => .primitive value

/-- `encoded[index]`, for an index in range. -/
def Payload.encoded? (payload : Payload) : Entry → Option JsonValue
  | .type index => if index < 0 then none else payload.types[index.toNat]?
  | .node index => if index < 0 then none else payload.nodes[index.toNat]?

/-- The error for an entry that is not there. -/
def Entry.invalid : Entry → String
  | .type index => "Invalid TSF compact metadata type " ++ toString index
  | .node index => "Invalid TSF compact metadata node " ++ toString index

/-- The loops read every place as it was parsed. A place that has been assigned to before is
beyond the model. -/
def readPlace (place : Address) : Action Unit := do
  let state ← get
  match state.places place with
  | none => return ()
  | some _ => throw (.rewritten place)

section Reviving

variable (recipe : List (String × JsonValue) → Except String Value)
  (resolve : Entry → Action Value)

mutual

/-- `reviveCompactMetadata`. -/
def reviveCompactMetadata : JsonValue → Address → Action Value
  | .array items, address => do
      reviveItems items address 0
      return .object address
  | .object members, address =>
      if isRecipe members then
        match recipe members with
        | .ok value => return value
        | .error message => throw (.thrown message)
      else
        match marker? (.object members) with
        | some entry => resolve entry
        | none => do
            reviveMembers members address 0
            return .object address
  | value, _ => return .primitive value

/-- The loop over the items of an array, from a position on. -/
def reviveItems : List JsonValue → Address → ℕ → Action Unit
  | [], _, _ => return ()
  | item :: items, address, position => do
      readPlace (address.child position)
      let value ← reviveCompactMetadata item (address.child position)
      modify (State.assign (address.child position) value)
      reviveItems items address (position + 1)

/-- The loop over the keys of an object, in their order. -/
def reviveMembers : List (String × JsonValue) → Address → ℕ → Action Unit
  | [], _, _ => return ()
  | (_, member) :: members, address, position => do
      readPlace (address.child position)
      let value ← reviveCompactMetadata member (address.child position)
      modify (State.assign (address.child position) value)
      reviveMembers members address (position + 1)

end

end Reviving

/-- `resolveType` and `resolveNode`. The fuel bounds the depth of nested calls. -/
def resolve (recipe : List (String × JsonValue) → Except String Value) (payload : Payload) :
    ℕ → Entry → Action Value
  | 0, _ => throw .outOfFuel
  | fuel + 1, entry =>
      match payload.encoded? entry with
      | none => throw (.thrown entry.invalid)
      | some value => do
          let before ← get
          if before.initialized entry = false then
            modify (State.publish entry (original (.root entry) value))
            let revived ←
              reviveCompactMetadata recipe (resolve recipe payload fuel) value (.root entry)
            modify (State.setResolved entry revived)
          let after ← get
          return (after.resolved entry).getD (.primitive .null)

/-- Calls of `resolveType` one after the other, with their results. -/
def resolveTypes (recipe : List (String × JsonValue) → Except String Value) (payload : Payload)
    (fuel : ℕ) : List ℤ → Action (List Value)
  | [] => return []
  | index :: indexes => do
      let value ← resolve recipe payload fuel (.type index)
      let values ← resolveTypes recipe payload fuel indexes
      return value :: values

end ServerFoundation.Reflection.CompactMetadata
