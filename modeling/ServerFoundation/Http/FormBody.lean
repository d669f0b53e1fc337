import ServerFoundation.Http.FormPath

/-!
# Form bodies

The fields of a form are inserted into a tree one after the other. A node is an object, an
array by indices, an array by appending, or the values of a path that ends here; a field
whose path needs a node of another kind is refused. The finished tree is turned into a
value, in which arrays may have no holes.
-/

namespace ServerFoundation.Http

variable {Value : Type}

/-- A node of the tree; the children are in the order of their creation. -/
inductive FormNode (Value : Type) where
  | object (children : List (String × FormNode Value))
  | indexedArray (children : List (ℕ × FormNode Value))
  | appendArray (values : List Value)
  | leaf (values : List Value)

/-- The kinds of nodes. -/
inductive FormNodeKind where
  | object
  | indexedArray
  | appendArray
  | leaf
deriving DecidableEq, Repr

/-- The value of a body. -/
inductive FormValue (Value : Type) where
  | value (value : Value)
  | array (items : List (FormValue Value))
  | object (members : List (String × FormValue Value))

/-- The kind of a node. -/
def FormNode.kind : FormNode Value → FormNodeKind
  | .object _ => .object
  | .indexedArray _ => .indexedArray
  | .appendArray _ => .appendArray
  | .leaf _ => .leaf

/-- The kind of node that a token is inserted into. -/
def FormPathToken.expectedKind : FormPathToken → FormNodeKind
  | .property _ => .object
  | .index _ => .indexedArray
  | .append => .appendArray

/-- `createObjectNode`, `createIndexedArrayNode` and `createAppendArrayNode`. -/
def FormPathToken.createNode : FormPathToken → FormNode Value
  | .property _ => .object []
  | .index _ => .indexedArray []
  | .append => .appendArray []

/-- `conflictingStructure`. -/
def conflictingStructure (fieldName : String) : FormError :=
  .badRequest ("Conflicting form field structure at \"" ++ fieldName ++ "\"")

/-- `children.set(key, child)`. -/
@[grind =]
def setChild {Key : Type} [DecidableEq Key] (key : Key) (child : FormNode Value) :
    List (Key × FormNode Value) → List (Key × FormNode Value)
  | [] => [(key, child)]
  | entry :: children =>
      if entry.1 = key then (key, child) :: children else entry :: setChild key child children

/-- What `insertValue` does with the child under the first token: the remaining tokens say whether
the path ends there. -/
def insertChild (fieldName : String) (existing : Option (FormNode Value))
    (remaining : List FormPathToken) (value : Value)
    (insert : FormNode Value → Except FormError (FormNode Value)) :
    Except FormError (FormNode Value) :=
  match remaining, existing with
  | [], none => .ok (.leaf [value])
  | [], some (.leaf values) => .ok (.leaf (values ++ [value]))
  | [], some _ => .error (conflictingStructure fieldName)
  | next :: _, none => insert next.createNode
  | next :: _, some child =>
      if child.kind ≠ next.expectedKind then .error (conflictingStructure fieldName)
      else insert child

/-- `insertValue`. -/
@[grind =]
def insertValue (fieldName : String) :
    FormNode Value → List FormPathToken → Value → Except FormError (FormNode Value)
  | .appendArray values, token :: remaining, value =>
      if token ≠ .append ∨ remaining ≠ [] then .error (conflictingStructure fieldName)
      else .ok (.appendArray (values ++ [value]))
  | .object children, .property name :: remaining, value =>
      (insertChild fieldName (children.lookup name) remaining value fun child =>
        insertValue fieldName child remaining value).map fun child =>
          .object (setChild name child children)
  | .indexedArray children, .index position :: remaining, value =>
      (insertChild fieldName (children.lookup position) remaining value fun child =>
        insertValue fieldName child remaining value).map fun child =>
          .indexedArray (setChild position child children)
  | _, _, _ => .error (conflictingStructure fieldName)

section Materializing

/-- `appendPath`. -/
def appendPath (path key : String) : String := if path = "" then key else path ++ "[" ++ key ++ "]"

/-- The path of an element. -/
def appendIndexPath (path : String) (position : ℕ) : String :=
  path ++ "[" ++ Nat.repr position ++ "]"

/-- The members of an object, or the first error. -/
def collectMembers :
    List (String × Except FormError (FormValue Value)) →
      Except FormError (List (String × FormValue Value))
  | [] => .ok []
  | (_, .error error) :: _ => .error error
  | (name, .ok value) :: members =>
      (collectMembers members).map fun collected => (name, value) :: collected

/-- The loop over the indices, of which `count` are left. -/
def collectItems (path : String) (children : List (ℕ × Except FormError (FormValue Value))) :
    ℕ → ℕ → Except FormError (List (FormValue Value))
  | _, 0 => .ok []
  | position, count + 1 =>
      match children.lookup position with
      | none =>
          .error (.badRequest ("Sparse form array at \"" ++ path ++ "\": missing index " ++
            Nat.repr position))
      | some (.error error) => .error error
      | some (.ok value) =>
          (collectItems path children (position + 1) count).map fun items => value :: items

mutual

/-- `materializeNode`. -/
def materializeNode : FormNode Value → String → Except FormError (FormValue Value)
  | .leaf [value], _ => .ok (.value value)
  | .leaf values, _ => .ok (.array (values.map .value))
  | .appendArray values, _ => .ok (.array (values.map .value))
  | .object children, path => (collectMembers (materializeMembers children path)).map .object
  | .indexedArray [], _ => .ok (.array [])
  | .indexedArray (first :: children), path =>
      (collectItems path (materializeItems (first :: children) path) 0
        ((first :: children).foldl (fun maximum child => max maximum child.1) 0 + 1)).map .array

/-- `materializeNode` for the members of an object. -/
def materializeMembers :
    List (String × FormNode Value) → String →
      List (String × Except FormError (FormValue Value))
  | [], _ => []
  | (name, child) :: children, path =>
      (name, materializeNode child (appendPath path name)) :: materializeMembers children path

/-- `materializeNode` for the elements of an array. -/
def materializeItems :
    List (ℕ × FormNode Value) → String → List (ℕ × Except FormError (FormValue Value))
  | [], _ => []
  | (position, child) :: children, path =>
      (position, materializeNode child (appendIndexPath path position)) ::
        materializeItems children path

end

end Materializing

/-- `FormBodyBuilder`. -/
structure FormBodyBuilder (Value : Type) where
  limits : FormBodyLimits
  root : FormNode Value
  structureCount : ℕ

namespace FormBodyBuilder

/-- A builder without fields. -/
def create (limits : FormBodyLimits) : FormBodyBuilder Value := ⟨limits, .object [], 0⟩

/-- `consumeStructure`. -/
def consumeStructure (builder : FormBodyBuilder Value) :
    Except FormError (FormBodyBuilder Value) :=
  if builder.limits.maxFormFields < builder.structureCount + 1 then
    .error (.payloadTooLarge "Form contains too many fields")
  else .ok { builder with structureCount := builder.structureCount + 1 }

/-- `add`. -/
def add (builder : FormBodyBuilder Value) (field : String × Value) :
    Except FormError (FormBodyBuilder Value) := do
  let counted ← builder.consumeStructure
  let tokens ← parseFormFieldPath field.1 builder.limits
  let root ← insertValue field.1 counted.root tokens field.2
  return { counted with root := root }

/-- `build`. -/
def build (builder : FormBodyBuilder Value) : Except FormError (FormValue Value) :=
  materializeNode builder.root ""

end FormBodyBuilder

/-- The value of a list of fields. -/
def assembleForm (limits : FormBodyLimits) (fields : List (String × Value)) :
    Except FormError (FormValue Value) := do
  let builder ← fields.foldlM FormBodyBuilder.add (FormBodyBuilder.create limits)
  builder.build

end ServerFoundation.Http
