import ServerFoundation.Data.JsonLeaves

/-!
# Redaction of payloads

`redactPayload` replaces the leaves below a protected key and keeps the containers. What becomes
of a leaf depends on its path only: on the outermost protected key, on the safe keys that this one
brings, and on the last step.
-/

namespace ServerFoundation.PayloadRedaction

/-- Replacement used for redacted values. -/
def redacted : String := "REDACTED"

/-- `PayloadRedactionPolicy`. -/
structure PayloadRedactionPolicy where
  classifyKey : String → Option (List String)
  classifyObject : Option (List (String × JsonValue) → Option (List String))

/-- Absent and empty values are kept as-is. -/
def isEmptyLeaf : JsonValue → Bool
  | .null => true
  | .string text => text = ""
  | _ => false

section Redaction

variable (toLowerCase : String → String)

/-- `normalizeKey`. -/
def normalizeKey (key : String) : String :=
  String.ofList ((toLowerCase key).toList.filter fun char => char ≠ '_' ∧ char ≠ '-')

/-- A scalar under a safe descriptor. -/
def keepsAsIs (safeKeys : List String) (key : String) (child : JsonValue) : Bool :=
  normalizeKey toLowerCase key ∈ safeKeys ∧ !child.isContainer

mutual

/-- Redacts every leaf of a protected value, keeping the structure and safe descriptors. -/
def redactSubtree (safeKeys : List String) : JsonValue → JsonValue
  | .array items => .array (redactSubtreeItems safeKeys items)
  | .object members => .object (redactSubtreeMembers safeKeys members)
  | leaf => if isEmptyLeaf leaf then leaf else .string redacted

/-- The elements of a redacted array. -/
def redactSubtreeItems (safeKeys : List String) : List JsonValue → List JsonValue
  | [] => []
  | item :: items => redactSubtree safeKeys item :: redactSubtreeItems safeKeys items

/-- The members of a redacted object. -/
def redactSubtreeMembers (safeKeys : List String) :
    List (String × JsonValue) → List (String × JsonValue)
  | [] => []
  | (key, child) :: members =>
      (key, if keepsAsIs toLowerCase safeKeys key child then child
        else redactSubtree safeKeys child) :: redactSubtreeMembers safeKeys members

end

variable (policy : PayloadRedactionPolicy)

/-- The safe keys that an array element brings of itself. -/
def classifyItem (item : JsonValue) : Option (List String) :=
  match item with
  | .object members => policy.classifyObject.bind fun classifyObject => classifyObject members
  | _ => none

mutual

/-- `redactNode`. -/
def redactNode : JsonValue → JsonValue
  | .array items => .array (redactItems items)
  | .object members => .object (redactMembers members)
  | leaf => leaf

/-- `redactNode` for each element. -/
def redactItems : List JsonValue → List JsonValue
  | [] => []
  | item :: items =>
      (match classifyItem policy item with
        | none => redactNode item
        | some safe =>
            redactSubtree toLowerCase (safe.map (normalizeKey toLowerCase)) item) ::
        redactItems items

/-- `redactNode` for each member. -/
def redactMembers : List (String × JsonValue) → List (String × JsonValue)
  | [] => []
  | (key, child) :: members =>
      (key, match policy.classifyKey (normalizeKey toLowerCase key) with
        | none => redactNode child
        | some safe =>
            redactSubtree toLowerCase (safe.map (normalizeKey toLowerCase)) child) ::
        redactMembers members

end

/-- Returns a deep copy with values selected by the policy redacted. -/
def redactPayload (value : JsonValue) : JsonValue := redactNode toLowerCase policy value

end Redaction

section Protection

open JsonValue

variable (toLowerCase : String → String) (policy : PayloadRedactionPolicy)

/-- The safe keys of the outermost protected key of a path, and the path below this key. -/
def protection : List PathStep → Option (List String × List PathStep)
  | [] => none
  | .item :: path => protection path
  | .key key :: path =>
      match policy.classifyKey (normalizeKey toLowerCase key) with
      | some safe => some (safe, path)
      | none => protection path

/-- The last step is a safe key. -/
def endsSafely (safeKeys : List String) (path : List PathStep) : Bool :=
  match path.getLast? with
  | some (.key key) => normalizeKey toLowerCase key ∈ safeKeys
  | _ => false

/-- A leaf under this path is a secret. -/
def isSecret (path : List PathStep) : Bool :=
  match protection toLowerCase policy path with
  | some (safe, below) =>
      !endsSafely toLowerCase (safe.map (normalizeKey toLowerCase)) below
  | none => false

/-- Two values that differ only in non-empty secrets. -/
def DifferInSecrets (left right : JsonValue) : Prop :=
  left.shape = right.shape ∧ List.Forall₂ (fun first second => first.1 = second.1 ∧
    (first.2 ≠ second.2 → isEmptyLeaf first.2 = false ∧ isEmptyLeaf second.2 = false ∧
      isSecret toLowerCase policy first.1 = true)) left.leaves right.leaves

/-- What becomes of a leaf of a protected value. -/
def subtreeLeaf (safeKeys : List String) : LeafChange := fun path leaf =>
  if endsSafely toLowerCase safeKeys path ∨ isEmptyLeaf leaf then leaf else .string redacted

/-- What becomes of a leaf. -/
def redactLeaf : LeafChange := fun path leaf =>
  if isSecret toLowerCase policy path ∧ isEmptyLeaf leaf = false then .string redacted else leaf

variable {toLowerCase : String → String} {policy : PayloadRedactionPolicy}

theorem subtreeLeaf_item (safeKeys : List String) :
    (subtreeLeaf toLowerCase safeKeys).under .item = subtreeLeaf toLowerCase safeKeys := by
  funext path leaf
  cases path <;> rfl

theorem mapLeaves_subtreeLeaf_key (safeKeys : List String) (key : String) (child : JsonValue) :
    mapLeaves ((subtreeLeaf toLowerCase safeKeys).under (.key key)) child =
      if keepsAsIs toLowerCase safeKeys key child then child
      else mapLeaves (subtreeLeaf toLowerCase safeKeys) child := by
  cases container : child.isContainer with
  | true =>
      rw [if_neg (by simp [keepsAsIs, container])]
      exact mapLeaves_container container fun step => rfl
  | false =>
      rw [mapLeaves_leaf _ container, mapLeaves_leaf _ container]
      by_cases isSafe : normalizeKey toLowerCase key ∈ safeKeys
      · simp [LeafChange.under, subtreeLeaf, endsSafely, keepsAsIs, isSafe, container]
      · simp [LeafChange.under, subtreeLeaf, endsSafely, keepsAsIs, isSafe]

theorem redactLeaf_item :
    (redactLeaf toLowerCase policy).under .item = redactLeaf toLowerCase policy := rfl

theorem redactLeaf_unprotected {key : String}
    (unprotected : policy.classifyKey (normalizeKey toLowerCase key) = none) :
    (redactLeaf toLowerCase policy).under (.key key) = redactLeaf toLowerCase policy := by
  funext path leaf
  have samePath : isSecret toLowerCase policy (.key key :: path) =
      isSecret toLowerCase policy path := by
    simp only [isSecret, protection, unprotected]
  simp only [LeafChange.under, redactLeaf, samePath]

theorem redactLeaf_protected {key : String} {safe : List String}
    (isProtected : policy.classifyKey (normalizeKey toLowerCase key) = some safe) :
    (redactLeaf toLowerCase policy).under (.key key) =
      subtreeLeaf toLowerCase (safe.map (normalizeKey toLowerCase)) := by
  funext path leaf
  simp only [LeafChange.under, redactLeaf, isSecret, protection, isProtected, subtreeLeaf]
  cases endsSafely toLowerCase (safe.map (normalizeKey toLowerCase)) path <;>
    cases isEmptyLeaf leaf <;> rfl

mutual

theorem redactSubtree_eq (safeKeys : List String) : ∀ value : JsonValue,
    redactSubtree toLowerCase safeKeys value =
      mapLeaves (subtreeLeaf toLowerCase safeKeys) value
  | .array items => congrArg array (redactSubtreeItems_eq safeKeys items)
  | .object members => congrArg object (redactSubtreeMembers_eq safeKeys members)
  | .null | .boolean _ | .number _ | .string _ => by
      simp [redactSubtree, mapLeaves, subtreeLeaf, endsSafely]

theorem redactSubtreeItems_eq (safeKeys : List String) : ∀ items : List JsonValue,
    redactSubtreeItems toLowerCase safeKeys items =
      mapLeavesOfItems (subtreeLeaf toLowerCase safeKeys) items
  | [] => rfl
  | item :: items => by
      rw [redactSubtreeItems, mapLeavesOfItems, subtreeLeaf_item, redactSubtree_eq,
        redactSubtreeItems_eq]

theorem redactSubtreeMembers_eq (safeKeys : List String) :
    ∀ members : List (String × JsonValue), redactSubtreeMembers toLowerCase safeKeys members =
      mapLeavesOfMembers (subtreeLeaf toLowerCase safeKeys) members
  | [] => rfl
  | (key, child) :: members => by
      rw [redactSubtreeMembers, mapLeavesOfMembers, mapLeaves_subtreeLeaf_key, redactSubtree_eq,
        redactSubtreeMembers_eq]

end

mutual

theorem redactNode_eq (unclassified : policy.classifyObject = none) : ∀ value : JsonValue,
    redactNode toLowerCase policy value = mapLeaves (redactLeaf toLowerCase policy) value
  | .array items => congrArg array (redactItems_eq unclassified items)
  | .object members => congrArg object (redactMembers_eq unclassified members)
  | .null | .boolean _ | .number _ | .string _ => rfl

theorem redactItems_eq (unclassified : policy.classifyObject = none) : ∀ items : List JsonValue,
    redactItems toLowerCase policy items = mapLeavesOfItems (redactLeaf toLowerCase policy) items
  | [] => rfl
  | item :: items => by
      have ordinary : classifyItem policy item = none := by
        cases item <;> simp [classifyItem, unclassified]
      rw [redactItems, ordinary, mapLeavesOfItems, redactLeaf_item, redactNode_eq unclassified,
        redactItems_eq unclassified]

theorem redactMembers_eq (unclassified : policy.classifyObject = none) :
    ∀ members : List (String × JsonValue), redactMembers toLowerCase policy members =
      mapLeavesOfMembers (redactLeaf toLowerCase policy) members
  | [] => rfl
  | (key, child) :: members => by
      rw [redactMembers, mapLeavesOfMembers, redactMembers_eq unclassified]
      cases classified : policy.classifyKey (normalizeKey toLowerCase key) with
      | none => simp only [redactLeaf_unprotected classified, redactNode_eq unclassified]
      | some safe => simp only [redactLeaf_protected classified, redactSubtree_eq]

end

theorem keepsLeaves_redactLeaf : (redactLeaf toLowerCase policy).KeepsLeaves := by
  intro path leaf isLeaf
  unfold redactLeaf
  split_ifs
  · rfl
  · exact isLeaf

theorem redactLeaf_redactLeaf (path : List PathStep) (leaf : JsonValue) :
    redactLeaf toLowerCase policy path (redactLeaf toLowerCase policy path leaf) =
      redactLeaf toLowerCase policy path leaf := by
  unfold redactLeaf
  split_ifs <;> rfl

theorem redactLeaf_unsecret {path : List PathStep} (leaf : JsonValue)
    (unprotected : protection toLowerCase policy path = none) :
    redactLeaf toLowerCase policy path leaf = leaf := by
  simp [redactLeaf, isSecret, unprotected]

theorem redactPayload_congr (unclassified : policy.classifyObject = none)
    {left right : JsonValue} (differ : DifferInSecrets toLowerCase policy left right) :
    redactPayload toLowerCase policy left = redactPayload toLowerCase policy right := by
  rw [redactPayload, redactPayload, redactNode_eq unclassified, redactNode_eq unclassified]
  apply mapLeaves_congr differ.1
  apply differ.2.imp
  rintro ⟨path, first⟩ ⟨_, second⟩ ⟨rfl, secrets⟩
  refine ⟨rfl, ?_⟩
  by_cases same : first = second
  · rw [same]
  · rcases secrets same with ⟨firstFull, secondFull, secret⟩
    simp only [redactLeaf, if_pos (And.intro secret firstFull),
      if_pos (And.intro secret secondFull)]

/-- Redaction shows nothing of its secrets, does nothing more the second time, and leaves what is
not protected as it is. -/
theorem redactPayload_noninterfering (unclassified : policy.classifyObject = none) :
    (∀ left right, DifferInSecrets toLowerCase policy left right →
      redactPayload toLowerCase policy left = redactPayload toLowerCase policy right) ∧
    (∀ value, redactPayload toLowerCase policy (redactPayload toLowerCase policy value) =
      redactPayload toLowerCase policy value) ∧
    ∀ value, List.Forall₂ (fun before after => before.1 = after.1 ∧
      (protection toLowerCase policy before.1 = none → before.2 = after.2)) value.leaves
        (redactPayload toLowerCase policy value).leaves := by
  refine ⟨fun left right => redactPayload_congr unclassified, ?_, ?_⟩
  · intro value
    simp only [redactPayload, redactNode_eq unclassified,
      mapLeaves_mapLeaves keepsLeaves_redactLeaf, redactLeaf_redactLeaf]
  · intro value
    rw [redactPayload, redactNode_eq unclassified, leaves_mapLeaves keepsLeaves_redactLeaf,
      List.forall₂_map_right_iff, List.forall₂_same]
    intro leaf _
    exact ⟨rfl, fun unprotected => (redactLeaf_unsecret leaf.2 unprotected).symm⟩

/-- Two requests that carry different passwords. -/
def login (password : String) : JsonValue :=
  .object [("user", .string "ada"), ("credentials", .object [("password", .string password)])]

/-- Credentials, whose kind may be shown. -/
def credentialsPolicy : PayloadRedactionPolicy where
  classifyKey key := if key = "credentials" then some ["kind"] else none
  classifyObject := none

theorem redactPayload_login :
    redactPayload id credentialsPolicy (login "first") =
      redactPayload id credentialsPolicy (login "second") := by
  apply (redactPayload_noninterfering rfl).1
  refine ⟨rfl, ?_⟩
  simp only [login, leaves, leavesOfMembers, List.map, List.cons_append, List.nil_append]
  refine .cons ⟨rfl, fun differs => absurd rfl differs⟩ (.cons ⟨rfl, fun _ => ?_⟩ .nil)
  decide

end Protection

end ServerFoundation.PayloadRedaction
