import ServerFoundation.Data.JsonValue

/-!
# Leaves of JSON values

A value is made of its containers and of its leaves, the values that are neither arrays nor
objects. A leaf is known by the steps that lead to it, in the order of the value, so a value can
be told from its skeleton and its leaves.
-/

namespace ServerFoundation.JsonValue

/-- A step into a container. -/
inductive PathStep where
  | item
  | key (name : String)

/-- A leaf, under the steps that lead to it. -/
abbrev Leaf := List PathStep × JsonValue

/-- What becomes of a leaf. -/
abbrev LeafChange := List PathStep → JsonValue → JsonValue

/-- A leaf, seen from one step above. -/
def Leaf.under (step : PathStep) (leaf : Leaf) : Leaf := (step :: leaf.1, leaf.2)

/-- A change of leaves, seen from one step below. -/
def LeafChange.under (change : LeafChange) (step : PathStep) : LeafChange :=
  fun path => change (step :: path)

/-- Whether a value is an array or an object. -/
def isContainer : JsonValue → Bool
  | .array _ | .object _ => true
  | _ => false

mutual

/-- The leaves of a value, with their paths. -/
def leaves : JsonValue → List Leaf
  | .array items => leavesOfItems items
  | .object members => leavesOfMembers members
  | leaf => [([], leaf)]

/-- The leaves of the elements of an array. -/
def leavesOfItems : List JsonValue → List Leaf
  | [] => []
  | item :: items => (leaves item).map (Leaf.under .item) ++ leavesOfItems items

/-- The leaves of the members of an object. -/
def leavesOfMembers : List (String × JsonValue) → List Leaf
  | [] => []
  | (key, child) :: members =>
      (leaves child).map (Leaf.under (.key key)) ++ leavesOfMembers members

end

mutual

/-- A value with something else at its leaves. -/
def mapLeaves (change : LeafChange) : JsonValue → JsonValue
  | .array items => .array (mapLeavesOfItems change items)
  | .object members => .object (mapLeavesOfMembers change members)
  | leaf => change [] leaf

/-- A change of the leaves, in each element. -/
def mapLeavesOfItems (change : LeafChange) : List JsonValue → List JsonValue
  | [] => []
  | item :: items => mapLeaves (change.under .item) item :: mapLeavesOfItems change items

/-- A change of the leaves, in each member. -/
def mapLeavesOfMembers (change : LeafChange) :
    List (String × JsonValue) → List (String × JsonValue)
  | [] => []
  | (key, child) :: members =>
      (key, mapLeaves (change.under (.key key)) child) :: mapLeavesOfMembers change members

end

/-- A value of the same type. -/
def typed : JsonValue → JsonValue
  | .boolean _ => .boolean false
  | .number _ => .number (.finite 0)
  | .string _ => .string ""
  | value => value

/-- The keys, the lengths and the types of a value. -/
def shape : JsonValue → JsonValue := mapLeaves fun _ => typed

/-- A change that makes no containers. -/
def LeafChange.KeepsLeaves (change : LeafChange) : Prop :=
  ∀ path leaf, isContainer leaf = false → isContainer (change path leaf) = false

theorem LeafChange.KeepsLeaves.under {change : LeafChange} (keeps : change.KeepsLeaves)
    (step : PathStep) : (change.under step).KeepsLeaves := fun path => keeps (step :: path)

theorem leaves_leaf {leaf : JsonValue} (isLeaf : isContainer leaf = false) :
    leaves leaf = [([], leaf)] := by
  cases leaf <;> first | rfl | cases isLeaf

theorem mapLeaves_leaf {leaf : JsonValue} (change : LeafChange)
    (isLeaf : isContainer leaf = false) : mapLeaves change leaf = change [] leaf := by
  cases leaf <;> first | rfl | cases isLeaf

theorem mapLeaves_container {value : JsonValue} {first second : LeafChange}
    (container : isContainer value = true) (below : ∀ step, first.under step = second.under step) :
    mapLeaves first value = mapLeaves second value := by
  cases value with
  | array items =>
      rw [mapLeaves, mapLeaves]
      congr 1
      induction items with
      | nil => rfl
      | cons item items ih => rw [mapLeavesOfItems, mapLeavesOfItems, below, ih rfl]
  | object members =>
      rw [mapLeaves, mapLeaves]
      congr 1
      induction members with
      | nil => rfl
      | cons member members ih => rw [mapLeavesOfMembers, mapLeavesOfMembers, below, ih rfl]
  | _ => cases container

mutual

theorem leaves_mapLeaves {change : LeafChange} (keeps : change.KeepsLeaves) : ∀ value : JsonValue,
    leaves (mapLeaves change value) = (leaves value).map fun leaf => (leaf.1, change leaf.1 leaf.2)
  | .array items => leavesOfItems_mapLeaves keeps items
  | .object members => leavesOfMembers_mapLeaves keeps members
  | .null | .boolean _ | .number _ | .string _ => leaves_leaf (keeps [] _ rfl)

theorem leavesOfItems_mapLeaves {change : LeafChange} (keeps : change.KeepsLeaves) :
    ∀ items : List JsonValue, leavesOfItems (mapLeavesOfItems change items) =
      (leavesOfItems items).map fun leaf => (leaf.1, change leaf.1 leaf.2)
  | [] => rfl
  | item :: items => by
      simp only [mapLeavesOfItems, leavesOfItems, List.map_append, List.map_map,
        leaves_mapLeaves (keeps.under .item) item, leavesOfItems_mapLeaves keeps items]
      rfl

theorem leavesOfMembers_mapLeaves {change : LeafChange} (keeps : change.KeepsLeaves) :
    ∀ members : List (String × JsonValue), leavesOfMembers (mapLeavesOfMembers change members) =
      (leavesOfMembers members).map fun leaf => (leaf.1, change leaf.1 leaf.2)
  | [] => rfl
  | (key, child) :: members => by
      simp only [mapLeavesOfMembers, leavesOfMembers, List.map_append, List.map_map,
        leaves_mapLeaves (keeps.under (.key key)) child, leavesOfMembers_mapLeaves keeps members]
      rfl

end

mutual

theorem mapLeaves_mapLeaves {first second : LeafChange} (keeps : first.KeepsLeaves) :
    ∀ value : JsonValue, mapLeaves second (mapLeaves first value) =
      mapLeaves (fun path leaf => second path (first path leaf)) value
  | .array items => congrArg array (mapLeavesOfItems_mapLeaves keeps items)
  | .object members => congrArg object (mapLeavesOfMembers_mapLeaves keeps members)
  | .null | .boolean _ | .number _ | .string _ => mapLeaves_leaf second (keeps [] _ rfl)

theorem mapLeavesOfItems_mapLeaves {first second : LeafChange} (keeps : first.KeepsLeaves) :
    ∀ items : List JsonValue, mapLeavesOfItems second (mapLeavesOfItems first items) =
      mapLeavesOfItems (fun path leaf => second path (first path leaf)) items
  | [] => rfl
  | item :: items => by
      simp only [mapLeavesOfItems, mapLeaves_mapLeaves (keeps.under .item) item,
        mapLeavesOfItems_mapLeaves keeps items]
      rfl

theorem mapLeavesOfMembers_mapLeaves {first second : LeafChange} (keeps : first.KeepsLeaves) :
    ∀ members : List (String × JsonValue),
      mapLeavesOfMembers second (mapLeavesOfMembers first members) =
        mapLeavesOfMembers (fun path leaf => second path (first path leaf)) members
  | [] => rfl
  | (key, child) :: members => by
      simp only [mapLeavesOfMembers, mapLeaves_mapLeaves (keeps.under (.key key)) child,
        mapLeavesOfMembers_mapLeaves keeps members]
      rfl

end

theorem keepsLeaves_typed : LeafChange.KeepsLeaves fun _ => typed := by
  intro path leaf isLeaf
  cases leaf <;> first | rfl | cases isLeaf

theorem length_leaves_of_shape {left right : JsonValue} (sameShape : left.shape = right.shape) :
    left.leaves.length = right.leaves.length := by
  have lengths : ∀ value : JsonValue, value.leaves.length = value.shape.leaves.length := by
    intro value
    simp [shape, leaves_mapLeaves keepsLeaves_typed]
  rw [lengths left, lengths right, sameShape]

/-- Two leaves of the same path that a change makes the same. -/
def LeafChange.Joins (change : LeafChange) (left right : Leaf) : Prop :=
  left.1 = right.1 ∧ change left.1 left.2 = change right.1 right.2

theorem LeafChange.joins_under {change : LeafChange} {step : PathStep} {left right : Leaf}
    (joins : change.Joins (left.under step) (right.under step)) :
    (change.under step).Joins left right := by
  rcases joins with ⟨samePath, same⟩
  exact ⟨(List.cons.inj samePath).2, same⟩

theorem LeafChange.joins_append {change : LeafChange} {step : PathStep}
    {left right : JsonValue} {leftRest rightRest : List Leaf} (sameShape : left.shape = right.shape)
    (joined : List.Forall₂ change.Joins (left.leaves.map (Leaf.under step) ++ leftRest)
      (right.leaves.map (Leaf.under step) ++ rightRest)) :
    List.Forall₂ (change.under step).Joins left.leaves right.leaves ∧
      List.Forall₂ change.Joins leftRest rightRest := by
  have lengths : (right.leaves.map (Leaf.under step)).length =
      (left.leaves.map (Leaf.under step)).length := by
    rw [List.length_map, List.length_map, length_leaves_of_shape sameShape]
  constructor
  · have first := List.forall₂_take_append _ _ _ joined
    rw [lengths, List.take_left, List.forall₂_map_left_iff, List.forall₂_map_right_iff] at first
    exact first.imp fun _ _ => joins_under
  · have others := List.forall₂_drop_append _ _ _ joined
    rwa [lengths, List.drop_left] at others

mutual

theorem mapLeaves_congr {change : LeafChange} : ∀ {left right : JsonValue},
    left.shape = right.shape → List.Forall₂ change.Joins left.leaves right.leaves →
      mapLeaves change left = mapLeaves change right
  | .array items, right => by
      intro sameShape joined
      cases right with
      | array others => exact congrArg array (mapLeavesOfItems_congr (array.inj sameShape) joined)
      | _ => cases sameShape
  | .object members, right => by
      intro sameShape joined
      cases right with
      | object others =>
          exact congrArg object (mapLeavesOfMembers_congr (object.inj sameShape) joined)
      | _ => cases sameShape
  | .null, right | .boolean _, right | .number _, right | .string _, right => by
      intro sameShape joined
      cases right <;> simp [shape, mapLeaves, typed] at sameShape
      all_goals exact (List.forall₂_cons.mp joined).1.2

theorem mapLeavesOfItems_congr {change : LeafChange} : ∀ {left right : List JsonValue},
    mapLeavesOfItems (fun _ => typed) left = mapLeavesOfItems (fun _ => typed) right →
      List.Forall₂ change.Joins (leavesOfItems left) (leavesOfItems right) →
        mapLeavesOfItems change left = mapLeavesOfItems change right
  | [], [] => fun _ _ => rfl
  | [], _ :: _ => nofun
  | _ :: _, [] => nofun
  | item :: items, other :: others => by
      intro sameShape joined
      rcases List.cons.inj sameShape with ⟨sameItem, sameItems⟩
      rcases LeafChange.joins_append sameItem joined with ⟨first, rest⟩
      rw [mapLeavesOfItems, mapLeavesOfItems, mapLeaves_congr sameItem first,
        mapLeavesOfItems_congr sameItems rest]

theorem mapLeavesOfMembers_congr {change : LeafChange} :
    ∀ {left right : List (String × JsonValue)},
      mapLeavesOfMembers (fun _ => typed) left = mapLeavesOfMembers (fun _ => typed) right →
        List.Forall₂ change.Joins (leavesOfMembers left) (leavesOfMembers right) →
          mapLeavesOfMembers change left = mapLeavesOfMembers change right
  | [], [] => fun _ _ => rfl
  | [], _ :: _ => nofun
  | _ :: _, [] => nofun
  | (key, child) :: members, (otherKey, other) :: others => by
      intro sameShape joined
      rcases List.cons.inj sameShape with ⟨sameMember, sameMembers⟩
      rcases Prod.mk.inj sameMember with ⟨rfl, sameChild⟩
      rcases LeafChange.joins_append sameChild joined with ⟨first, rest⟩
      rw [mapLeavesOfMembers, mapLeavesOfMembers, mapLeaves_congr sameChild first,
        mapLeavesOfMembers_congr sameMembers rest]

end

end ServerFoundation.JsonValue
