import ServerFoundation.Data.OrderedMap
import ServerFoundation.Data.Results
import ServerFoundation.Http.FormMeaning

/-!
# Insertion into the tree of a form

Two paths conflict when they part at nodes of different kinds. A tree that describes a
family takes another path exactly when it conflicts with no path of the family, and then
describes the family with that path at its end.
-/

namespace ServerFoundation.Http

open PathFamily

variable {Value : Type}

/-- The kind of node that a path is inserted into. -/
def nodeKind : List FormPathToken → FormNodeKind
  | [] => .leaf
  | token :: _ => token.expectedKind

/-- The paths part at nodes of different kinds. -/
@[grind =]
def Conflict : List FormPathToken → List FormPathToken → Prop
  | first :: path, second :: other =>
      if first = second then Conflict path other else first.expectedKind ≠ second.expectedKind
  | path, other => nodeKind path ≠ nodeKind other

/-- The children stand for what lies below their keys. -/
structure Divides {Key : Type} [DecidableEq Key] (token : Key → FormPathToken)
    (children : List (Key × FormNode Value)) (family : PathFamily FormPathToken Value) : Prop where
  heads : ∀ entry ∈ family, ∃ key rest, entry.1 = token key :: rest
  nodup : (children.map Prod.fst).Nodup
  present : ∀ key, (children.lookup key).isSome ↔ below (token key) family ≠ []

/-- The tree after the insertion of the family. -/
inductive Describes : FormNode Value → PathFamily FormPathToken Value → Prop
  | leaf {family : PathFamily FormPathToken Value} (heads : ∀ entry ∈ family, entry.1 = [])
      (nonempty : family ≠ []) : Describes (.leaf (family.map Prod.snd)) family
  | appendArray {family : PathFamily FormPathToken Value}
      (heads : ∀ entry ∈ family, entry.1 = [.append]) :
      Describes (.appendArray (family.map Prod.snd)) family
  | object {children : List (String × FormNode Value)} {family : PathFamily FormPathToken Value}
      (divides : Divides .property children family)
      (inner : ∀ name child, children.lookup name = some child →
        Describes child (below (.property name) family)) :
      Describes (.object children) family
  | indexedArray {children : List (ℕ × FormNode Value)}
      {family : PathFamily FormPathToken Value} (divides : Divides .index children family)
      (inner : ∀ position child, children.lookup position = some child →
        Describes child (below (.index position) family)) :
      Describes (.indexedArray children) family

section Conflicts

theorem conflict_comm (first second : List FormPathToken) :
    Conflict first second ↔ Conflict second first := by
  induction first generalizing second with
  | nil => cases second <;> simp [Conflict, ne_comm]
  | cons token path ih =>
      rcases second with _ | ⟨other, second⟩
      · simp [Conflict, ne_comm]
      · by_cases same : token = other
        · simp only [Conflict, same, if_true, ih]
        · simp only [Conflict, same, Ne.symm same, if_false, ne_comm]

theorem conflict_cons_self (token : FormPathToken) (first second : List FormPathToken) :
    Conflict (token :: first) (token :: second) ↔ Conflict first second := by
  simp [Conflict]

theorem conflict_of_nodeKind_ne {first second : List FormPathToken}
    (other : nodeKind first ≠ nodeKind second) : Conflict first second := by
  rcases first with _ | ⟨token, first⟩
  · simpa only [Conflict] using other
  · rcases second with _ | ⟨next, second⟩
    · simpa only [Conflict] using other
    · have parted : token ≠ next := fun same => other (by rw [nodeKind, nodeKind, same])
      rw [Conflict, if_neg parted]
      exact other

theorem not_conflict_nil : ¬Conflict [] [] := by simp [Conflict]

end Conflicts

section Children

variable {Key : Type} [DecidableEq Key] {key : Key} {child : FormNode Value}

theorem lookup_setChild (key other : Key) (child : FormNode Value)
    (children : List (Key × FormNode Value)) :
    (setChild key child children).lookup other =
      if other = key then some child else children.lookup other := by
  induction children with
  | nil =>
      by_cases same : other = key
      · simp [setChild, same]
      · have differ : (other == key) = false := by simpa using same
        simp [setChild, List.lookup_cons, same, differ]
  | cons entry children ih =>
      rcases entry with ⟨stored, held⟩
      by_cases isStored : stored = key
      · by_cases same : other = key
        · simp [setChild, isStored, same]
        · have differ : (other == key) = false := by simpa using same
          simp [setChild, isStored, List.lookup_cons, same, differ]
      · by_cases atStored : other = stored
        · simp [setChild, isStored, atStored]
        · have differ : (other == stored) = false := by simpa using atStored
          simp [setChild, isStored, List.lookup_cons, differ, ih]

theorem mem_keys_setChild {other : Key} {children : List (Key × FormNode Value)}
    (member : other ∈ (setChild key child children).map Prod.fst) :
    other = key ∨ other ∈ children.map Prod.fst := by
  induction children with
  | nil => simpa [setChild] using member
  | cons entry children ih =>
      unfold setChild at member
      by_cases isStored : entry.1 = key
      · simp only [isStored, if_true, List.map_cons, List.mem_cons] at member
        rcases member with same | inRest
        · exact .inl same
        · exact .inr (List.mem_cons_of_mem _ inRest)
      · simp only [isStored, if_false, List.map_cons, List.mem_cons] at member
        rcases member with same | inRest
        · exact .inr (by simp [same])
        · exact (ih inRest).imp_right (List.mem_cons_of_mem _)

theorem nodup_keys_setChild (key : Key) (child : FormNode Value)
    {children : List (Key × FormNode Value)} (nodup : (children.map Prod.fst).Nodup) :
    ((setChild key child children).map Prod.fst).Nodup := by
  induction children with
  | nil => simp [setChild]
  | cons entry children ih =>
      rw [List.map_cons, List.nodup_cons] at nodup
      unfold setChild
      by_cases isStored : entry.1 = key
      · simp only [isStored, if_true, List.map_cons, List.nodup_cons]
        exact ⟨isStored ▸ nodup.1, nodup.2⟩
      · simp only [isStored, if_false, List.map_cons, List.nodup_cons]
        refine ⟨fun member => ?_, ih nodup.2⟩
        exact (mem_keys_setChild member).elim isStored nodup.1

variable {token : Key → FormPathToken} {children : List (Key × FormNode Value)}
  {family : PathFamily FormPathToken Value}

theorem Divides.nil (token : Key → FormPathToken) :
    Divides token ([] : List (Key × FormNode Value)) [] where
  heads _ member := nomatch member
  nodup := List.nodup_nil
  present key := by simp [below]

theorem below_insert (injective : Function.Injective token) (key other : Key)
    (rest : List FormPathToken) (value : Value) :
    below (token other) (family ++ [(token key :: rest, value)]) =
      below (token other) family ++ if other = key then [(rest, value)] else [] := by
  rw [below_append]
  by_cases same : other = key
  · rw [same, below_singleton_self, if_pos rfl]
  · rw [below_singleton_of_ne fun equal => same (injective equal).symm, if_neg same]

theorem Divides.setChild (divides : Divides token children family)
    (injective : Function.Injective token) (key : Key) (child : FormNode Value)
    (rest : List FormPathToken) (value : Value) :
    Divides token (setChild key child children) (family ++ [(token key :: rest, value)]) where
  heads := List.forall_mem_append.mpr
    ⟨divides.heads, List.forall_mem_singleton.mpr ⟨key, rest, rfl⟩⟩
  nodup := nodup_keys_setChild key child divides.nodup
  present other := by
    rw [lookup_setChild, below_insert injective]
    by_cases same : other = key
    · simp [same]
    · simp [same, divides.present]

theorem Divides.below_eq_nil (divides : Divides token children family)
    (absent : children.lookup key = none) : below (token key) family = [] := by
  by_contra nonempty
  have isSome := (divides.present key).mpr nonempty
  rw [absent] at isSome
  cases isSome

theorem describes_lookup_setChild (injective : Function.Injective token)
    (inner : ∀ key child, children.lookup key = some child →
      Describes child (below (token key) family)) {rest : List FormPathToken} {value : Value}
    (describes : Describes child (below (token key) family ++ [(rest, value)])) (other : Key)
    (held : FormNode Value) (found : (Http.setChild key child children).lookup other = some held) :
    Describes held (below (token other) (family ++ [(token key :: rest, value)])) := by
  rw [lookup_setChild] at found
  rw [below_insert injective]
  by_cases same : other = key
  · simp only [same, if_true, Option.some.injEq] at found ⊢
    rw [← found]
    exact describes
  · simp only [same, if_false, List.append_nil] at found ⊢
    exact inner other held found

end Children

section Insertion

variable {fieldName : String} {family : PathFamily FormPathToken Value} {node : FormNode Value}
  {value : Value} {existing : Option (FormNode Value)} {rest tokens : List FormPathToken}

theorem Describes.kind_eq (describes : Describes node family) {entry : List FormPathToken × Value}
    (member : entry ∈ family) : node.kind = nodeKind entry.1 := by
  cases describes with
  | leaf heads nonempty => rw [heads entry member]; rfl
  | appendArray heads => rw [heads entry member]; rfl
  | object divides inner =>
      rcases divides.heads entry member with ⟨name, rest, shape⟩
      rw [shape]
      rfl
  | indexedArray divides inner =>
      rcases divides.heads entry member with ⟨position, rest, shape⟩
      rw [shape]
      rfl

theorem Describes.createNode (token : FormPathToken) :
    Describes (token.createNode : FormNode Value) [] := by
  cases token with
  | property name => exact .object (.nil _) fun _ _ found => nomatch found
  | index position => exact .indexedArray (.nil _) fun _ _ found => nomatch found
  | append =>
      have none : ∀ entry ∈ ([] : PathFamily FormPathToken Value),
          entry.1 = [FormPathToken.append] := fun _ member => nomatch member
      exact .appendArray none

theorem kind_createNode (token : FormPathToken) :
    (token.createNode : FormNode Value).kind = token.expectedKind := by
  cases token <;> rfl

theorem describes_insertChild {child : FormNode Value}
    (known : ∀ child, existing = some child → Describes child family)
    (absent : existing = none → family = [])
    (inserts : ∀ {node after : FormNode Value} {family}, Describes node family →
      insertValue fieldName node rest value = .ok after →
        Describes after (family ++ [(rest, value)]))
    (inserted : insertChild fieldName existing rest value
      (fun child => insertValue fieldName child rest value) = .ok child) :
    Describes child (family ++ [(rest, value)]) := by
  rcases rest with _ | ⟨next, rest⟩
  · rcases existing with _ | node
    · rw [absent rfl]
      cases inserted
      have only : ∀ entry ∈ [(([] : List FormPathToken), value)], entry.1 = [] :=
        List.forall_mem_singleton.mpr rfl
      exact .leaf only (List.cons_ne_nil _ _)
    · have describes := known node rfl
      cases describes with
      | leaf heads nonempty =>
          cases inserted
          have all : ∀ entry ∈ family ++ [([], value)], entry.1 = ([] : List FormPathToken) :=
            List.forall_mem_append.mpr ⟨heads, List.forall_mem_singleton.mpr rfl⟩
          have described := Describes.leaf all (by simp)
          rwa [List.map_append] at described
      | appendArray heads => cases inserted
      | object divides inner => cases inserted
      | indexedArray divides inner => cases inserted
  · rcases existing with _ | node
    · rw [absent rfl]
      exact inserts (.createNode next) inserted
    · simp only [insertChild] at inserted
      split at inserted
      · cases inserted
      · exact inserts (known node rfl) inserted

theorem Describes.insertValue {after : FormNode Value} (describes : Describes node family)
    (inserted : insertValue fieldName node tokens value = .ok after) :
    Describes after (family ++ [(tokens, value)]) := by
  induction tokens generalizing node after family with
  | nil => cases describes <;> cases inserted
  | cons token rest ih =>
      cases describes with
      | leaf heads nonempty => cases inserted
      | appendArray heads =>
          simp only [Http.insertValue] at inserted
          split at inserted
          · cases inserted
          · rename_i accepted
            rw [not_or, not_not, not_not] at accepted
            rcases accepted with ⟨rfl, rfl⟩
            cases inserted
            have all : ∀ entry ∈ family ++ [([.append], value)],
                entry.1 = [FormPathToken.append] :=
              List.forall_mem_append.mpr ⟨heads, List.forall_mem_singleton.mpr rfl⟩
            have described := Describes.appendArray all
            rwa [List.map_append] at described
      | object divides inner =>
          cases token with
          | property name =>
              simp only [Http.insertValue] at inserted
              rcases map_eq_ok_iff.mp inserted with ⟨child, insertedChild, rfl⟩
              have injective : Function.Injective FormPathToken.property :=
                fun _ _ => FormPathToken.property.inj
              exact .object (divides.setChild injective name child rest value)
                (describes_lookup_setChild injective inner
                  (describes_insertChild (inner name) divides.below_eq_nil ih insertedChild))
          | index position => cases inserted
          | append => cases inserted
      | indexedArray divides inner =>
          cases token with
          | property name => cases inserted
          | index position =>
              simp only [Http.insertValue] at inserted
              rcases map_eq_ok_iff.mp inserted with ⟨child, insertedChild, rfl⟩
              have injective : Function.Injective FormPathToken.index :=
                fun _ _ => FormPathToken.index.inj
              exact .indexedArray (divides.setChild injective position child rest value)
                (describes_lookup_setChild injective inner
                  (describes_insertChild (inner position) divides.below_eq_nil ih insertedChild))
          | append => cases inserted

theorem insertChild_ok_iff
    (known : ∀ child, existing = some child → Describes child family ∧ family ≠ [])
    (absent : existing = none → family = [])
    (inserts : ∀ {node : FormNode Value} {family}, Describes node family → rest ≠ [] →
      node.kind = nodeKind rest → ((∃ after, insertValue fieldName node rest value = .ok after) ↔
        ∀ entry ∈ family, ¬Conflict entry.1 rest)) :
    (∃ child, insertChild fieldName existing rest value
        (fun child => insertValue fieldName child rest value) = .ok child) ↔
      ∀ entry ∈ family, ¬Conflict entry.1 rest := by
  rcases existing with _ | node
  · rw [absent rfl]
    refine iff_of_true ?_ fun _ member => nomatch member
    rcases rest with _ | ⟨next, rest⟩
    · exact ⟨_, rfl⟩
    · exact (inserts (.createNode next) (List.cons_ne_nil _ _) (kind_createNode next)).mpr
        fun _ member => nomatch member
  · rcases known node rfl with ⟨describes, nonempty⟩
    by_cases sameKind : node.kind = nodeKind rest
    · rcases rest with _ | ⟨next, rest⟩
      · cases describes with
        | leaf heads nonempty =>
            refine iff_of_true ⟨_, rfl⟩ fun entry member => ?_
            rw [heads entry member]
            exact not_conflict_nil
        | appendArray heads => cases sameKind
        | object divides inner => cases sameKind
        | indexedArray divides inner => cases sameKind
      · have expected : node.kind = next.expectedKind := sameKind
        simp only [insertChild, expected, ne_eq, not_true_eq_false, if_false]
        exact inserts describes (List.cons_ne_nil _ _) sameKind
    · rcases List.exists_mem_of_ne_nil family nonempty with ⟨entry, member⟩
      have conflict : Conflict entry.1 rest := by
        apply conflict_of_nodeKind_ne
        rw [← describes.kind_eq member]
        exact sameKind
      refine iff_of_false ?_ fun free => free entry member conflict
      rintro ⟨child, inserted⟩
      rcases rest with _ | ⟨next, rest⟩
      · cases node with
        | leaf values => exact sameKind rfl
        | appendArray values => cases inserted
        | object children => cases inserted
        | indexedArray children => cases inserted
      · have expected : node.kind ≠ next.expectedKind := sameKind
        simp only [insertChild, expected, ne_eq, not_false_eq_true, if_true,
          reduceCtorEq] at inserted

theorem Divides.conflict_iff {Key : Type} [DecidableEq Key] {token : Key → FormPathToken}
    {children : List (Key × FormNode Value)} (divides : Divides token children family)
    (sameKind : ∀ first second, (token first).expectedKind = (token second).expectedKind)
    (key : Key) (rest : List FormPathToken) :
    (∀ entry ∈ below (token key) family, ¬Conflict entry.1 rest) ↔
      ∀ entry ∈ family, ¬Conflict entry.1 (token key :: rest) := by
  constructor
  · rintro free ⟨path, value⟩ member
    rcases divides.heads _ member with ⟨other, tail, rfl⟩
    by_cases same : token other = token key
    · rw [same] at member ⊢
      rw [conflict_cons_self]
      exact free _ (mem_below_iff.mpr member)
    · simp only [Conflict, same, if_false]
      exact fun parted => parted (sameKind other key)
  · rintro free ⟨path, value⟩ member
    have allowed := free _ (mem_below_iff.mp member)
    rwa [conflict_cons_self] at allowed

theorem Describes.insertValue_ok_iff (describes : Describes node family) (nonempty : tokens ≠ [])
    (terminal : .append ∉ tokens.dropLast) (sameKind : node.kind = nodeKind tokens) :
    (∃ after, Http.insertValue fieldName node tokens value = .ok after) ↔
      ∀ entry ∈ family, ¬Conflict entry.1 tokens := by
  induction tokens generalizing node family with
  | nil => exact absurd rfl nonempty
  | cons token rest ih =>
      have inRest : ∀ {node : FormNode Value} {family}, Describes node family → rest ≠ [] →
          node.kind = nodeKind rest →
          ((∃ after, Http.insertValue fieldName node rest value = .ok after) ↔
            ∀ entry ∈ family, ¬Conflict entry.1 rest) := by
        intro node family describes restNonempty restKind
        refine ih describes restNonempty (fun member => terminal ?_) restKind
        rw [List.dropLast_cons_of_ne_nil restNonempty]
        exact List.mem_cons_of_mem _ member
      cases describes with
      | leaf heads nonempty => cases token <;> cases sameKind
      | appendArray heads =>
          cases token with
          | property name => cases sameKind
          | index position => cases sameKind
          | append =>
              have alone : rest = [] := by
                by_contra more
                rw [List.dropLast_cons_of_ne_nil more] at terminal
                exact terminal List.mem_cons_self
              subst alone
              refine iff_of_true ⟨_, rfl⟩ fun entry member => ?_
              rw [heads entry member, conflict_cons_self]
              exact not_conflict_nil
      | object divides inner =>
          cases token with
          | property name =>
              have known : ∀ child, _ → Describes child _ ∧ _ := fun child found =>
                ⟨inner name child found, (divides.present name).mp (by rw [found]; rfl)⟩
              rw [← divides.conflict_iff (fun _ _ => rfl),
                ← insertChild_ok_iff known divides.below_eq_nil inRest]
              simp only [Http.insertValue, exists_map_eq_ok_iff]
          | index position => cases sameKind
          | append => cases sameKind
      | indexedArray divides inner =>
          cases token with
          | property name => cases sameKind
          | index position =>
              have known : ∀ child, _ → Describes child _ ∧ _ := fun child found =>
                ⟨inner position child found, (divides.present position).mp (by rw [found]; rfl)⟩
              rw [← divides.conflict_iff (fun _ _ => rfl),
                ← insertChild_ok_iff known divides.below_eq_nil inRest]
              simp only [Http.insertValue, exists_map_eq_ok_iff]
          | append => cases sameKind

end Insertion

end ServerFoundation.Http
