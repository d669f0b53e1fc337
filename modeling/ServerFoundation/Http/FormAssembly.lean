import ServerFoundation.Http.FormInsertion
import ServerFoundation.Http.FormPathGrammar

/-!
# Assembling a form body

A tree becomes a value exactly when its arrays have no holes, and the value is the one of
the inserted family. Whether the fields of a form are accepted depends on their paths only,
and the value on the fields of every single path: the order across paths does not matter.
-/

namespace ServerFoundation.Http

open PathFamily

variable {Value : Type}

section Materializing

variable {results : List (String × Except FormError (FormValue Value))} {node : FormNode Value}
  {family : PathFamily FormPathToken Value} (values : List Value)
  (children : List (ℕ × FormNode Value))

theorem materializeNode_leaf (path : String) :
    materializeNode (.leaf values) path = .ok (heldBy [] values) := by
  rcases values with _ | ⟨first, _ | ⟨second, values⟩⟩ <;> simp [materializeNode, heldBy]

theorem materializeNode_appendArray (path : String) :
    materializeNode (.appendArray values) path = .ok (heldBy [.append] values) := by
  rw [heldBy_of_not_single (.inl List.mem_cons_self), materializeNode]

theorem lookup_materializeMembers (children : List (String × FormNode Value)) (path name : String) :
    (materializeMembers children path).lookup name =
      (children.lookup name).map fun child => materializeNode child (appendPath path name) := by
  induction children with
  | nil => rfl
  | cons entry children ih =>
      rcases entry with ⟨stored, held⟩
      simp only [materializeMembers, List.lookup_cons]
      by_cases same : name = stored
      · simp [same]
      · have differ : (name == stored) = false := by simpa using same
        simp [differ, ih]

theorem lookup_materializeItems (path : String) (position : ℕ) :
    (materializeItems children path).lookup position =
      (children.lookup position).map fun child =>
        materializeNode child (appendIndexPath path position) := by
  induction children with
  | nil => rfl
  | cons entry children ih =>
      rcases entry with ⟨stored, held⟩
      simp only [materializeItems, List.lookup_cons]
      by_cases same : position = stored
      · simp [same]
      · have differ : (position == stored) = false := by simpa using same
        simp [differ, ih]

theorem keys_materializeMembers (children : List (String × FormNode Value)) (path : String) :
    (materializeMembers children path).map Prod.fst = children.map Prod.fst := by
  induction children with
  | nil => rfl
  | cons entry children ih => rw [materializeMembers, List.map_cons, List.map_cons, ih]

theorem lookup_of_collectMembers {members : List (String × FormValue Value)}
    (collected : collectMembers results = .ok members) (name : String) :
    results.lookup name = (members.lookup name).map .ok := by
  induction results generalizing members with
  | nil =>
      cases collected
      rfl
  | cons entry results ih =>
      rcases entry with ⟨stored, _ | value⟩
      · cases collected
      · rcases map_eq_ok_iff.mp collected with ⟨rest, collectedRest, rfl⟩
        simp only [List.lookup_cons]
        by_cases same : name = stored
        · simp [same]
        · have differ : (name == stored) = false := by simpa using same
          simp [differ, ih collectedRest]

theorem exists_collectMembers (all : ∀ entry ∈ results, ∃ value, entry.2 = .ok value) :
    ∃ members, collectMembers results = .ok members := by
  induction results with
  | nil => exact ⟨_, rfl⟩
  | cons entry results ih =>
      rcases entry with ⟨name, result⟩
      rcases all _ List.mem_cons_self with ⟨value, rfl⟩
      exact exists_map_eq_ok_iff.mpr
        (ih fun entry member => all entry (List.mem_cons_of_mem _ member))

theorem lookup_of_collectItems {path : String}
    {results : List (ℕ × Except FormError (FormValue Value))} {position count : ℕ}
    {items : List (FormValue Value)}
    (collected : collectItems path results position count = .ok items) :
    items.length = count ∧ ∀ index < count,
      results.lookup (position + index) = items[index]?.map .ok := by
  induction count generalizing position items with
  | zero =>
      cases collected
      exact ⟨rfl, fun _ below => absurd below (Nat.not_lt_zero _)⟩
  | succ count ih =>
      unfold collectItems at collected
      split at collected
      · cases collected
      · cases collected
      · rename_i value found
        rcases map_eq_ok_iff.mp collected with ⟨rest, collectedRest, rfl⟩
        rcases ih collectedRest with ⟨length, lookups⟩
        refine ⟨by rw [List.length_cons, length], fun index below => ?_⟩
        rcases index with _ | index
        · simpa using found
        · have tail := lookups index (by omega)
          rw [show position + (index + 1) = position + 1 + index by omega, tail]
          rfl

theorem exists_collectItems {path : String}
    {results : List (ℕ × Except FormError (FormValue Value))} {position count : ℕ}
    (all : ∀ index < count, ∃ value, results.lookup (position + index) = some (.ok value)) :
    ∃ items, collectItems path results position count = .ok items := by
  induction count generalizing position with
  | zero => exact ⟨_, rfl⟩
  | succ count ih =>
      rcases all 0 (Nat.succ_pos _) with ⟨value, found⟩
      rw [Nat.add_zero] at found
      simp only [collectItems, found, exists_map_eq_ok_iff]
      apply ih
      intro index below
      rcases all (index + 1) (Nat.succ_lt_succ below) with ⟨value, found⟩
      exact ⟨value, by rw [← found]; congr 1; omega⟩

theorem foldl_max_mem (start : ℕ) :
    children.foldl (fun maximum child => max maximum child.1) start ∈
      start :: children.map Prod.fst := by
  induction children generalizing start with
  | nil => exact List.mem_cons_self
  | cons entry children ih =>
      rw [List.foldl_cons, List.map_cons]
      rcases List.mem_cons.mp (ih (max start entry.1)) with isMax | inRest
      · rw [isMax]
        rcases max_choice start entry.1 with isStart | isEntry
        · rw [isStart]
          exact List.mem_cons_self
        · rw [isEntry]
          exact List.mem_cons_of_mem _ List.mem_cons_self
      · exact List.mem_cons_of_mem _ (List.mem_cons_of_mem _ inRest)

theorem le_foldl_max (start : ℕ) :
    ∀ position ∈ start :: children.map Prod.fst,
      position ≤ children.foldl (fun maximum child => max maximum child.1) start := by
  induction children generalizing start with
  | nil => simp
  | cons entry children ih =>
      have above := ih (max start entry.1) _ List.mem_cons_self
      rw [List.foldl_cons, List.map_cons, List.forall_mem_cons, List.forall_mem_cons]
      refine ⟨(le_max_left _ _).trans above, (le_max_right _ _).trans above, ?_⟩
      exact fun position inRest => ih _ position (List.mem_cons_of_mem _ inRest)

theorem maximum_mem (first : ℕ × FormNode Value) (children : List (ℕ × FormNode Value)) :
    (first :: children).foldl (fun maximum child => max maximum child.1) 0 ∈
      (first :: children).map Prod.fst := by
  rw [List.foldl_cons, Nat.zero_max]
  exact foldl_max_mem children first.1

theorem Describes.builds (describes : Describes node family)
    (used : family ≠ [] ∨ node.kind = .object) {path : String} {form : FormValue Value}
    (built : materializeNode node path = .ok form) : Builds family form := by
  induction describes generalizing path form with
  | leaf heads nonempty =>
      rw [materializeNode_leaf, Except.ok.injEq] at built
      rw [← built]
      exact .ended [] (.inl rfl) heads nonempty
  | appendArray heads =>
      rw [materializeNode_appendArray, Except.ok.injEq] at built
      rw [← built]
      exact .ended [.append] (.inr rfl) heads (used.resolve_right fun same => nomatch same)
  | @object children family divides inner ih =>
      rcases map_eq_ok_iff.mp built with ⟨members, collected, rfl⟩
      have lookups : ∀ name, (children.lookup name).map
          (fun child => materializeNode child (appendPath path name)) =
            (members.lookup name).map .ok := fun name => by
        rw [← lookup_materializeMembers]
        exact lookup_of_collectMembers collected name
      have present : ∀ name, (members.lookup name).isSome ↔
          PathFamily.below (.property name) family ≠ [] := fun name => by
        have same := congrArg Option.isSome (lookups name)
        rw [Option.isSome_map, Option.isSome_map] at same
        rw [← same]
        exact divides.present name
      refine .object divides.heads present fun name member found => ?_
      have isChild := lookups name
      rw [found, Option.map_some, Option.map_eq_some_iff] at isChild
      rcases isChild with ⟨child, isChild, builtChild⟩
      exact ih name child isChild (.inl ((present name).mp (by rw [found]; rfl))) builtChild
  | @indexedArray children family divides inner ih =>
      have nonempty : family ≠ [] := used.resolve_right fun same => nomatch same
      rcases children with _ | ⟨first, children⟩
      · rcases List.exists_mem_of_ne_nil family nonempty with ⟨⟨stored, value⟩, member⟩
        rcases divides.heads _ member with ⟨position, rest, rfl⟩
        have isSome := (divides.present position).mpr (below_ne_nil_iff.mpr ⟨rest, value, member⟩)
        cases isSome
      · rcases map_eq_ok_iff.mp built with ⟨items, collected, rfl⟩
        rcases lookup_of_collectItems collected with ⟨length, lookups⟩
        have bounded := le_foldl_max (first :: children) 0
        have isItem : ∀ position item, items[position]? = some item →
            ∃ child, (first :: children).lookup position = some child ∧
              materializeNode child (appendIndexPath path position) = .ok item := by
          intro position item found
          have inRange : position < items.length := (List.getElem?_eq_some_iff.mp found).1
          have same := lookups position (length ▸ inRange)
          rwa [Nat.zero_add, lookup_materializeItems, found, Option.map_some,
            Option.map_eq_some_iff] at same
        have present : ∀ position, position < items.length ↔
            PathFamily.below (.index position) family ≠ [] := by
          intro position
          rw [← divides.present]
          constructor
          · intro inRange
            rcases isItem position _ (List.getElem?_eq_getElem inRange) with ⟨child, isChild, -⟩
            rw [isChild]
            rfl
          · intro isSome
            rcases Option.isSome_iff_exists.mp isSome with ⟨child, isChild⟩
            rw [OrderedMap.lookup_eq_some_iff divides.nodup] at isChild
            have atMost := bounded position (List.mem_cons_of_mem _ (List.mem_map_of_mem isChild))
            rw [length]
            exact Nat.lt_succ_of_le atMost
        refine .indexed divides.heads nonempty present fun position item found => ?_
        rcases isItem position item found with ⟨child, isChild, builtChild⟩
        have inRange : position < items.length := (List.getElem?_eq_some_iff.mp found).1
        exact ih position child isChild (.inl ((present position).mp inRange)) builtChild

theorem Describes.exists_materializeNode (describes : Describes node family)
    (noHoles : NoHoles family) (path : String) : ∃ form, materializeNode node path = .ok form := by
  induction describes generalizing path with
  | leaf heads nonempty => exact ⟨_, materializeNode_leaf _ _⟩
  | appendArray heads => exact ⟨_, materializeNode_appendArray _ _⟩
  | @object children family divides inner ih =>
      rw [materializeNode, exists_map_eq_ok_iff]
      apply exists_collectMembers
      rintro ⟨name, result⟩ member
      have nodup : ((materializeMembers children path).map Prod.fst).Nodup := by
        rw [keys_materializeMembers]
        exact divides.nodup
      rw [← OrderedMap.lookup_eq_some_iff nodup, lookup_materializeMembers,
        Option.map_eq_some_iff] at member
      rcases member with ⟨child, isChild, rfl⟩
      exact ih name child isChild (noHoles.below _) _
  | @indexedArray children family divides inner ih =>
      rcases children with _ | ⟨first, children⟩
      · exact ⟨_, rfl⟩
      · rw [materializeNode, exists_map_eq_ok_iff]
        apply exists_collectItems
        intro position below
        rw [Nat.zero_add, lookup_materializeItems]
        have isKey := maximum_mem first children
        generalize (first :: children).foldl (fun maximum child => max maximum child.1) 0 = maximum
          at below isKey
        have named : ∃ entry ∈ family, [FormPathToken.index maximum] <+: entry.1 := by
          rw [← below_index_ne_nil_iff, ← divides.present, Option.isSome_iff_ne_none, ne_eq,
            OrderedMap.lookup_eq_none_iff, not_not]
          exact isKey
        have earlier : ∃ entry ∈ family, [FormPathToken.index position] <+: entry.1 := by
          rcases Nat.lt_succ_iff_lt_or_eq.mp below with less | same
          · exact noHoles [] maximum named position less
          · exact same ▸ named
        rw [← below_index_ne_nil_iff, ← divides.present] at earlier
        rcases Option.isSome_iff_exists.mp earlier with ⟨child, isChild⟩
        rcases ih position child isChild (noHoles.below _) (appendIndexPath path position) with
          ⟨form, built⟩
        exact ⟨form, by rw [isChild, Option.map_some, built]⟩

end Materializing

end ServerFoundation.Http
