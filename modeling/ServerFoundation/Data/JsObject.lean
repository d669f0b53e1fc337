import Mathlib.Data.List.Perm.Lattice
import Mathlib.Data.List.Sort
import ServerFoundation.Data.JsNumber
import ServerFoundation.Data.JsText
import ServerFoundation.Data.OrderedMap

/-!
# JavaScript objects

An object with string keys, kept as the map of its properties in creation order.
Enumeration does not follow that order: the keys that are array indices come
first, in ascending order, and only the others come in creation order. Two
objects with the same properties therefore enumerate alike as soon as their
other keys were created in the same order.
-/

namespace ServerFoundation

universe u v

section SortOn

variable {Item : Type u} {Rank : Type v} [LinearOrder Rank] (rank : Item → Rank)

/-- A stable sort by rank. -/
def sortOn (items : List Item) : List Item :=
  items.insertionSort fun left right => rank left ≤ rank right

theorem sortOn_perm (items : List Item) : (sortOn rank items).Perm items :=
  List.perm_insertionSort _ items

theorem sortOn_pairwise (items : List Item) :
    (sortOn rank items).Pairwise fun left right => rank left ≤ rank right := by
  have total : Std.Total fun left right : Item => rank left ≤ rank right :=
    ⟨fun left right => le_total (rank left) (rank right)⟩
  have trans : IsTrans Item fun left right => rank left ≤ rank right :=
    ⟨fun _ _ _ => le_trans⟩
  exact List.pairwise_insertionSort _ items

theorem sortOn_congr {left right : List Item} (perm : left.Perm right)
    (distinct : ∀ first ∈ left, ∀ second ∈ left, rank first = rank second → first = second) :
    sortOn rank left = sortOn rank right := by
  have members : ∀ item, item ∈ sortOn rank right → item ∈ left := fun item member =>
    perm.mem_iff.mpr ((sortOn_perm rank right).mem_iff.mp member)
  apply List.Perm.eq_of_pairwise _ (sortOn_pairwise rank left) (sortOn_pairwise rank right)
    ((sortOn_perm rank left).trans (perm.trans (sortOn_perm rank right).symm))
  intro first second firstMem secondMem firstLe secondLe
  exact distinct first ((sortOn_perm rank left).mem_iff.mp firstMem) second
    (members second secondMem) (le_antisymm firstLe secondLe)

theorem sortOn_eq {items sorted : List Item} (perm : items.Perm sorted)
    (increasing : sorted.Pairwise fun left right => rank left < rank right) :
    sortOn rank items = sorted := by
  have inOrder : sorted.Pairwise fun left right => rank left ≤ rank right :=
    increasing.imp fun below => below.le
  apply List.Perm.eq_of_pairwise _ (sortOn_pairwise rank items) inOrder
    ((sortOn_perm rank items).trans perm)
  intro first second firstMem secondMem firstLe secondLe
  have inSorted := perm.mem_iff.mp ((sortOn_perm rank items).mem_iff.mp firstMem)
  have ranksNodup : (sorted.map rank).Nodup :=
    List.pairwise_map.mpr (increasing.imp fun below => below.ne)
  exact List.inj_on_of_nodup_map ranksNodup inSorted secondMem (le_antisymm firstLe secondLe)

theorem filter_sortOn_of_rank_eq (keep : Item → Bool) (items : List Item)
    (sameRank : ∀ first second, keep first = true → keep second = true →
      rank first = rank second) :
    (sortOn rank items).filter keep = items.filter keep := by
  have total : Std.Total fun left right : Item => rank left ≤ rank right :=
    ⟨fun left right => le_total (rank left) (rank right)⟩
  have trans : IsTrans Item fun left right => rank left ≤ rank right :=
    ⟨fun _ _ _ => le_trans⟩
  have ordered : (items.filter keep).Pairwise fun left right => rank left ≤ rank right := by
    refine List.pairwise_of_forall_mem_list fun first firstMem second secondMem => ?_
    exact (sameRank first second (List.mem_filter.mp firstMem).2
      (List.mem_filter.mp secondMem).2).le
  have kept : (items.filter keep).Sublist ((sortOn rank items).filter keep) := by
    have sublist : (items.filter keep).Sublist (sortOn rank items) :=
      List.sublist_insertionSort ordered List.filter_sublist
    simpa using sublist.filter keep
  exact (kept.eq_of_length (((sortOn_perm rank items).filter keep).length_eq).symm).symm

end SortOn

/-- An object by its properties, in creation order. -/
abbrev JsObject (Value : Type u) := OrderedMap String Value

namespace JsObject

variable {Value : Type u}

/-- The array index that a key spells, if it does. -/
def arrayIndex (key : String) : Option ℕ :=
  match JsNumber.parseDigits 10 key.toList with
  | some index => if Nat.repr index = key ∧ index < 2 ^ 32 - 1 then some index else none
  | none => none

/-- A property whose key is no array index. -/
def isNamed (entry : String × Value) : Bool := (arrayIndex entry.1).isNone

/-- The properties under array indices, in ascending order. -/
def indexed (object : JsObject Value) : List (String × Value) :=
  sortOn (fun entry => (arrayIndex entry.1).getD 0)
    (object.entries.filter fun entry => !isNamed entry)

/-- The other properties, in creation order. -/
def named (object : JsObject Value) : List (String × Value) :=
  object.entries.filter isNamed

/-- `Object.entries`. -/
def ownEntries (object : JsObject Value) : List (String × Value) :=
  indexed object ++ named object

/-- Define properties one after another. -/
def define (object : JsObject Value) (entries : List (String × Value)) : JsObject Value :=
  entries.foldl (fun object entry => object.set entry.1 entry.2) object

/-- `Object.fromEntries`. -/
def fromEntries (entries : List (String × Value)) : JsObject Value := define .empty entries

/-- The object literal `{ ...target, ...source }`, with the target already built. -/
def spread (target source : JsObject Value) : JsObject Value := define target (ownEntries source)

/-- `object[key] = value` for a primitive value, which the setter of `__proto__` ignores. -/
def assign (object : JsObject Value) (key : String) (value : Value) : JsObject Value :=
  if key = "__proto__" then object else object.set key value

theorem repr_of_arrayIndex {key : String} {index : ℕ} (spelled : arrayIndex key = some index) :
    Nat.repr index = key := by
  simp only [arrayIndex] at spelled
  split at spelled
  · split at spelled
    · rename_i canonical
      cases spelled
      exact canonical.1
    · cases spelled
  · cases spelled

section Entries

variable (object : JsObject Value) {other : JsObject Value}

theorem entries_nodup : object.entries.Nodup := object.nodupKeys.of_map

theorem ownEntries_perm : (ownEntries object).Perm object.entries := by
  have sorted : (indexed object).Perm (object.entries.filter fun entry => !isNamed entry) :=
    sortOn_perm _ _
  have split := List.filter_append_perm (fun entry => !isNamed entry) object.entries
  simp only [Bool.not_not] at split
  exact (sorted.append_right (named object)).trans split

theorem ownEntries_keys_nodup : ((ownEntries object).map Prod.fst).Nodup :=
  ((ownEntries_perm object).map Prod.fst).nodup_iff.mpr object.nodupKeys

theorem mem_ownEntries_iff (key : String) (value : Value) :
    (key, value) ∈ ownEntries object ↔ object.get? key = some value := by
  rw [(ownEntries_perm object).mem_iff, object.get?_eq_some_iff]

theorem isNamed_of_mem_named {entry : String × Value} (member : entry ∈ named object) :
    isNamed entry := (List.mem_filter.mp member).2

theorem not_isNamed_of_mem_indexed {entry : String × Value} (member : entry ∈ indexed object) :
    isNamed entry = false := by
  have filtered := (sortOn_perm _ _).mem_iff.mp member
  simpa using (List.mem_filter.mp filtered).2

theorem filter_ownEntries : (ownEntries object).filter isNamed = named object := by
  have noIndex : (indexed object).filter isNamed = [] := by
    rw [List.filter_eq_nil_iff]
    intro entry member
    simp [not_isNamed_of_mem_indexed object member]
  have allNamed : (named object).filter isNamed = named object := by
    rw [List.filter_eq_self]
    intro entry member
    exact isNamed_of_mem_named object member
  rw [ownEntries, List.filter_append, noIndex, allNamed, List.nil_append]

theorem lookup_ownEntries (key : String) : (ownEntries object).lookup key = object.get? key := by
  ext value
  rw [OrderedMap.lookup_eq_some_iff (ownEntries_keys_nodup object), mem_ownEntries_iff]

variable {object}

theorem entries_perm_of_agree (agree : ∀ key, object.get? key = other.get? key) :
    object.entries.Perm other.entries := by
  rw [List.perm_ext_iff_of_nodup (entries_nodup object) (entries_nodup other)]
  exact OrderedMap.mem_entries_congr agree

theorem indexed_congr (agree : ∀ key, object.get? key = other.get? key) :
    indexed object = indexed other := by
  apply sortOn_congr _ ((entries_perm_of_agree agree).filter _)
  intro first firstMem second secondMem sameRank
  have spelled : ∀ entry ∈ object.entries.filter fun entry => !isNamed entry,
      ∃ index, arrayIndex entry.1 = some index := by
    intro entry member
    have unnamed := (List.mem_filter.mp member).2
    simpa [isNamed, Option.isSome_iff_exists] using unnamed
  rcases spelled first firstMem with ⟨firstIndex, firstSpelled⟩
  rcases spelled second secondMem with ⟨secondIndex, secondSpelled⟩
  simp only [firstSpelled, secondSpelled, Option.getD_some] at sameRank
  have sameKey : first.1 = second.1 := by
    rw [← repr_of_arrayIndex firstSpelled, ← repr_of_arrayIndex secondSpelled, sameRank]
  have firstFound := (object.get?_eq_some_iff first.1 first.2).mpr (List.mem_filter.mp firstMem).1
  have secondFound :=
    (object.get?_eq_some_iff second.1 second.2).mpr (List.mem_filter.mp secondMem).1
  rw [sameKey, secondFound, Option.some.injEq] at firstFound
  exact Prod.ext sameKey firstFound.symm

theorem named_perm_of_agree (agree : ∀ key, object.get? key = other.get? key) :
    (named object).Perm (named other) :=
  (entries_perm_of_agree agree).filter _

end Entries

theorem ownEntries_mapValues {Result : Type v} (change : Value → Result)
    (object : JsObject Value) :
    ownEntries (object.mapValues change) =
      (ownEntries object).map fun entry => (entry.1, change entry.2) := by
  have sameIndexed : indexed (object.mapValues change) =
      (indexed object).map fun entry => (entry.1, change entry.2) := by
    simp only [indexed, sortOn, OrderedMap.mapValues, List.filter_map]
    symm
    apply List.map_insertionSort
    intro _ _ _ _
    exact Iff.rfl
  have sameNamed : named (object.mapValues change) =
      (named object).map fun entry => (entry.1, change entry.2) := by
    simp only [named, OrderedMap.mapValues, List.filter_map]
    rfl
  rw [ownEntries, ownEntries, sameIndexed, sameNamed, List.map_append]

section Define

variable {entries : List (String × Value)}

theorem get?_define (object : JsObject Value) (nodup : (entries.map Prod.fst).Nodup)
    (key : String) :
    (define object entries).get? key = (entries.lookup key).or (object.get? key) := by
  induction entries generalizing object with
  | nil => simp [define]
  | cons entry rest ih =>
      rcases entry with ⟨head, value⟩
      rw [List.map_cons, List.nodup_cons] at nodup
      have step : define object ((head, value) :: rest) = define (object.set head value) rest := rfl
      rw [step, ih _ nodup.2, OrderedMap.get?_set]
      by_cases same : key = head
      · have absent := (OrderedMap.lookup_eq_none_iff rest head).mpr nodup.1
        simp [same, absent]
      · have differ : (key == head) = false := by simpa using same
        simp [List.lookup_cons, same, differ]

theorem keys_define (object : JsObject Value) (nodup : (entries.map Prod.fst).Nodup) :
    (define object entries).keys =
      object.keys ++ (entries.map Prod.fst).filter fun key => key ∉ object.keys := by
  induction entries generalizing object with
  | nil => simp [define]
  | cons entry rest ih =>
      rw [List.map_cons, List.nodup_cons] at nodup
      have step : define object (entry :: rest) = define (object.set entry.1 entry.2) rest := rfl
      rw [step, ih _ nodup.2, List.map_cons]
      by_cases present : entry.1 ∈ object.keys
      · rw [OrderedMap.keys_set_of_mem object entry.2 present,
          List.filter_cons_of_neg (by simpa using present)]
      · have keysSet := OrderedMap.keys_set_of_not_mem object entry.2 present
        have sameFilter : (rest.map Prod.fst).filter (fun key => key ∉ object.keys ++ [entry.1]) =
            (rest.map Prod.fst).filter fun key => key ∉ object.keys := by
          apply List.filter_congr
          intro key keyMem
          have differ : key ≠ entry.1 := fun same => nodup.1 (same ▸ keyMem)
          simp [differ]
        rw [keysSet, sameFilter, List.filter_cons_of_pos (by simpa using present),
          List.append_assoc, List.singleton_append]

theorem entries_define_of_new (object : JsObject Value)
    (nodup : ((object.entries ++ entries).map Prod.fst).Nodup) :
    (define object entries).entries = object.entries ++ entries := by
  induction entries generalizing object with
  | nil => simp [define]
  | cons entry rest ih =>
      have step : define object (entry :: rest) = define (object.set entry.1 entry.2) rest := rfl
      have absent : entry.1 ∉ object.keys := by
        intro present
        rw [List.map_append, List.nodup_append] at nodup
        exact nodup.2.2 entry.1 present entry.1 (by simp) rfl
      have written := object.entries_set_of_not_mem entry.2 absent
      rw [step, ih, written, List.append_assoc, List.singleton_append]
      rw [written, List.append_assoc, List.singleton_append]
      exact nodup

theorem entries_fromEntries (nodup : (entries.map Prod.fst).Nodup) :
    (fromEntries entries).entries = entries :=
  entries_define_of_new .empty (by simpa [OrderedMap.empty] using nodup)

theorem get?_fromEntries (nodup : (entries.map Prod.fst).Nodup) (key : String) :
    (fromEntries entries).get? key = entries.lookup key := by
  rw [OrderedMap.get?, entries_fromEntries nodup]

theorem get?_spread (target source : JsObject Value) (key : String) :
    (spread target source).get? key = (source.get? key).or (target.get? key) := by
  rw [spread, get?_define target (ownEntries_keys_nodup source), lookup_ownEntries]

end Define

section NamedKeys

/-- The keys that are no array indices, in creation order. -/
def namedKeys (object : JsObject Value) : List String :=
  object.keys.filter fun key => (arrayIndex key).isNone

theorem map_fst_named (object : JsObject Value) :
    (named object).map Prod.fst = namedKeys object := by
  rw [named, namedKeys, OrderedMap.keys, List.filter_map]
  rfl

theorem filter_ownEntries_keys (object : JsObject Value) :
    ((ownEntries object).map Prod.fst).filter (fun key => (arrayIndex key).isNone) =
      namedKeys object := by
  rw [← map_fst_named, ← filter_ownEntries, List.filter_map]
  rfl

theorem namedKeys_fromEntries {entries : List (String × Value)}
    (nodup : (entries.map Prod.fst).Nodup) :
    namedKeys (fromEntries entries) =
      (entries.map Prod.fst).filter fun key => (arrayIndex key).isNone := by
  rw [namedKeys, OrderedMap.keys, entries_fromEntries nodup]

theorem namedKeys_spread (target source : JsObject Value) :
    namedKeys (spread target source) =
      namedKeys target ++ (namedKeys source).filter fun key => key ∉ target.keys := by
  rw [namedKeys, spread, keys_define target (ownEntries_keys_nodup source), List.filter_append,
    List.filter_comm, filter_ownEntries_keys]
  rfl

theorem namedKeys_spread_empty (source : JsObject Value) :
    namedKeys (spread .empty source) = namedKeys source := by
  rw [namedKeys_spread]
  simp [namedKeys, OrderedMap.keys, OrderedMap.empty]

theorem named_pairwise_iff (object : JsObject Value) :
    ((named object).Pairwise fun left right => JsText.units left.1 < JsText.units right.1) ↔
      (namedKeys object).Pairwise fun left right => JsText.units left < JsText.units right := by
  rw [← map_fst_named, List.pairwise_map]

end NamedKeys

section SortKeys

/-- The object with its keys created in code unit order. -/
def sortKeys (object : JsObject Value) : JsObject Value :=
  fromEntries (sortOn (fun entry => JsText.units entry.1) (ownEntries object))

variable (object : JsObject Value)

theorem sortKeys_perm : (sortOn (fun entry : String × Value => JsText.units entry.1)
    (ownEntries object)).Perm (ownEntries object) := sortOn_perm _ _

theorem sortKeys_nodup : ((sortOn (fun entry : String × Value => JsText.units entry.1)
    (ownEntries object)).map Prod.fst).Nodup :=
  ((sortKeys_perm object).map Prod.fst).nodup_iff.mpr (ownEntries_keys_nodup object)

@[simp]
theorem get?_sortKeys (key : String) : (sortKeys object).get? key = object.get? key := by
  ext value
  rw [sortKeys, get?_fromEntries (sortKeys_nodup object),
    OrderedMap.lookup_eq_some_iff (sortKeys_nodup object), (sortKeys_perm object).mem_iff,
    mem_ownEntries_iff]

theorem named_sortKeys_pairwise : (named (sortKeys object)).Pairwise fun left right =>
    JsText.units left.1 < JsText.units right.1 := by
  have sorted := sortOn_pairwise (fun entry : String × Value => JsText.units entry.1)
    (ownEntries object)
  have distinct : (sortOn (fun entry : String × Value => JsText.units entry.1)
      (ownEntries object)).Pairwise fun left right => left.1 ≠ right.1 :=
    List.pairwise_map.mp (sortKeys_nodup object)
  have strict := sorted.and distinct
  rw [named, sortKeys, entries_fromEntries (sortKeys_nodup object)]
  apply (strict.imp _).filter
  intro left right both
  exact lt_of_le_of_ne both.1 fun same => both.2 (JsText.units_injective same)

/-- An object enumerates like a sorted one exactly when it has the same properties and its
named keys were created in code unit order. -/
theorem ownEntries_eq_sortKeys_iff (left right : JsObject Value) :
    ownEntries left = ownEntries (sortKeys right) ↔
      (∀ key, left.get? key = right.get? key) ∧
        (named left).Pairwise fun first second =>
          JsText.units first.1 < JsText.units second.1 := by
  constructor
  · intro same
    constructor
    · intro key
      rw [← lookup_ownEntries left, same, lookup_ownEntries, get?_sortKeys]
    · rw [← filter_ownEntries, same, filter_ownEntries]
      exact named_sortKeys_pairwise right
  · rintro ⟨agree, sorted⟩
    have agreeSorted : ∀ key, left.get? key = (sortKeys right).get? key := fun key => by
      rw [get?_sortKeys, agree]
    have sameNamed : named left = named (sortKeys right) := by
      apply List.Perm.eq_of_pairwise _ sorted (named_sortKeys_pairwise right)
        (named_perm_of_agree agreeSorted)
      intro first second _ _ less greater
      exact absurd greater (lt_asymm less)
    rw [ownEntries, ownEntries, indexed_congr agreeSorted, sameNamed]

end SortKeys

end JsObject

end ServerFoundation
