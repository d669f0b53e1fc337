import Mathlib.Algebra.BigOperators.Group.List.Basic
import Mathlib.Algebra.GroupWithZero.Nat
import Mathlib.Data.List.Nodup
import Mathlib.Data.Prod.Basic

/-!
# Insertion-ordered finite maps

A finite map that remembers the order in which its keys were first written, as
a JavaScript `Map` does: writing an existing key keeps its position, writing a
new key appends it, and erasing forgets it. The entry list carries the proof
that its keys are distinct, so that counting and summing over the entries never
sees a key twice.

Redis hashes and sorted sets are read through the same interface. Their order
is not observable, and no result about them depends on it.
-/

namespace ServerFoundation

universe u v w

/-- A finite map whose entries are listed in insertion order. -/
structure OrderedMap (Key : Type u) (Value : Type v) where
  entries : List (Key × Value)
  nodupKeys : (entries.map Prod.fst).Nodup

namespace OrderedMap

variable {Key : Type u} {Value : Type v}

theorem eq_of_entries_eq {left right : OrderedMap Key Value}
    (same : left.entries = right.entries) : left = right := by
  cases left
  cases right
  cases same
  rfl

instance [DecidableEq Key] [DecidableEq Value] : DecidableEq (OrderedMap Key Value) :=
  fun left right => decidable_of_iff (left.entries = right.entries)
    ⟨eq_of_entries_eq, fun same => congrArg entries same⟩

/-- The map without entries. -/
def empty : OrderedMap Key Value := ⟨[], by simp⟩

instance : Inhabited (OrderedMap Key Value) := ⟨empty⟩

/-- The keys, oldest first. -/
def keys (map : OrderedMap Key Value) : List Key := map.entries.map Prod.fst

/-- The number of entries. -/
def size (map : OrderedMap Key Value) : ℕ := map.entries.length

/-- The sum of a weight over all entries. -/
def total (weight : Value → ℕ) (map : OrderedMap Key Value) : ℕ :=
  (map.entries.map fun entry => weight entry.2).sum

variable [DecidableEq Key]

/-- The value stored under a key. -/
def get? (map : OrderedMap Key Value) (key : Key) : Option Value :=
  map.entries.lookup key

/-- Write a key, in place when it is already present. -/
def set (map : OrderedMap Key Value) (key : Key) (value : Value) : OrderedMap Key Value where
  entries :=
    if key ∈ map.entries.map Prod.fst then
      map.entries.map fun entry => if entry.1 = key then (key, value) else entry
    else map.entries ++ [(key, value)]
  nodupKeys := by
    split
    · have sameKeys : (map.entries.map fun entry =>
          if entry.1 = key then (key, value) else entry).map Prod.fst =
            map.entries.map Prod.fst := by
        rw [List.map_map]
        apply List.map_congr_left
        intro entry _
        by_cases same : entry.1 = key <;> simp [same]
      rw [sameKeys]
      exact map.nodupKeys
    · rename_i absent
      rw [List.map_append, List.nodup_append]
      refine ⟨map.nodupKeys, by simp, ?_⟩
      intro left leftMem right rightMem same
      simp only [List.map_cons, List.map_nil, List.mem_singleton] at rightMem
      subst rightMem same
      exact absent leftMem

/-- Forget a key. -/
def erase (map : OrderedMap Key Value) (key : Key) : OrderedMap Key Value where
  entries := map.entries.filter fun entry => entry.1 ≠ key
  nodupKeys := map.nodupKeys.sublist (List.filter_sublist.map _)

omit [DecidableEq Key] in
/-- Keep the entries whose value passes a test. -/
def filter (test : Value → Bool) (map : OrderedMap Key Value) : OrderedMap Key Value where
  entries := map.entries.filter fun entry => test entry.2
  nodupKeys := map.nodupKeys.sublist (List.filter_sublist.map _)

omit [DecidableEq Key] in
/-- Change every value. -/
def mapValues {Result : Type w} (change : Value → Result) (map : OrderedMap Key Value) :
    OrderedMap Key Result where
  entries := map.entries.map fun entry => (entry.1, change entry.2)
  nodupKeys := by
    rw [List.map_map]
    exact map.nodupKeys

omit [DecidableEq Key] in
/-- Change every value, by its key. -/
def mapEntries {Result : Type w} (change : Key → Value → Result) (map : OrderedMap Key Value) :
    OrderedMap Key Result where
  entries := map.entries.map fun entry => (entry.1, change entry.1 entry.2)
  nodupKeys := by
    rw [List.map_map]
    exact map.nodupKeys

/-- Forget the oldest key. -/
def dropOldest (map : OrderedMap Key Value) : OrderedMap Key Value :=
  match map.keys.head? with
  | some oldest => map.erase oldest
  | none => map

section Lookup

variable (map : OrderedMap Key Value) (key : Key)

@[simp]
theorem get?_empty : (empty : OrderedMap Key Value).get? key = none := rfl

theorem lookup_eq_none_iff (entries : List (Key × Value)) (key : Key) :
    entries.lookup key = none ↔ key ∉ entries.map Prod.fst := by
  induction entries with
  | nil => simp
  | cons entry rest ih =>
      rcases entry with ⟨head, value⟩
      by_cases same : key = head
      · simp [same]
      · have differ : (key == head) = false := by simpa using same
        simp only [List.lookup_cons, differ, List.map_cons, List.mem_cons, not_or]
        exact ih.trans ⟨fun absent => ⟨same, absent⟩, fun both => both.2⟩

theorem lookup_eq_some_iff {entries : List (Key × Value)}
    (nodup : (entries.map Prod.fst).Nodup) (key : Key) (value : Value) :
    entries.lookup key = some value ↔ (key, value) ∈ entries := by
  induction entries with
  | nil => simp
  | cons entry rest ih =>
      rcases entry with ⟨head, stored⟩
      rw [List.map_cons, List.nodup_cons] at nodup
      by_cases same : key = head
      · subst same
        have notInRest : (key, value) ∉ rest := fun member =>
          nodup.1 (List.mem_map.mpr ⟨(key, value), member, rfl⟩)
        simp [notInRest, eq_comm]
      · have differ : (key == head) = false := by simpa using same
        simp [List.lookup_cons, differ, ih nodup.2, same]

theorem get?_eq_none_iff : map.get? key = none ↔ key ∉ map.keys :=
  lookup_eq_none_iff map.entries key

theorem get?_eq_some_iff (value : Value) : map.get? key = some value ↔ (key, value) ∈ map.entries :=
  lookup_eq_some_iff map.nodupKeys key value

theorem mem_keys_iff : key ∈ map.keys ↔ ∃ value, map.get? key = some value := by
  rw [← not_iff_not, ← get?_eq_none_iff, Option.eq_none_iff_forall_ne_some]
  push Not
  rfl

theorem mem_entries_congr {left right : OrderedMap Key Value}
    (agree : ∀ key, left.get? key = right.get? key) (entry : Key × Value) :
    entry ∈ left.entries ↔ entry ∈ right.entries := by
  rw [← get?_eq_some_iff, ← get?_eq_some_iff, agree]

end Lookup

section Update

variable {key : Key} (map : OrderedMap Key Value) (entries : List (Key × Value)) (value : Value)

theorem lookup_map_replace (key other : Key) (value : Value) :
    (entries.map fun entry => if entry.1 = key then (key, value) else entry).lookup other =
      if other = key then (entries.lookup key).map fun _ => value else entries.lookup other := by
  induction entries with
  | nil => simp
  | cons entry rest ih =>
      rcases entry with ⟨head, stored⟩
      by_cases headKey : head = key
      · subst headKey
        by_cases same : other = head
        · simp [same]
        · have differ : (other == head) = false := by simpa using same
          simp [List.lookup_cons, differ, ih, same]
      · by_cases otherHead : other = head
        · subst otherHead
          simp [headKey]
        · have differ : (other == head) = false := by simpa using otherHead
          have keyDiffer : (key == head) = false := by simpa using Ne.symm headKey
          simp [List.lookup_cons, headKey, differ, keyDiffer, ih]

theorem lookup_append_singleton (key other : Key) (value : Value)
    (absent : key ∉ entries.map Prod.fst) :
    (entries ++ [(key, value)]).lookup other =
      if other = key then some value else entries.lookup other := by
  rw [List.lookup_append]
  by_cases same : other = key
  · subst same
    simp [(lookup_eq_none_iff entries other).mpr absent]
  · have differ : (other == key) = false := by simpa using same
    simp [List.lookup_cons, differ, same]

theorem entries_set_of_mem (present : key ∈ map.keys) :
    (map.set key value).entries =
      map.entries.map fun entry => if entry.1 = key then (key, value) else entry :=
  if_pos present

theorem entries_set_of_not_mem (absent : key ∉ map.keys) :
    (map.set key value).entries = map.entries ++ [(key, value)] :=
  if_neg absent

theorem keys_set_of_mem (present : key ∈ map.keys) : (map.set key value).keys = map.keys := by
  simp only [keys, entries_set_of_mem map value present, List.map_map]
  apply List.map_congr_left
  intro entry _
  by_cases same : entry.1 = key <;> simp [same]

theorem keys_set_of_not_mem (absent : key ∉ map.keys) :
    (map.set key value).keys = map.keys ++ [key] := by
  simp [keys, entries_set_of_not_mem map value absent]

@[simp]
theorem get?_set (key other : Key) (value : Value) :
    (map.set key value).get? other = if other = key then some value else map.get? other := by
  by_cases present : key ∈ map.keys
  · obtain ⟨stored, found⟩ := (mem_keys_iff map key).mp present
    rw [get?] at found
    rw [get?, entries_set_of_mem map value present, lookup_map_replace, found]
    rfl
  · rw [get?, entries_set_of_not_mem map value present,
      lookup_append_singleton map.entries key other value present]
    rfl

@[simp]
theorem get?_erase (key other : Key) :
    (map.erase key).get? other = if other = key then none else map.get? other := by
  by_cases same : other = key
  · subst same
    rw [if_pos rfl, get?_eq_none_iff]
    simp [keys, erase]
  · rw [if_neg same]
    ext value
    simp [get?_eq_some_iff, erase, same]

@[simp]
theorem get?_filter (test : Value → Bool) (key : Key) :
    (map.filter test).get? key = (map.get? key).filter test := by
  ext value
  rw [get?_eq_some_iff, Option.filter_eq_some_iff, get?_eq_some_iff]
  simp [filter]

theorem get?_mapEntries {Result : Type w} (change : Key → Value → Result)
    (map : OrderedMap Key Value) (key : Key) :
    (map.mapEntries change).get? key = (map.get? key).map (change key) := by
  simp only [get?, mapEntries]
  induction map.entries with
  | nil => rfl
  | cons entry rest ih =>
      rcases entry with ⟨head, value⟩
      by_cases same : key = head
      · simp [same]
      · have differ : (key == head) = false := by simpa using same
        simp [List.lookup_cons, differ, ih]

@[simp]
theorem get?_mapValues {Result : Type w} (change : Value → Result) (map : OrderedMap Key Value)
    (key : Key) : (map.mapValues change).get? key = (map.get? key).map change :=
  get?_mapEntries (fun _ => change) map key

theorem erase_eq_self (absent : map.get? key = none) : map.erase key = map := by
  rcases map with ⟨entries, nodup⟩
  simp only [get?_eq_none_iff, keys, List.mem_map, not_exists, not_and] at absent
  simp only [erase, mk.injEq, List.filter_eq_self]
  intro entry entryMem
  simpa using absent entry entryMem

theorem erase_set_of_absent (absent : map.get? key = none) :
    (map.set key value).erase key = map := by
  have kept := erase_eq_self map absent
  have appended := entries_set_of_not_mem map value ((get?_eq_none_iff map key).mp absent)
  have entries : ((map.set key value).erase key).entries = (map.erase key).entries := by
    simp [erase, appended, List.filter_append]
  calc
    (map.set key value).erase key = map.erase key := by
      cases left : (map.set key value).erase key
      cases right : map.erase key
      simpa [left, right] using entries
    _ = map := kept

theorem entries_dropOldest : map.dropOldest.entries = map.entries.drop 1 := by
  rcases map with ⟨entries, nodup⟩
  cases entries with
  | nil => rfl
  | cons entry rest =>
      rw [List.map_cons, List.nodup_cons] at nodup
      simp only [dropOldest, keys, List.map_cons, List.head?_cons, erase, List.drop_one,
        List.tail_cons]
      rw [List.filter_cons_of_neg (by simp), List.filter_eq_self]
      intro other mem
      have differs : other.1 ≠ entry.1 := by
        intro same
        exact nodup.1 (List.mem_map.mpr ⟨other, mem, same⟩)
      simpa using differs

theorem entries_dropOldest_iterate (count : ℕ) (map : OrderedMap Key Value) :
    (dropOldest^[count] map).entries = map.entries.drop count := by
  induction count generalizing map with
  | zero => rfl
  | succ count ih =>
      rw [Function.iterate_succ_apply, ih, entries_dropOldest, List.drop_drop, Nat.add_comm]

end Update

section Eviction

theorem length_le_of_sublist {Item : Type w} {all earlier : List Item} {item : Item}
    {position : ℕ} (nodup : all.Nodup) (sublist : (earlier ++ [item]).Sublist all)
    (found : all[position]? = some item) : earlier.length ≤ position := by
  induction all generalizing earlier position with
  | nil => simp at found
  | cons first rest ih =>
      rw [List.nodup_cons] at nodup
      cases earlier with
      | nil => exact Nat.zero_le position
      | cons head earlier =>
          have inRest : (earlier ++ [item]).Sublist rest := sublist.tail
          have notFirst : position ≠ 0 := by
            rintro rfl
            cases Option.some.inj found
            exact nodup.1 (inRest.subset (by simp))
          rcases Nat.exists_eq_succ_of_ne_zero notFirst with ⟨previous, rfl⟩
          have bound := ih nodup.2 inRest found
          simp only [List.length_cons]
          omega

/-- Evicting the oldest entries above a capacity keeps the key of every entry that is among that
many newest ones of the history. -/
theorem get?_evict {map : OrderedMap Key Value} {history : List Key} {capacity position : ℕ}
    {key : Key} {value : Value} (nodup : history.Nodup)
    (order : map.keys.reverse.Sublist history) (found : history[position]? = some key)
    (recent : position < capacity) (present : map.get? key = some value) :
    (dropOldest^[map.size - capacity] map).get? key = some value := by
  rw [get?_eq_some_iff] at present ⊢
  rw [entries_dropOldest_iterate]
  rw [← List.take_append_drop (map.size - capacity) map.entries, List.mem_append] at present
  rcases present with evicted | kept
  · exfalso
    have split : map.keys.reverse =
        ((map.entries.drop (map.size - capacity)).map Prod.fst).reverse ++
          ((map.entries.take (map.size - capacity)).map Prod.fst).reverse := by
      rw [← List.reverse_append, ← List.map_append, List.take_append_drop]
      rfl
    have isEvicted : [key].Sublist
        ((map.entries.take (map.size - capacity)).map Prod.fst).reverse := by
      rw [List.singleton_sublist, List.mem_reverse]
      exact List.mem_map.mpr ⟨(key, value), evicted, rfl⟩
    have later := ((List.Sublist.refl _).append isEvicted).trans (split ▸ order)
    have bound := length_le_of_sublist nodup later found
    have nonempty : 0 < map.size - capacity := by
      rcases Nat.eq_zero_or_pos (map.size - capacity) with zero | positive
      · rw [zero, List.take_zero] at evicted
        cases evicted
      · exact positive
    rw [List.length_reverse, List.length_map, List.length_drop] at bound
    have size : map.size = map.entries.length := rfl
    omega
  · exact kept

end Eviction

section Counting

variable (weight : Value → ℕ) {key : Key} {value : Value} (map : OrderedMap Key Value)
  {entries : List (Key × Value)} {stored : Value}

omit [DecidableEq Key] in
theorem size_eq_total : map.size = map.total fun _ => 1 := by
  simp [size, total]

omit [DecidableEq Key] in
theorem split_of_mem (nodup : (entries.map Prod.fst).Nodup) (member : (key, value) ∈ entries) :
    ∃ before after, entries = before ++ (key, value) :: after ∧
      ∀ entry ∈ before ++ after, entry.1 ≠ key := by
  rcases List.append_of_mem member with ⟨before, after, rfl⟩
  refine ⟨before, after, rfl, fun entry inside same => ?_⟩
  rw [List.map_append, List.map_cons, List.nodup_middle, List.nodup_cons, ← List.map_append]
    at nodup
  exact nodup.1 (List.mem_map.mpr ⟨entry, inside, same⟩)

theorem sum_filter_ne (nodup : (entries.map Prod.fst).Nodup) (member : (key, value) ∈ entries) :
    ((entries.filter fun entry => entry.1 ≠ key).map fun entry => weight entry.2).sum +
      weight value = (entries.map fun entry => weight entry.2).sum := by
  rcases split_of_mem nodup member with ⟨before, after, rfl, others⟩
  have kept : (before ++ (key, value) :: after).filter (fun entry => entry.1 ≠ key) =
      before ++ after := by
    rw [List.filter_append, List.filter_cons_of_neg (by simp), ← List.filter_append,
      List.filter_eq_self]
    exact fun entry inside => by simpa using others entry inside
  rw [kept]
  simp only [List.map_append, List.map_cons, List.sum_append, List.sum_cons]
  omega

theorem total_erase (found : map.get? key = some value) :
    (map.erase key).total weight + weight value = map.total weight :=
  sum_filter_ne weight map.nodupKeys ((get?_eq_some_iff map key value).mp found)

theorem total_set_of_absent (value : Value) (absent : map.get? key = none) :
    (map.set key value).total weight = map.total weight + weight value := by
  rw [get?_eq_none_iff] at absent
  simp [total, entries_set_of_not_mem map value absent]

theorem sum_map_replace (nodup : (entries.map Prod.fst).Nodup) (value : Value)
    (member : (key, stored) ∈ entries) :
    ((entries.map fun entry => if entry.1 = key then (key, value) else entry).map
        fun entry => weight entry.2).sum + weight stored =
      (entries.map fun entry => weight entry.2).sum + weight value := by
  rcases split_of_mem nodup member with ⟨before, after, rfl, others⟩
  have untouched : ∀ part ⊆ before ++ after,
      (part.map fun entry => if entry.1 = key then (key, value) else entry) = part := by
    intro part inside
    conv_rhs => rw [← List.map_id part]
    exact List.map_congr_left fun entry member => if_neg (others entry (inside member))
  rw [List.map_append, List.map_cons, untouched before (List.subset_append_left _ _),
    untouched after (List.subset_append_right _ _)]
  simp only [List.map_append, List.map_cons, List.sum_append, List.sum_cons, if_pos]
  omega

theorem total_set_of_present (value : Value) (found : map.get? key = some stored) :
    (map.set key value).total weight + weight stored = map.total weight + weight value := by
  have member := (get?_eq_some_iff map key stored).mp found
  rw [total, total, entries_set_of_mem map value ((mem_keys_iff map key).mpr ⟨_, found⟩)]
  exact sum_map_replace weight map.nodupKeys value member

theorem total_set (key : Key) (value missing : Value) (weightless : weight missing = 0) :
    (map.set key value).total weight + weight ((map.get? key).getD missing) =
      map.total weight + weight value := by
  cases found : map.get? key with
  | none => simpa [weightless] using total_set_of_absent weight map value found
  | some stored => exact total_set_of_present weight map value found

theorem weight_le_total (found : map.get? key = some value) : weight value ≤ map.total weight := by
  rw [← total_erase weight map found]
  exact Nat.le_add_left _ _

theorem total_le_mul_size {limit : ℕ}
    (bounded : ∀ key value, map.get? key = some value → weight value ≤ limit) :
    map.total weight ≤ map.size * limit := by
  have listed : ∀ entry ∈ map.entries, weight entry.2 ≤ limit := fun entry mem =>
    bounded entry.1 entry.2 ((get?_eq_some_iff map entry.1 entry.2).mpr mem)
  simp only [total, size]
  generalize map.entries = entries at listed
  induction entries with
  | nil => simp
  | cons entry rest ih =>
      have first := listed entry List.mem_cons_self
      have others := ih fun entry mem => listed entry (List.mem_cons_of_mem _ mem)
      rw [List.map_cons, List.sum_cons, List.length_cons, Nat.succ_mul, Nat.add_comm]
      exact Nat.add_le_add others first

theorem size_erase (found : map.get? key = some value) : (map.erase key).size + 1 = map.size := by
  simpa only [size_eq_total] using total_erase (fun _ => 1) map found

theorem size_set_of_absent (value : Value) (absent : map.get? key = none) :
    (map.set key value).size = map.size + 1 := by
  simpa only [size_eq_total] using total_set_of_absent (fun _ => 1) map value absent

theorem size_set_of_present (value : Value) (found : map.get? key = some stored) :
    (map.set key value).size = map.size := by
  have exchanged := total_set_of_present (fun _ => 1) map value found
  rw [size_eq_total, size_eq_total]
  omega

theorem size_eq_zero_iff : map.size = 0 ↔ ∀ key, map.get? key = none := by
  constructor
  · intro sizeZero key
    rw [get?_eq_none_iff, keys, List.eq_nil_of_length_eq_zero sizeZero]
    simp
  · intro absent
    by_contra nonzero
    obtain ⟨entry, entryMem⟩ := List.exists_mem_of_length_pos (Nat.pos_of_ne_zero nonzero)
    have found := (get?_eq_some_iff map entry.1 entry.2).mpr entryMem
    rw [absent] at found
    simp at found

omit [DecidableEq Key] in
theorem total_eq_zero_of_size (sizeZero : map.size = 0) : map.total weight = 0 := by
  simp [total, List.eq_nil_of_length_eq_zero sizeZero]

end Counting

end OrderedMap

end ServerFoundation
