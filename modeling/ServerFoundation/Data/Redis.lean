import Mathlib.Data.Finset.Basic
import Mathlib.Data.List.Sort
import ServerFoundation.Data.OrderedMap

/-!
# Redis values

The parts of the Redis data model that scripts observe: sorted sets with their
range commands, and keys with an expiry deadline. Hashes are ordered maps and
plain sets are `Finset`s, used as they are.

A collection that runs empty is a key that does not exist, so an expired key is
replaced by the empty collection.
-/

namespace ServerFoundation

universe u v w

/-- A sorted set: members with their scores. -/
abbrev SortedSet (Member : Type u) (Score : Type v) := OrderedMap Member Score

namespace SortedSet

variable {Member : Type u} {Score : Type v} [LinearOrder Score] {set : SortedSet Member Score}
  {member : Member} {limit score : Score}

/-- `ZREMRANGEBYSCORE key -inf limit`. -/
def removeUpTo (set : SortedSet Member Score) (limit : Score) : SortedSet Member Score :=
  set.filter fun score => decide (limit < score)

/-- `ZRANGEBYSCORE key -inf limit LIMIT 0 count`: by score, ties by member. -/
def rangeUpTo [LinearOrder Member] (set : SortedSet Member Score) (limit : Score) (count : ℕ) :
    List Member :=
  (((set.entries.filter fun entry => entry.2 ≤ limit).insertionSort fun left right =>
    left.2 < right.2 ∨ (left.2 = right.2 ∧ left.1 ≤ right.1)).take count).map Prod.fst

/-- The score of `ZREVRANGE key 0 0 WITHSCORES`. -/
def maxScore (set : SortedSet Member Score) : Option Score :=
  (set.entries.map Prod.snd).max?

@[simp]
theorem get?_removeUpTo [DecidableEq Member] (set : SortedSet Member Score) (limit : Score)
    (member : Member) :
    (set.removeUpTo limit).get? member =
      (set.get? member).filter fun score => decide (limit < score) :=
  OrderedMap.get?_filter set _ member

theorem removeUpTo_kept [DecidableEq Member] (found : set.get? member = some score)
    (above : limit < score) : (set.removeUpTo limit).get? member = some score := by
  rw [get?_removeUpTo, found]
  simp [above]

theorem of_get?_removeUpTo [DecidableEq Member]
    (found : (set.removeUpTo limit).get? member = some score) :
    set.get? member = some score ∧ limit < score := by
  rw [get?_removeUpTo, Option.filter_eq_some_iff] at found
  simpa using found

theorem score_le_of_mem_rangeUpTo [LinearOrder Member] {count : ℕ}
    (listed : member ∈ set.rangeUpTo limit count) :
    ∃ score, set.get? member = some score ∧ score ≤ limit := by
  obtain ⟨entry, taken, rfl⟩ := List.mem_map.mp listed
  have sorted := List.mem_of_mem_take taken
  rw [List.mem_insertionSort, List.mem_filter] at sorted
  exact ⟨entry.2, (set.get?_eq_some_iff _ _).mpr sorted.1, by simpa using sorted.2⟩

theorem rangeUpTo_nodup [LinearOrder Member] (set : SortedSet Member Score) (limit : Score)
    (count : ℕ) : (set.rangeUpTo limit count).Nodup := by
  have sorted := (set.entries.filter fun entry => entry.2 ≤ limit).perm_insertionSort
    fun left right => left.2 < right.2 ∨ (left.2 = right.2 ∧ left.1 ≤ right.1)
  have filtered : ((set.entries.filter fun entry => entry.2 ≤ limit).map Prod.fst).Nodup :=
    set.nodupKeys.sublist (List.filter_sublist.map Prod.fst)
  have nodup := (sorted.map Prod.fst).nodup_iff.mpr filtered
  exact nodup.sublist ((List.take_sublist _ _).map Prod.fst)

theorem le_maxScore [DecidableEq Member] (found : set.get? member = some score) :
    ∃ top, set.maxScore = some top ∧ score ≤ top := by
  have listed : score ∈ set.entries.map Prod.snd :=
    List.mem_map.mpr ⟨_, (set.get?_eq_some_iff member score).mp found, rfl⟩
  obtain ⟨top, isTop⟩ := Option.isSome_iff_exists.mp (List.isSome_max?_of_mem listed)
  exact ⟨top, isTop, (List.max?_le_iff isTop).mp le_rfl score listed⟩

end SortedSet

/-- A key whose value disappears when its deadline has passed. -/
structure Expiring (Value : Type u) (Time : Type v) where
  value : Value
  deadline : Option Time

namespace Expiring

variable {Value : Type u} {Time : Type v} [LinearOrder Time] {key : Expiring Value Time}
  {now : Time}

/-- A key that has passed its deadline at a given time. -/
def Lapsed (key : Expiring Value Time) (now : Time) : Prop :=
  ∃ deadline, key.deadline = some deadline ∧ deadline < now

instance (key : Expiring Value Time) (now : Time) : Decidable (key.Lapsed now) :=
  match stored : key.deadline with
  | none => isFalse (by simp [Lapsed, stored])
  | some deadline => decidable_of_iff (deadline < now) (by simp [Lapsed, stored])

/-- What is left of a key when time has advanced to `now`. -/
def elapse (absent : Value) (key : Expiring Value Time) (now : Time) : Expiring Value Time :=
  if key.Lapsed now then ⟨absent, none⟩ else key

/-- An existing key disappears when time reaches `now`. -/
def Expires (absent : Value) (key : Expiring Value Time) (now : Time) : Prop :=
  key.value ≠ absent ∧ key.Lapsed now

omit [LinearOrder Time] in
/-- Write the value and keep the deadline. -/
def write (key : Expiring Value Time) (value : Value) : Expiring Value Time :=
  { key with value }

omit [LinearOrder Time] in
/-- `EXPIRE` and `PEXPIRE`: set the deadline. -/
def expireAt (key : Expiring Value Time) (deadline : Time) : Expiring Value Time :=
  { key with deadline := some deadline }

omit [LinearOrder Time] in
@[simp]
theorem write_value (key : Expiring Value Time) (value : Value) :
    (key.write value).value = value := rfl

omit [LinearOrder Time] in
@[simp]
theorem write_deadline (key : Expiring Value Time) (value : Value) :
    (key.write value).deadline = key.deadline := rfl

omit [LinearOrder Time] in
@[simp]
theorem expireAt_value (key : Expiring Value Time) (deadline : Time) :
    (key.expireAt deadline).value = key.value := rfl

omit [LinearOrder Time] in
@[simp]
theorem expireAt_deadline (key : Expiring Value Time) (deadline : Time) :
    (key.expireAt deadline).deadline = some deadline := rfl

theorem elapse_of_not_lapsed (absent : Value) (alive : ¬key.Lapsed now) :
    key.elapse absent now = key := if_neg alive

theorem elapse_of_lapsed (absent : Value) (lapsed : key.Lapsed now) :
    key.elapse absent now = ⟨absent, none⟩ := if_pos lapsed

theorem elapse_value {absent : Value} (kept : ¬key.Expires absent now) :
    (key.elapse absent now).value = key.value := by
  by_cases lapsed : key.Lapsed now
  · rw [elapse_of_lapsed absent lapsed]
    by_contra differ
    exact kept ⟨Ne.symm differ, lapsed⟩
  · rw [elapse_of_not_lapsed absent lapsed]

end Expiring

end ServerFoundation
