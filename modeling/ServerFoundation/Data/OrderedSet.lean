import ServerFoundation.Data.OrderedMap

/-!
# Insertion-ordered finite sets

A JavaScript `Set`: an insertion-ordered map whose values carry nothing. Adding a
member that is present keeps its position.
-/

namespace ServerFoundation

universe u

/-- A `Set`: a map whose values say nothing. -/
abbrev OrderedSet (Key : Type u) := OrderedMap Key Unit

namespace OrderedSet

variable {Key : Type u} [DecidableEq Key] (set : OrderedSet Key)

/-- `Set.prototype.has`. -/
def has (key : Key) : Bool := (set.get? key).isSome

/-- `Set.prototype.add`. -/
def add (key : Key) : OrderedSet Key := set.set key ()

/-- `Set.prototype.delete`. -/
def delete (key : Key) : OrderedSet Key := set.erase key

@[simp]
theorem has_empty (key : Key) : has (.empty : OrderedSet Key) key = false := rfl

@[simp]
theorem has_add (key other : Key) :
    has (add set key) other = (decide (other = key) || has set other) := by
  unfold has add
  rw [OrderedMap.get?_set]
  by_cases same : other = key <;> simp [same]

@[simp]
theorem has_delete (key other : Key) :
    has (delete set key) other = (decide (other ≠ key) && has set other) := by
  unfold has delete
  rw [OrderedMap.get?_erase]
  by_cases same : other = key <;> simp [same]

theorem mem_keys_iff_has (key : Key) : key ∈ set.keys ↔ has set key = true := by
  rw [OrderedMap.mem_keys_iff, has, Option.isSome_iff_exists]

end OrderedSet

end ServerFoundation
