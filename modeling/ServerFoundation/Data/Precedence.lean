import Mathlib.Data.List.Basic
import Mathlib.Order.Lattice

/-!
# Precedence in a list

Which of two items occurs first in a list. A filter that keeps both does not change
it, and in a list that is sorted by a rank it is the item of the lower rank.
-/

namespace ServerFoundation

universe u

variable {Item : Type u} {items : List Item} {item : Item}

variable [DecidableEq Item]

/-- The first occurrence of one item stands before that of the other. -/
def Precedes (items : List Item) (first second : Item) : Prop :=
  items.idxOf first < items.idxOf second

instance : DecidableRel (Precedes items) := fun first second =>
  inferInstanceAs (Decidable (items.idxOf first < items.idxOf second))

variable {first second : Item}

theorem precedes_cons_self_iff : Precedes (first :: items) first second ↔ first ≠ second := by
  unfold Precedes
  by_cases same : first = second
  · subst same
    simp
  · rw [List.idxOf_cons_self, List.idxOf_cons_ne _ same]
    simp [same]

theorem not_precedes_cons_self : ¬Precedes (second :: items) first second := by
  unfold Precedes
  rw [List.idxOf_cons_self]
  omega

theorem precedes_cons_of_ne (notFirst : item ≠ first) (notSecond : item ≠ second) :
    Precedes (item :: items) first second ↔ Precedes items first second := by
  unfold Precedes
  rw [List.idxOf_cons_ne _ notFirst, List.idxOf_cons_ne _ notSecond]
  omega

theorem precedes_filter_iff (keep : Item → Bool) (firstKept : keep first = true)
    (secondKept : keep second = true) :
    Precedes (items.filter keep) first second ↔ Precedes items first second := by
  induction items with
  | nil => rfl
  | cons item items ih =>
      by_cases isFirst : item = first
      · subst isFirst
        rw [List.filter_cons_of_pos firstKept, precedes_cons_self_iff, precedes_cons_self_iff]
      by_cases isSecond : item = second
      · subst isSecond
        rw [List.filter_cons_of_pos secondKept]
        exact iff_of_false not_precedes_cons_self not_precedes_cons_self
      rw [precedes_cons_of_ne isFirst isSecond, ← ih]
      cases kept : keep item with
      | true =>
          rw [List.filter_cons_of_pos kept]
          exact precedes_cons_of_ne isFirst isSecond
      | false => rw [List.filter_cons_of_neg (by simp [kept])]

theorem precedes_of_rank_lt {Rank : Type*} [LinearOrder Rank] {rank : Item → Rank}
    (sorted : items.Pairwise fun left right => rank left ≤ rank right)
    (member : first ∈ items) (lower : rank first < rank second) : Precedes items first second := by
  have different : first ≠ second := fun same => (ne_of_lt lower) (congrArg rank same)
  induction items with
  | nil => cases member
  | cons item items ih =>
      rw [List.pairwise_cons] at sorted
      by_cases isFirst : item = first
      · subst isFirst
        exact precedes_cons_self_iff.mpr different
      have later := List.mem_of_ne_of_mem (Ne.symm isFirst) member
      have isSecond : item ≠ second := by
        rintro rfl
        exact absurd (sorted.1 first later) (not_le.mpr lower)
      exact (precedes_cons_of_ne isFirst isSecond).mpr (ih sorted.2 later)

end ServerFoundation
