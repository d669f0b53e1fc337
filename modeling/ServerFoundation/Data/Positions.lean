import Mathlib.Data.List.Basic

/-!
# Positions in a growing list

What stands at a position of a list to which an item has been appended, or of which
one item has been replaced.
-/

namespace ServerFoundation

universe u

variable {Item : Type u} {items : List Item} {item old found : Item} {index position : ℕ}

theorem getElem?_append_singleton_cases (stands : (items ++ [item])[position]? = some found) :
    items[position]? = some found ∨ position = items.length ∧ found = item := by
  rcases Nat.lt_trichotomy position items.length with inside | last | beyond
  · rw [List.getElem?_append_left inside] at stands
    exact .inl stands
  · subst last
    rw [List.getElem?_concat_length, Option.some.injEq] at stands
    exact .inr ⟨rfl, stands.symm⟩
  · rw [List.getElem?_eq_none (by simp; omega)] at stands
    cases stands

theorem getElem?_append_of_some (stands : items[position]? = some found) (others : List Item) :
    (items ++ others)[position]? = some found := by
  rw [List.getElem?_append_left (List.getElem?_eq_some_iff.mp stands).1]
  exact stands

theorem getElem?_set_cases (stands : (items.set index item)[position]? = some found) :
    position = index ∧ found = item ∨ position ≠ index ∧ items[position]? = some found := by
  by_cases replaced : position = index
  · subst replaced
    rw [List.getElem?_set_self', Option.map_eq_map, Option.map_eq_some_iff] at stands
    rcases stands with ⟨_, _, same⟩
    exact .inl ⟨rfl, same.symm⟩
  · rw [List.getElem?_set_ne (Ne.symm replaced)] at stands
    exact .inr ⟨replaced, stands⟩

theorem getElem?_set_of_some (stands : items[index]? = some old) :
    (items.set index item)[index]? = some item := by
  rw [List.getElem?_set_self', stands]
  rfl

theorem getElem?_set_of_ne (stands : items[position]? = some found) (kept : position ≠ index) :
    (items.set index item)[position]? = some found := by
  rw [List.getElem?_set_ne (Ne.symm kept)]
  exact stands

end ServerFoundation
