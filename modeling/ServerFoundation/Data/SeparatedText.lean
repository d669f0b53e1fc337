import Mathlib.Data.List.Count

/-!
# Texts joined by a separator

A text that joins its parts by a separator which the parts may contain can be
read in several ways. Knowing how often the separator occurs in each part is
what singles out one reading.
-/

namespace ServerFoundation

universe u

variable {Letter : Type u} [DecidableEq Letter] {separator : Letter}

theorem append_separator_inj {left right leftRest rightRest : List Letter}
    (same : left ++ separator :: leftRest = right ++ separator :: rightRest)
    (sameCount : left.count separator = right.count separator) :
    left = right ∧ leftRest = rightRest := by
  induction left generalizing right with
  | nil =>
      cases right with
      | nil => exact ⟨rfl, (List.cons.inj same).2⟩
      | cons head tail =>
          have isHead : separator = head := (List.cons.inj same).1
          rw [← isHead, List.count_nil, List.count_cons_self] at sameCount
          exact absurd sameCount (by omega)
  | cons head tail ih =>
      cases right with
      | nil =>
          have isHead : head = separator := (List.cons.inj same).1
          rw [isHead, List.count_nil, List.count_cons_self] at sameCount
          exact absurd sameCount (by omega)
      | cons rightHead rightTail =>
          rcases List.cons.inj same with ⟨rfl, sameTail⟩
          rw [List.count_cons, List.count_cons, Nat.add_right_cancel_iff] at sameCount
          rcases ih sameTail sameCount with ⟨rfl, sameRest⟩
          exact ⟨rfl, sameRest⟩

theorem not_mem_of_mem_splitOn {text part : List Letter}
    (member : part ∈ text.splitOn separator) : separator ∉ part := by
  induction text generalizing part with
  | nil =>
      rw [List.splitOn_nil, List.mem_singleton] at member
      rw [member]
      exact List.not_mem_nil
  | cons char text ih =>
      rw [List.splitOn_cons_eq_if_modifyHead] at member
      split at member
      · rcases List.mem_cons.mp member with rfl | inRest
        · exact List.not_mem_nil
        · exact ih inRest
      · rename_i other
        rcases parts : text.splitOn separator with _ | ⟨first, rest⟩
        · exact absurd parts (List.splitOn_ne_nil _ _)
        · rw [parts, List.modifyHead_cons] at member
          rcases List.mem_cons.mp member with rfl | inRest
          · have free := ih (by rw [parts]; exact List.mem_cons_self)
            intro inPart
            rcases List.mem_cons.mp inPart with rfl | inFirst
            · exact other (beq_self_eq_true _)
            · exact free inFirst
          · exact ih (by rw [parts]; exact List.mem_cons_of_mem _ inRest)

end ServerFoundation
