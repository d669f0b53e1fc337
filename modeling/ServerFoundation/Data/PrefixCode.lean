import Mathlib.Data.List.Basic

/-!
# Prefix codes

A code in which no word is a proper prefix of another can be read back from the
front of a longer text. Concatenating code words keeps this property as soon as
the number of words is known or a terminator says where they end.
-/

namespace ServerFoundation

universe u v

variable {Symbol : Type u} {Letter : Type v}

/-- A text that starts with a code word starts with exactly one. -/
def PrefixCode (encode : Symbol → List Letter) : Prop :=
  ∀ ⦃left right : Symbol⦄ ⦃leftRest rightRest : List Letter⦄,
    encode left ++ leftRest = encode right ++ rightRest → left = right ∧ leftRest = rightRest

/-- No text that starts with a code word starts with the given letter. -/
def Avoids (encode : Symbol → List Letter) (letter : Letter) : Prop :=
  ∀ ⦃symbol : Symbol⦄ ⦃rest textRest : List Letter⦄, encode symbol ++ rest ≠ letter :: textRest

namespace PrefixCode

variable {encode : Symbol → List Letter} {leftRest rightRest : List Letter}

theorem flatMap_of_length_eq (code : PrefixCode encode) {left right : List Symbol}
    (sameLength : left.length = right.length)
    (same : left.flatMap encode ++ leftRest = right.flatMap encode ++ rightRest) :
    left = right ∧ leftRest = rightRest := by
  induction left generalizing right with
  | nil =>
      cases right with
      | nil => exact ⟨rfl, by simpa using same⟩
      | cons _ _ => simp at sameLength
  | cons head tail ih =>
      cases right with
      | nil => simp at sameLength
      | cons rightHead rightTail =>
          simp only [List.flatMap_cons, List.append_assoc] at same
          rcases code same with ⟨headSame, restSame⟩
          rcases ih (by simpa using sameLength) restSame with ⟨tailSame, suffixSame⟩
          exact ⟨by rw [headSame, tailSame], suffixSame⟩

theorem flatMap_terminated (code : PrefixCode encode) {terminator : Letter}
    (avoids : Avoids encode terminator) {left right : List Symbol}
    (same : left.flatMap encode ++ terminator :: leftRest =
      right.flatMap encode ++ terminator :: rightRest) : left = right ∧ leftRest = rightRest := by
  induction left generalizing right with
  | nil =>
      cases right with
      | nil => exact ⟨rfl, by simpa using same⟩
      | cons rightHead rightTail =>
          simp only [List.flatMap_nil, List.nil_append, List.flatMap_cons,
            List.append_assoc] at same
          exact absurd same.symm (@avoids _ _ _)
  | cons head tail ih =>
      cases right with
      | nil =>
          simp only [List.flatMap_nil, List.nil_append, List.flatMap_cons,
            List.append_assoc] at same
          exact absurd same (@avoids _ _ _)
      | cons rightHead rightTail =>
          simp only [List.flatMap_cons, List.append_assoc] at same
          rcases code same with ⟨headSame, restSame⟩
          rcases ih restSame with ⟨tailSame, suffixSame⟩
          exact ⟨by rw [headSame, tailSame], suffixSame⟩

theorem flatMap_injective (code : PrefixCode encode) (nonempty : ∀ symbol, encode symbol ≠ []) :
    Function.Injective fun symbols : List Symbol => symbols.flatMap encode := by
  intro left
  induction left with
  | nil =>
      intro right same
      cases right with
      | nil => rfl
      | cons rightHead _ =>
          have empty := congrArg List.length same
          have positive := List.length_pos_iff.mpr (nonempty rightHead)
          simp only [List.flatMap_nil, List.length_nil, List.flatMap_cons,
            List.length_append] at empty
          omega
  | cons head tail ih =>
      intro right same
      cases right with
      | nil =>
          have empty := congrArg List.length same
          have positive := List.length_pos_iff.mpr (nonempty head)
          simp only [List.flatMap_nil, List.length_nil, List.flatMap_cons,
            List.length_append] at empty
          omega
      | cons rightHead rightTail =>
          simp only [List.flatMap_cons] at same
          rcases code same with ⟨headSame, restSame⟩
          rw [headSame, ih restSame]

theorem cons (code : PrefixCode encode) (marker : Letter) :
    PrefixCode fun symbol => marker :: encode symbol := by
  intro left right leftRest rightRest same
  simp only [List.cons_append, List.cons.injEq, true_and] at same
  exact code same

end PrefixCode

theorem avoids_cons {encode : Symbol → List Letter} {marker letter : Letter}
    (differ : marker ≠ letter) : Avoids (fun symbol => marker :: encode symbol) letter := by
  intro symbol rest textRest same
  simp only [List.cons_append, List.cons.injEq] at same
  exact differ same.1

theorem intercalate_cons_flatMap {Item : Type} (separator first : List Item)
    (rest : List (List Item)) :
    separator.intercalate (first :: rest) =
      first ++ rest.flatMap fun items => separator ++ items := by
  induction rest generalizing first with
  | nil => simp
  | cons next rest ih =>
      rw [List.intercalate_cons_cons, ih, List.flatMap_cons, List.append_assoc, List.append_assoc]

end ServerFoundation
