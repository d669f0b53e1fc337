import Mathlib.Data.List.TakeWhile

/-!
# Anchored regular expressions

The regular expressions that consist of characters and of groups of characters other than a
given one, between `^` and `$`. A pattern is read from its text, with a backslash before
every character that has a meaning of its own. The groups are greedy and try fewer
characters when the rest does not fit.
-/

namespace ServerFoundation.RegExp

/-- What one part of a regular expression matches. -/
inductive Atom where
  | char (char : Char)
  /-- A group `([^x]+)` for the excluded character `x`. -/
  | capture (excluded : Char)
deriving DecidableEq, Repr

/-- The characters with a meaning of their own. -/
def syntaxCharacters : List Char :=
  ['.', '*', '+', '?', '^', '$', '\x7b', '\x7d', '(', ')', '|', '[', ']', '\\']

/-- The pattern behind its `^`, up to the `$` at the end; other patterns are not read. -/
@[grind =]
def readAtoms : List Char → Option (List Atom)
  | [] => none
  | ['$'] => some []
  | '\\' :: char :: rest =>
      if char ∈ syntaxCharacters then (readAtoms rest).map (.char char :: ·) else none
  | '(' :: '[' :: '^' :: excluded :: ']' :: '+' :: ')' :: rest =>
      if excluded ∈ syntaxCharacters then none else (readAtoms rest).map (.capture excluded :: ·)
  | char :: rest =>
      if char ∈ syntaxCharacters then none else (readAtoms rest).map (.char char :: ·)

/-- The parts of an expression, if it can be read. -/
def read (source : String) : Option (List Atom) :=
  match source.toList with
  | '^' :: rest => readAtoms rest
  | _ => none

/-- The captured groups of a text that fits as a whole. -/
def exec : List Atom → List Char → Option (List (List Char))
  | [], text => if text = [] then some [] else none
  | .char _ :: _, [] => none
  | .char expected :: atoms, first :: rest => if first = expected then exec atoms rest else none
  | .capture excluded :: atoms, text =>
      (List.range (text.takeWhile (· ≠ excluded)).length).reverse.findSome? fun shorter =>
        (exec atoms (text.drop (shorter + 1))).map (text.take (shorter + 1) :: ·)

/-- The texts that fit. -/
inductive Accepts : List Atom → List Char → Prop
  | nil : Accepts [] []
  | char (char : Char) {atoms : List Atom} {text : List Char} (rest : Accepts atoms text) :
      Accepts (.char char :: atoms) (char :: text)
  | capture {excluded : Char} {group : List Char} (nonempty : group ≠ []) (free : excluded ∉ group)
      {atoms : List Atom} {text : List Char} (rest : Accepts atoms text) :
      Accepts (.capture excluded :: atoms) (group ++ text)

theorem exec_isSome_iff (atoms : List Atom) (text : List Char) :
    (exec atoms text).isSome ↔ Accepts atoms text := by
  induction atoms generalizing text with
  | nil =>
      unfold exec
      constructor
      · intro found
        split at found
        · rename_i empty
          rw [empty]
          exact .nil
        · cases found
      · rintro ⟨⟩
        rfl
  | cons atom atoms ih =>
      cases atom with
      | char expected =>
          constructor
          · intro found
            rcases text with _ | ⟨first, rest⟩
            · cases found
            · unfold exec at found
              split at found
              · rename_i same
                rw [same]
                exact .char expected ((ih rest).mp found)
              · cases found
          · rintro ⟨⟩
            rename_i rest fits
            rw [exec, if_pos rfl]
            exact (ih rest).mpr fits
      | capture excluded =>
          simp only [exec, List.findSome?_isSome_iff, List.mem_reverse, List.mem_range,
            Option.isSome_map, ih]
          constructor
          · rintro ⟨shorter, inRange, fits⟩
            rw [← List.take_append_drop (shorter + 1) text]
            refine .capture ?_ (fun member => ?_) fits
            · intro empty
              rw [List.take_eq_nil_iff] at empty
              rcases empty with zero | noText
              · cases zero
              · rw [noText] at inRange
                simp at inRange
            · have isPrefix : text.take (shorter + 1) <+: text.takeWhile (· ≠ excluded) := by
                refine List.prefix_of_prefix_length_le (List.take_prefix _ _)
                  (List.takeWhile_prefix _) ?_
                rw [List.length_take]
                omega
              have differs := List.mem_takeWhile_imp (isPrefix.subset member)
              simp at differs
          · intro accepts
            cases accepts with
            | @capture _ group nonempty free _ rest fits =>
                have inGroup : ∀ char ∈ group, decide (char ≠ excluded) = true := by
                  intro char member
                  exact decide_eq_true fun same => free (same ▸ member)
                have positive := List.length_pos_iff.mpr nonempty
                have whole : group.length - 1 + 1 = group.length := by omega
                refine ⟨group.length - 1, ?_, ?_⟩
                · rw [List.takeWhile_append_of_pos inGroup, List.length_append]
                  omega
                · rw [whole, List.drop_left]
                  exact fits

end ServerFoundation.RegExp
