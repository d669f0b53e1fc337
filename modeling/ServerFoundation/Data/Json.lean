import Mathlib.Tactic.IntervalCases
import ServerFoundation.Data.PrefixCode

/-!
# JSON text

The text that `JSON.stringify` gives for well-formed strings and for objects
whose members are already written. Quoting is a prefix code, so that a text made
of quoted strings can be read back in one way only.
-/

namespace ServerFoundation.Json

/-- A lower-case hexadecimal digit. -/
def hexDigit (value : ℕ) : Char :=
  if value < 10 then Char.ofNat (0x30 + value) else Char.ofNat (0x57 + value)

/-- How `JSON.stringify` writes a control character. -/
def escapeControl (code : ℕ) : List Char :=
  if code = 0x8 then ['\\', 'b']
  else if code = 0x9 then ['\\', 't']
  else if code = 0xA then ['\\', 'n']
  else if code = 0xC then ['\\', 'f']
  else if code = 0xD then ['\\', 'r']
  else ['\\', 'u', '0', '0', hexDigit (code / 16), hexDigit (code % 16)]

/-- How `JSON.stringify` writes one character of a string. -/
def escape (char : Char) : List Char :=
  if char = '"' ∨ char = '\\' then ['\\', char]
  else if char.toNat < 0x20 then escapeControl char.toNat
  else [char]

/-- A quoted string. -/
def quote (text : String) : List Char := '"' :: text.toList.flatMap escape ++ ['"']

/-- One member of an object, with its value already written. -/
def member (entry : String × List Char) : List Char := quote entry.1 ++ ':' :: entry.2

/-- An object, with the values of its members already written. -/
def object (members : List (String × List Char)) : List Char :=
  '{' :: [','].intercalate (members.map member) ++ ['}']

/-- An object whose values are strings. -/
def record (entries : List (String × String)) : List Char :=
  object (entries.map fun entry => (entry.1, quote entry.2))

/-- The value of a lower-case hexadecimal digit. -/
def hexValue (char : Char) : ℕ :=
  if char.toNat < 0x3A then char.toNat - 0x30 else char.toNat - 0x57

/-- Reads back one escaped character. -/
def unescape : List Char → Option (Char × List Char)
  | '\\' :: 'u' :: '0' :: '0' :: high :: low :: rest =>
      some (Char.ofNat (hexValue high * 16 + hexValue low), rest)
  | '\\' :: 'n' :: rest => some ('\n', rest)
  | '\\' :: 'r' :: rest => some ('\r', rest)
  | '\\' :: 't' :: rest => some ('\t', rest)
  | '\\' :: 'b' :: rest => some (Char.ofNat 0x8, rest)
  | '\\' :: 'f' :: rest => some (Char.ofNat 0xC, rest)
  | '\\' :: char :: rest => some (char, rest)
  | char :: rest => some (char, rest)
  | [] => none

theorem unescape_escapeControl {code : ℕ} (control : code < 0x20) (rest : List Char) :
    unescape (escapeControl code ++ rest) = some (Char.ofNat code, rest) := by
  interval_cases code <;> rfl

theorem unescape_escape (char : Char) (rest : List Char) :
    unescape (escape char ++ rest) = some (char, rest) := by
  simp only [escape]
  split
  · rename_i special
    rcases special with rfl | rfl <;> rfl
  · rename_i plain
    simp only [not_or] at plain
    split
    · rename_i control
      rw [unescape_escapeControl control, Char.ofNat_toNat]
    · simp [unescape, plain.2]

theorem escape_prefixCode : PrefixCode escape := by
  intro left right leftRest rightRest same
  have read := congrArg unescape same
  simpa only [unescape_escape, Option.some.injEq, Prod.mk.injEq] using read

theorem escape_avoids_quote : Avoids escape '"' := by
  intro char rest textRest same
  simp only [escape] at same
  split at same
  · simp at same
  · rename_i plain
    split at same
    · rename_i control
      revert same
      generalize char.toNat = code at control
      interval_cases code <;> simp [escapeControl]
    · simp only [List.singleton_append, List.cons.injEq] at same
      exact plain (Or.inl same.1)

theorem quote_prefixCode : PrefixCode quote := by
  intro left right leftRest rightRest same
  simp only [quote, List.cons_append, List.append_assoc, List.cons.injEq, true_and] at same
  rcases escape_prefixCode.flatMap_terminated escape_avoids_quote same with ⟨chars, rest⟩
  exact ⟨String.toList_injective chars, rest⟩

/-- A member whose value is a string. -/
def textMember (entry : String × String) : List Char := member (entry.1, quote entry.2)

theorem textMember_prefixCode : PrefixCode textMember := by
  intro left right leftRest rightRest same
  simp only [textMember, member, List.append_assoc, List.cons_append] at same
  rcases quote_prefixCode same with ⟨nameSame, valueOnwards⟩
  simp only [List.cons.injEq, true_and] at valueOnwards
  rcases quote_prefixCode valueOnwards with ⟨valueSame, rest⟩
  exact ⟨Prod.ext nameSame valueSame, rest⟩

theorem record_prefixCode : PrefixCode record := by
  intro left right leftRest rightRest same
  cases left with
  | nil =>
      cases right with
      | nil => exact ⟨rfl, by simpa using same⟩
      | cons head tail => simp [record, object, intercalate_cons_flatMap, member, quote] at same
  | cons head tail =>
      cases right with
      | nil => simp [record, object, intercalate_cons_flatMap, member, quote] at same
      | cons rightHead rightTail =>
          simp only [record, object, List.map_cons, intercalate_cons_flatMap, List.map_map,
            List.cons_append, List.append_assoc, List.cons.injEq, true_and,
            List.flatMap_map] at same
          rcases textMember_prefixCode same with ⟨headSame, restSame⟩
          have marked := textMember_prefixCode.cons ','
          have avoids : Avoids (fun entry => ',' :: textMember entry) '}' := avoids_cons (by decide)
          rcases marked.flatMap_terminated avoids restSame with ⟨tailSame, suffixSame⟩
          exact ⟨by rw [headSame, tailSame], suffixSame⟩

end ServerFoundation.Json
