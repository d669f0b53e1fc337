import Mathlib.Data.List.Lex
import Mathlib.Order.Basic
import ServerFoundation.Data.PrefixCode

/-!
# JavaScript text

Well-formed strings are sequences of Unicode scalar values. JavaScript compares
and measures them by their UTF-16 code units, which orders the characters beyond
the basic plane before some of the characters inside it.
-/

namespace ServerFoundation.JsText

/-- The UTF-16 code units of a character. -/
def codeUnits (char : Char) : List ℕ :=
  if char.toNat < 0x10000 then [char.toNat]
  else [0xD800 + (char.toNat - 0x10000) / 0x400, 0xDC00 + (char.toNat - 0x10000) % 0x400]

/-- The UTF-16 code units of a text. -/
def units (text : String) : List ℕ := text.toList.flatMap codeUnits

/-- `text.length`. -/
def length (text : String) : ℕ := (units text).length

/-- The text of code units; a surrogate without its partner shows as the replacement character. -/
def textOfUnits : List ℕ → List Char
  | [] => []
  | unit :: rest =>
      if 0xD800 ≤ unit ∧ unit < 0xDC00 then
        match rest with
        | low :: others =>
            if 0xDC00 ≤ low ∧ low < 0xE000 then
              Char.ofNat (0x10000 + (unit - 0xD800) * 0x400 + (low - 0xDC00)) :: textOfUnits others
            else Char.ofNat 0xFFFD :: textOfUnits (low :: others)
        | [] => [Char.ofNat 0xFFFD]
      else
        (if 0xDC00 ≤ unit ∧ unit < 0xE000 then Char.ofNat 0xFFFD else Char.ofNat unit) ::
          textOfUnits rest

/-- The line terminators of ECMAScript. -/
def isLineTerminator (char : Char) : Bool := char.toNat ∈ [0xA, 0xD, 0x2028, 0x2029]

/-- `text.split(',')` on a list of characters. -/
def splitCommas : List Char → List (List Char)
  | [] => [[]]
  | char :: rest =>
      if char = ',' then [] :: splitCommas rest
      else
        match splitCommas rest with
        | [] => [[char]]
        | first :: others => (char :: first) :: others

theorem comma_not_mem_of_mem_splitCommas {text piece : List Char}
    (member : piece ∈ splitCommas text) : ',' ∉ piece := by
  fun_induction splitCommas text generalizing piece with
  | case1 => simp_all
  | case2 rest ih =>
      rcases List.mem_cons.mp member with rfl | others
      · simp
      · exact ih others
  | case3 char rest notComma _ ih => simp_all [Ne.symm notComma]
  | case4 char rest notComma first others split ih =>
      rcases List.mem_cons.mp member with rfl | among
      · rw [List.mem_cons, not_or]
        exact ⟨Ne.symm notComma, ih (by rw [split]; exact List.mem_cons_self)⟩
      · exact ih (by rw [split]; exact List.mem_cons_of_mem _ among)

theorem splitCommas_append {front : List Char} (plain : ',' ∉ front) (back : List Char) :
    splitCommas (front ++ ',' :: back) = front :: splitCommas back := by
  induction front with
  | nil => simp [splitCommas]
  | cons char front ih =>
      rw [List.mem_cons, not_or] at plain
      rw [List.cons_append, splitCommas, if_neg (Ne.symm plain.1), ih plain.2]

theorem splitCommas_of_not_mem {text : List Char} (plain : ',' ∉ text) :
    splitCommas text = [text] := by
  induction text with
  | nil => rfl
  | cons char text ih =>
      rw [List.mem_cons, not_or] at plain
      rw [splitCommas, if_neg (Ne.symm plain.1), ih plain.2]

theorem char_toNat_cases (char : Char) :
    char.toNat < 0xD800 ∨ (0xDFFF < char.toNat ∧ char.toNat < 0x110000) := by
  have valid := char.valid
  simp only [UInt32.isValidChar, Nat.isValidChar] at valid
  exact valid

theorem toNat_ofNat {code : ℕ} (valid : code < 0xD800 ∨ (0xDFFF < code ∧ code < 0x110000)) :
    (Char.ofNat code).toNat = code := by
  rw [Char.ofNat, dif_pos valid]
  rfl

theorem codeUnits_prefixCode : PrefixCode codeUnits := by
  intro left right leftRest rightRest same
  have leftValid := char_toNat_cases left
  have rightValid := char_toNat_cases right
  have sameChar : left.toNat = right.toNat ∧ leftRest = rightRest := by
    simp only [codeUnits] at same
    split at same <;> split at same
    · simpa using same
    · simp only [List.cons_append, List.cons.injEq] at same
      omega
    · simp only [List.cons_append, List.cons.injEq] at same
      omega
    · simp only [List.cons_append, List.nil_append, List.cons.injEq] at same
      exact ⟨by omega, same.2.2⟩
  exact ⟨Char.toNat_inj.mp sameChar.1, sameChar.2⟩

theorem textOfUnits_codeUnits (char : Char) (rest : List ℕ) :
    textOfUnits (codeUnits char ++ rest) = char :: textOfUnits rest := by
  have valid := char_toNat_cases char
  unfold codeUnits
  split_ifs with basic
  · have notHigh : ¬(0xD800 ≤ char.toNat ∧ char.toNat < 0xDC00) := by omega
    have notLow : ¬(0xDC00 ≤ char.toNat ∧ char.toNat < 0xE000) := by omega
    rw [List.singleton_append, textOfUnits.eq_def]
    dsimp only
    rw [if_neg notHigh, if_neg notLow, Char.ofNat_toNat]
  · have high : 0xD800 ≤ 0xD800 + (char.toNat - 0x10000) / 0x400 ∧
        0xD800 + (char.toNat - 0x10000) / 0x400 < 0xDC00 := by omega
    have low : 0xDC00 ≤ 0xDC00 + (char.toNat - 0x10000) % 0x400 ∧
        0xDC00 + (char.toNat - 0x10000) % 0x400 < 0xE000 := by omega
    have joined : 0x10000 + (0xD800 + (char.toNat - 0x10000) / 0x400 - 0xD800) * 0x400 +
        (0xDC00 + (char.toNat - 0x10000) % 0x400 - 0xDC00) = char.toNat := by omega
    rw [List.cons_append, List.singleton_append, textOfUnits.eq_def]
    dsimp only
    rw [if_pos high, if_pos low, joined, Char.ofNat_toNat]

theorem textOfUnits_flatMap (text : List Char) : textOfUnits (text.flatMap codeUnits) = text := by
  induction text with
  | nil => rfl
  | cons char rest ih => rw [List.flatMap_cons, textOfUnits_codeUnits, ih]

theorem codeUnits_ne_nil (char : Char) : codeUnits char ≠ [] := by
  simp only [codeUnits]
  split <;> simp

theorem units_injective : Function.Injective units := by
  intro left right same
  exact String.toList_injective (codeUnits_prefixCode.flatMap_injective codeUnits_ne_nil same)

theorem units_append (left right : String) : units (left ++ right) = units left ++ units right := by
  simp [units]

theorem units_append_lt_iff (common left right : String) :
    units (common ++ left) < units (common ++ right) ↔ units left < units right := by
  simp only [units_append]
  induction units common with
  | nil => simp
  | cons unit rest ih => simpa [List.cons_lt_cons_iff] using ih

end ServerFoundation.JsText
