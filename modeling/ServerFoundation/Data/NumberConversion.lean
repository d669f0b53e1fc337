import Mathlib.Data.List.TakeWhile
import ServerFoundation.Data.JsonParsing

/-!
# Converting text to numbers

`Number(text)` gives a double, reads the text of a double back, and gives no number for a
text with a character that belongs to no numeral.
-/

namespace ServerFoundation.JsNumber

section Rounding

theorem magnitude_abs (value : ℚ) : magnitude |value| = magnitude value := by
  simp only [magnitude, unit, abs_abs]

theorem magnitude_nonneg (value : ℚ) : 0 ≤ magnitude value := by
  have floorNonneg : 0 ≤ ⌊|value| / unit value⌋ :=
    Int.floor_nonneg.mpr (div_nonneg (abs_nonneg value) (unit_pos value).le)
  have rounded : 0 ≤ roundHalfEven (|value| / unit value) := by
    unfold roundHalfEven
    simp only
    split_ifs <;> omega
  exact mul_nonneg (by exact_mod_cast rounded) (unit_pos value).le

theorem magnitude_eq_of_multiple {value : ℚ} {count exponent : ℤ} (positive : 0 < value)
    (same : value = count * 2 ^ exponent)
    (coarse : max (Int.log 2 |value|) (-1022) - 52 ≤ exponent) : magnitude value = value := by
  have power : ∃ steps : ℕ, (2 : ℚ) ^ exponent = 2 ^ steps * unit value := by
    refine ⟨(exponent - (max (Int.log 2 |value|) (-1022) - 52)).toNat, ?_⟩
    rw [unit, ← zpow_natCast, ← zpow_add₀ (by norm_num), Int.toNat_of_nonneg (by omega),
      sub_add_cancel]
  rcases power with ⟨steps, power⟩
  have whole : |value| / unit value = ((count * 2 ^ steps : ℤ) : ℚ) := by
    rw [abs_of_pos positive, div_eq_iff (unit_pos value).ne']
    push_cast
    rw [mul_assoc, ← power]
    exact same
  have rounded : roundHalfEven (|value| / unit value) = count * 2 ^ steps :=
    roundHalfEven_eq (by rw [whole, sub_self, abs_zero]; norm_num)
  rw [magnitude, rounded, ← whole, div_mul_cancel₀ _ (unit_pos value).ne', abs_of_pos positive]

theorem log_le_of_lt {value : ℚ} {exponent : ℤ} (positive : 0 < value)
    (below : value < 2 ^ (exponent + 1)) (notSmall : -1022 ≤ exponent) :
    max (Int.log 2 |value|) (-1022) ≤ exponent := by
  have log : Int.log 2 |value| < exponent + 1 := by
    rw [abs_of_pos positive]
    exact (Int.lt_zpow_iff_log_lt (by decide) positive).mp below
  omega

theorem magnitude_magnitude (value : ℚ) : magnitude (magnitude value) = magnitude value := by
  have positiveUnit := unit_pos value
  rcases (magnitude_nonneg value).eq_or_lt with zero | positive
  · rw [← zero]
    simp [magnitude, roundHalfEven]
  have nonzero : value ≠ 0 := by
    rintro rfl
    simp [magnitude, roundHalfEven] at positive
  have small : roundHalfEven (|value| / unit value) ≤ 2 ^ 53 := by
    have error := (abs_le.mp (abs_roundHalfEven_sub_le (|value| / unit value))).2
    have below : |value| / unit value < 2 ^ 53 := by
      have bound := lt_unit_mul (abs_pos.mpr nonzero)
      rw [div_lt_iff₀ positiveUnit]
      simpa only [unit, abs_abs] using bound
    have close : (roundHalfEven (|value| / unit value) : ℚ) < 2 ^ 53 + 1 := by linarith
    have whole : roundHalfEven (|value| / unit value) < 2 ^ 53 + 1 := by exact_mod_cast close
    omega
  rcases small.lt_or_eq with less | top
  · have below : magnitude value < 2 ^ (max (Int.log 2 |value|) (-1022) + 1) := by
      have split : (2 : ℚ) ^ (max (Int.log 2 |value|) (-1022) + 1) = 2 ^ 53 * unit value := by
        rw [unit, ← zpow_natCast, ← zpow_add₀ (by norm_num)]
        congr 1
        omega
      rw [split, magnitude]
      exact mul_lt_mul_of_pos_right (by exact_mod_cast less) positiveUnit
    exact magnitude_eq_of_multiple positive rfl
      (sub_le_sub_right (log_le_of_lt positive below (le_max_right _ _)) 52)
  · have power : magnitude value = ((2 ^ 52 : ℤ) : ℚ) *
        2 ^ (max (Int.log 2 |value|) (-1022) - 52 + 1) := by
      rw [magnitude, top, unit, zpow_add₀ (by norm_num)]
      push_cast
      ring
    have below : magnitude value < 2 ^ (max (Int.log 2 |value|) (-1022) + 1 + 1) := by
      have power : magnitude value = 2 ^ (max (Int.log 2 |value|) (-1022) + 1) := by
        rw [power, Int.cast_pow, Int.cast_ofNat, ← zpow_natCast, ← zpow_add₀ (by norm_num)]
        congr 1
        omega
      rw [power]
      exact zpow_lt_zpow_right₀ (by norm_num) (lt_add_one _)
    have notSmall := le_max_right (Int.log 2 |value|) (-1022)
    have coarse := log_le_of_lt positive below (by omega)
    exact magnitude_eq_of_multiple positive power (by omega)

theorem isDouble_round (value : ℚ) : (round value).IsDouble := by
  by_cases zero : value = 0
  · rw [zero]
    rfl
  rw [round_eq zero]
  split_ifs with large negative
  · trivial
  · rcases (magnitude_nonneg value).eq_or_lt with none | positive
    · rw [← none, neg_zero]
      rfl
    · have same : magnitude (-magnitude value) = magnitude value := by
        rw [← magnitude_abs, abs_neg, abs_of_pos positive, magnitude_magnitude]
      rw [IsDouble, round_eq (neg_ne_zero.mpr positive.ne'), same, if_neg large,
        if_pos (neg_lt_zero.mpr positive)]
  · rcases (magnitude_nonneg value).eq_or_lt with none | positive
    · rw [← none]
      rfl
    · rw [IsDouble, round_eq positive.ne', magnitude_magnitude, if_neg large,
        if_neg positive.not_gt]

end Rounding

section Conversion

variable {char : Char} {text : List Char} {radix : ℕ}

theorem isDouble_neg {number : JsNumber} (double : number.IsDouble) : number.neg.IsDouble := by
  cases number with
  | finite value =>
      by_cases zero : value = 0
      · rw [zero]
        rfl
      have same : magnitude (-value) = magnitude value := by
        rw [← magnitude_abs, abs_neg, magnitude_abs]
      rw [IsDouble, round_eq zero] at double
      rw [neg, IsDouble, round_eq (neg_ne_zero.mpr zero), same]
      split_ifs at double ⊢ with large flipped negative negative
      · injection double with double
        linarith
      · injection double with double
        rw [double]
      · injection double with double
        exact congrArg finite (neg_eq_iff_eq_neg.mp double)
      · injection double with double
        exact absurd (neg_lt_zero.mpr (lt_of_le_of_ne (not_lt.mp negative) (Ne.symm zero))) flipped
  | infinite negative => trivial
  | nan => trivial

theorem isDouble_parseUnsigned (text : List Char) : (parseUnsigned text).IsDouble := by
  unfold parseUnsigned
  split_ifs
  · trivial
  · split
    · exact isDouble_round _
    · trivial

theorem isDouble_parseRadix (radix : ℕ) (text : List Char) : (parseRadix radix text).IsDouble := by
  unfold parseRadix
  split
  · exact isDouble_round _
  · trivial

theorem isDouble_ofText (text : String) : (ofText text).IsDouble := by
  unfold ofText
  split
  · rfl
  · exact isDouble_parseUnsigned _
  · exact isDouble_neg (isDouble_parseUnsigned _)
  · exact isDouble_parseRadix 16 _
  · exact isDouble_parseRadix 16 _
  · exact isDouble_parseRadix 8 _
  · exact isDouble_parseRadix 8 _
  · exact isDouble_parseRadix 2 _
  · exact isDouble_parseRadix 2 _
  · exact isDouble_parseUnsigned _

/-- The digits of any radix and the letters of prefixes, exponents and `Infinity`. -/
def isNumeralChar (char : Char) : Bool :=
  (digitValue 16 char).isSome || "xXoOInity+-.".toList.contains char

theorem digitValue_isSome (small : radix ≤ 16) (digit : (digitValue radix char).isSome) :
    (digitValue 16 char).isSome := by
  rcases Option.isSome_iff_exists.mp digit with ⟨value, found⟩
  simp only [digitValue, Option.filter_eq_some_iff, decide_eq_true_eq] at found
  have within : digitValue 16 char = some value := by
    simp only [digitValue, Option.filter_eq_some_iff, decide_eq_true_eq]
    exact ⟨found.1, lt_of_lt_of_le found.2 small⟩
  rw [within]
  rfl

theorem mem_spanDigits (small : radix ≤ 16) (member : char ∈ text) :
    isNumeralChar char = true ∨ char ∈ (spanDigits radix text).2 := by
  induction text with
  | nil => cases member
  | cons first text ih =>
      rw [spanDigits]
      cases digit : digitValue radix first with
      | none => exact Or.inr member
      | some value =>
          rcases List.mem_cons.mp member with rfl | rest
          · refine Or.inl ?_
            rw [isNumeralChar, digitValue_isSome small (by rw [digit]; rfl), Bool.true_or]
          · exact ih rest

theorem numeral_of_parseDigits (small : radix ≤ 16) {value : ℕ}
    (read : parseDigits radix text = some value) (member : char ∈ text) :
    isNumeralChar char = true := by
  have cases := mem_spanDigits small member
  unfold parseDigits at read
  split at read
  · cases read
  · rename_i noRest
    rw [noRest] at cases
    simpa using cases
  · cases read

theorem numeral_of_parseExponent {value : ℤ} (read : parseExponent text = some value)
    (member : char ∈ text) : isNumeralChar char = true := by
  have digits : ∀ {text : List Char}, char ∈ text → parseDigits 10 text ≠ none →
      isNumeralChar char = true := by
    intro text among found
    rcases Option.ne_none_iff_exists'.mp found with ⟨digits, found⟩
    exact numeral_of_parseDigits (by decide) found among
  unfold parseExponent at read
  split at read
  · cases member
  · split_ifs at read with isMarker
    rcases List.mem_cons.mp member with rfl | among
    · rcases isMarker with rfl | rfl <;> decide
    split at read
    · rcases List.mem_cons.mp among with rfl | inDigits
      · decide
      · exact digits inDigits fun nothing => by simp [nothing] at read
    · rcases List.mem_cons.mp among with rfl | inDigits
      · decide
      · exact digits inDigits fun nothing => by simp [nothing] at read
    · exact digits among fun nothing => by simp [nothing] at read

theorem numeral_of_parseDecimal {value : ℚ} (read : parseDecimal text = some value)
    (member : char ∈ text) : isNumeralChar char = true := by
  rcases mem_spanDigits (by decide : 10 ≤ 16) member with digit | left
  · exact digit
  unfold parseDecimal at read
  cases spanned : spanDigits 10 text with
  | mk whole rest =>
      rw [spanned] at left read
      simp only at left read
      split at read
      · rename_i afterPoint
        rcases List.mem_cons.mp left with rfl | among
        · decide
        rcases mem_spanDigits (by decide : 10 ≤ 16) among with digit | behindFraction
        · exact digit
        split_ifs at read
        rcases Option.map_eq_some_iff.mp read with ⟨exponent, found, _⟩
        exact numeral_of_parseExponent found behindFraction
      · split_ifs at read
        rcases Option.map_eq_some_iff.mp read with ⟨exponent, found, _⟩
        exact numeral_of_parseExponent found left

theorem parseUnsigned_eq_nan (outside : isNumeralChar char = false) (member : char ∈ text) :
    parseUnsigned text = nan := by
  unfold parseUnsigned
  split_ifs with word
  · rw [word] at member
    have letters : ∀ char ∈ "Infinity".toList, isNumeralChar char = true :=
      List.all_eq_true.mp (by decide)
    rw [letters char member] at outside
    cases outside
  · split
    · rename_i read
      rw [numeral_of_parseDecimal read member] at outside
      cases outside
    · rfl

theorem parseRadix_eq_nan (small : radix ≤ 16) (outside : isNumeralChar char = false)
    (member : char ∈ text) : parseRadix radix text = nan := by
  unfold parseRadix
  split
  · rename_i read
    rw [numeral_of_parseDigits small read member] at outside
    cases outside
  · rfl

theorem mem_dropWhile {front : Char → Bool} (stops : front char = false) (member : char ∈ text) :
    char ∈ text.dropWhile front := by
  rw [← List.takeWhile_append_dropWhile (p := front) (l := text), List.mem_append] at member
  rcases member with taken | left
  · rw [List.mem_takeWhile_imp taken] at stops
    cases stops
  · exact left

theorem mem_trim (full : isWhiteSpace char = false) (member : char ∈ text) : char ∈ trim text := by
  rw [trim, List.mem_reverse]
  exact mem_dropWhile full (List.mem_reverse.mpr (mem_dropWhile full member))

theorem ofText_eq_nan {text : String} (outside : isNumeralChar char = false)
    (full : isWhiteSpace char = false) (member : char ∈ text.toList) : ofText text = nan := by
  have kept := mem_trim full member
  have behind : ∀ {first : Char} {rest : List Char}, char ∈ first :: rest →
      isNumeralChar first = true → char ∈ rest := by
    intro first rest among numeral
    rcases List.mem_cons.mp among with rfl | inRest
    · rw [numeral] at outside
      cases outside
    · exact inRest
  have radix : ∀ {radix : ℕ} {letter : Char} {rest : List Char}, radix ≤ 16 →
      isNumeralChar letter = true → char ∈ '0' :: letter :: rest → parseRadix radix rest = nan :=
    fun small numeral among =>
      parseRadix_eq_nan small outside (behind (behind among (by decide)) numeral)
  unfold ofText
  split
  · rename_i empty
    rw [empty] at kept
    cases kept
  · rename_i shape
    rw [shape] at kept
    exact parseUnsigned_eq_nan outside (behind kept (by decide))
  · rename_i shape
    rw [shape] at kept
    rw [parseUnsigned_eq_nan outside (behind kept (by decide)), neg]
  all_goals try
    rename_i shape
    rw [shape] at kept
    exact radix (by decide) (by decide) kept
  · exact parseUnsigned_eq_nan outside kept

theorem isWhiteSpace_of_isNumberChar (number : Json.isNumberChar char = true) :
    isWhiteSpace char = false := by
  simp only [Json.isNumberChar, Bool.or_eq_true, List.contains_eq_mem, List.mem_cons,
    List.not_mem_nil, or_false, decide_eq_true_eq] at number
  rcases number with digit | rfl | rfl | rfl | rfl | rfl
  · simp only [Char.isDigit, Bool.and_eq_true, decide_eq_true_eq, ge_iff_le] at digit
    have range : 48 ≤ char.toNat ∧ char.toNat ≤ 57 := digit
    simp only [isWhiteSpace, List.mem_cons, List.not_mem_nil, or_false, decide_eq_false_iff_not]
    omega
  all_goals decide

theorem trim_of_full (full : ∀ char ∈ text, isWhiteSpace char = false) : trim text = text := by
  have keeps : ∀ {text : List Char}, (∀ char ∈ text, isWhiteSpace char = false) →
      text.dropWhile isWhiteSpace = text := by
    intro text full
    cases text with
    | nil => rfl
    | cons first rest =>
        rw [List.dropWhile_cons_of_neg (by simp [full first List.mem_cons_self])]
  rw [trim, keeps full, keeps fun char member => full char (List.mem_reverse.mp member),
    List.reverse_reverse]

theorem ofText_of_isNumberChar (given : text ≠ []) (noPlus : text.head? ≠ some '+')
    (chars : ∀ char ∈ text, Json.isNumberChar char = true) :
    ofText (String.ofList text) = readSigned text := by
  have trimmed : trim text = text :=
    trim_of_full fun char member => isWhiteSpace_of_isNumberChar (chars char member)
  unfold ofText
  rw [String.toList_ofList, trimmed]
  split
  · exact absurd rfl given
  · exact absurd rfl noPlus
  · rfl
  all_goals try exact absurd (chars _ (List.mem_cons_of_mem _ List.mem_cons_self)) (by decide)
  · rename_i noSign _ _ _ _ _ _
    unfold readSigned
    split
    · exact absurd rfl (noSign _)
    · rfl

theorem ofText_text {number : JsNumber} (double : number.IsDouble) :
    ofText (String.ofList number.text) = number := by
  cases number with
  | nan => decide
  | infinite negative => cases negative <;> decide
  | finite value =>
      rcases Json.text_shape double with ⟨valid, chars⟩
      rw [ofText_of_isNumberChar, readSigned_text double]
      · intro empty
        rw [empty] at valid
        cases valid
      · intro plus
        rcases List.head?_eq_some_iff.mp plus with ⟨rest, shape⟩
        rw [shape] at valid
        simp [Json.isNumber, Json.isUnsignedNumber] at valid
      · exact chars

end Conversion

end ServerFoundation.JsNumber
