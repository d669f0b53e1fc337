import Mathlib.Data.Nat.Digits.Defs
import ServerFoundation.Data.NumberRounding
import ServerFoundation.Data.NumberText

/-!
# Reading a number back from its text

`String(value)` has enough digits to identify a double: a decimal of seventeen digits is
always closer to a double than half the distance to the next one. Reading the text as a
decimal literal therefore gives the double back, and different doubles have different
texts.
-/

namespace ServerFoundation.JsNumber

/-- A finite double is its own rounding. -/
def IsDouble : JsNumber → Prop
  | finite value => round value = finite value
  | _ => True

instance : DecidablePred IsDouble
  | finite value => inferInstanceAs (Decidable (round value = finite value))
  | infinite _ | nan => isTrue trivial

/-- A value of type `number`. -/
abbrev Double := {number : JsNumber // number.IsDouble}

section Digits

variable {digits rest : List Char}

theorem digitValue_of_isDigit {char : Char} (digit : char.isDigit = true) :
    digitValue 10 char = some (char.toNat - '0'.toNat) := by
  have range : 48 ≤ char.toNat ∧ char.toNat ≤ 57 := by
    simp only [Char.isDigit, Bool.and_eq_true, decide_eq_true_eq, ge_iff_le] at digit
    exact digit
  have zero : '0'.toNat = 48 := rfl
  unfold digitValue
  simp only [range, and_self, if_true]
  rw [zero, Option.filter_some, if_pos]
  simpa using (by omega : char.toNat - 48 < 10)

/-- What follows a run of digits: nothing, or something else than a digit. -/
def EndsDigits (rest : List Char) : Prop :=
  rest.head?.all fun char => (digitValue 10 char).isNone

theorem spanDigits_append (rest : List Char) (areDigits : ∀ char ∈ digits, char.isDigit = true)
    (ends : EndsDigits rest) :
    spanDigits 10 (digits ++ rest) = (digits.map fun char => char.toNat - '0'.toNat, rest) := by
  induction digits with
  | nil =>
      cases rest with
      | nil => rfl
      | cons char rest =>
          have noDigit : digitValue 10 char = none := by simpa [EndsDigits] using ends
          simp [spanDigits, noDigit]
  | cons char digits ih =>
      rw [List.cons_append, spanDigits, digitValue_of_isDigit (areDigits char List.mem_cons_self)]
      simp only
      rw [ih fun other member => areDigits other (List.mem_cons_of_mem _ member)]
      rfl

theorem digitsValue_map (digits : List Char) :
    digitsValue 10 (digits.map fun char => char.toNat - '0'.toNat) =
        Nat.ofDigitChars 10 digits 0 := by
  unfold digitsValue
  rw [Nat.ofDigitChars_eq_foldl, List.foldl_map]
  simp only [Nat.mul_comm]

theorem parseDigits_toDigits (value : ℕ) : parseDigits 10 (Nat.toDigits 10 value) = some value := by
  have areDigits : ∀ char ∈ Nat.toDigits 10 value, char.isDigit = true := fun char member =>
    Nat.isDigit_of_mem_toDigits (by decide) (by decide) member
  have spanned := spanDigits_append [] areDigits rfl
  rw [List.append_nil] at spanned
  have nonempty : (Nat.toDigits 10 value).map (fun char => char.toNat - '0'.toNat) ≠ [] := by
    rw [Ne, List.map_eq_nil_iff]
    exact List.length_pos_iff.mp Nat.length_toDigits_pos
  unfold parseDigits
  rw [spanned]
  split
  · rename_i _ _ isEmpty
    exact absurd (congrArg Prod.fst isEmpty) nonempty
  · rename_i _ found _ isFound
    cases isFound
    rw [digitsValue_map, Nat.ofDigitChars_ten_toDigits]
  · rename_i impossible
    cases impossible

theorem parseExponent_exponentText (exponent : ℤ) :
    parseExponent ('e' :: exponentText exponent) = some exponent := by
  unfold exponentText
  split
  · rename_i negative
    have value : -(exponent.natAbs : ℤ) = exponent := by omega
    simp only [parseExponent, true_or, if_true, parseDigits_toDigits]
    exact congrArg some value
  · rename_i nonnegative
    have value : (exponent.natAbs : ℤ) = exponent := by omega
    simp only [parseExponent, true_or, if_true, parseDigits_toDigits]
    exact congrArg some value

theorem parseDecimal_whole (whole rest : List Char)
    (areDigits : ∀ char ∈ whole, char.isDigit = true) (nonempty : whole ≠ [])
    (ends : EndsDigits rest) (noPoint : rest.head? ≠ some '.') :
    parseDecimal (whole ++ rest) = (parseExponent rest).map fun exponent =>
      (Nat.ofDigitChars 10 whole 0 : ℚ) * 10 ^ exponent := by
  have values : whole.map (fun char => char.toNat - '0'.toNat) ≠ [] := by
    rwa [Ne, List.map_eq_nil_iff]
  unfold parseDecimal
  rw [spanDigits_append rest areDigits ends]
  cases rest with
  | nil =>
      simp only
      rw [if_neg (by simp [nonempty]), List.append_nil, digitsValue_map]
      simp
  | cons char rest =>
      have other : char ≠ '.' := by simpa using noPoint
      simp only
      split
      · rename_i isPoint
        exact absurd (List.cons.inj isPoint).1 other
      · rw [if_neg (by simp [nonempty]), List.append_nil, digitsValue_map]
        simp

theorem parseDecimal_fraction (whole fraction rest : List Char)
    (wholeDigits : ∀ char ∈ whole, char.isDigit = true)
    (fractionDigits : ∀ char ∈ fraction, char.isDigit = true) (nonempty : whole ≠ [])
    (ends : EndsDigits rest) :
    parseDecimal (whole ++ '.' :: (fraction ++ rest)) = (parseExponent rest).map fun exponent =>
      (Nat.ofDigitChars 10 (whole ++ fraction) 0 : ℚ) * 10 ^
          (exponent - (fraction.length : ℤ)) := by
  have point : EndsDigits ('.' :: (fraction ++ rest)) := by
    simp [EndsDigits, digitValue]
  unfold parseDecimal
  rw [spanDigits_append _ wholeDigits point]
  simp only
  rw [spanDigits_append rest fractionDigits ends, if_neg (by simp [nonempty]), ← List.map_append,
    digitsValue_map, List.length_map]

end Digits

section Decimals

variable {decimal : Decimal}

/-- The digits are as many as the length says, and the first is not zero. -/
structure Decimal.WellFormed (decimal : Decimal) : Prop where
  positive : 0 < decimal.length
  atLeast : 10 ^ (decimal.length - 1) ≤ decimal.digits
  below : decimal.digits < 10 ^ decimal.length

theorem Decimal.WellFormed.length_text (wellFormed : decimal.WellFormed) :
    decimal.text.length = decimal.length := by
  have upper := (Nat.length_toDigits_le_iff (b := 10) (by decide) wellFormed.positive).mpr
    wellFormed.below
  have lower : ¬(Nat.toDigits 10 decimal.digits).length ≤ decimal.length - 1 := by
    intro short
    rcases Nat.eq_zero_or_pos (decimal.length - 1) with none | some
    · rw [none] at short
      exact absurd (Nat.length_toDigits_pos (b := 10) (n := decimal.digits)) (by omega)
    · rw [Nat.length_toDigits_le_iff (by decide) some] at short
      exact absurd wellFormed.atLeast (by omega)
  unfold Decimal.text
  omega

theorem Decimal.isDigit_of_mem_text {char : Char} (member : char ∈ decimal.text) :
    char.isDigit = true :=
  Nat.isDigit_of_mem_toDigits (by decide) (by decide) member

theorem Decimal.text_ne_nil : decimal.text ≠ [] := List.length_pos_iff.mp Nat.length_toDigits_pos

theorem isDigit_of_mem_zeros {count : ℕ} {char : Char}
    (member : char ∈ List.replicate count '0') : char.isDigit = true := by
  rw [List.eq_of_mem_replicate member]
  decide

theorem Decimal.WellFormed.parseDecimal_written (wellFormed : decimal.WellFormed) :
    parseDecimal decimal.written = some decimal.value := by
  have length := wellFormed.length_text
  have positive := wellFormed.positive
  have digits : Nat.ofDigitChars 10 decimal.text 0 = decimal.digits := Nat.ofDigitChars_ten_toDigits
  unfold Decimal.written
  simp only
  split
  · rename_i whole
    have read := parseDecimal_whole
      (decimal.text ++ List.replicate (decimal.point.toNat - decimal.length) '0') [] (by
        intro char member
        rcases List.mem_append.mp member with inText | inZeros
        · exact isDigit_of_mem_text inText
        · exact isDigit_of_mem_zeros inZeros) (by simp [text_ne_nil]) rfl nofun
    rw [List.append_nil] at read
    rw [read, Nat.ofDigitChars_append, digits, Nat.ofDigitChars_replicate_zero]
    have exponent : decimal.point - decimal.length =
        ((decimal.point.toNat - decimal.length : ℕ) : ℤ) := by omega
    simp only [parseExponent, Option.map_some, zpow_zero, mul_one, Decimal.value, exponent,
      zpow_natCast]
    push_cast
    rw [mul_comm]
  · rename_i notWhole
    split
    · rename_i inside
      have read := parseDecimal_fraction (decimal.text.take decimal.point.toNat)
        (decimal.text.drop decimal.point.toNat) []
        (fun char member => isDigit_of_mem_text (List.mem_of_mem_take member))
        (fun char member => isDigit_of_mem_text (List.mem_of_mem_drop member)) (by
          apply List.length_pos_iff.mp
          rw [List.length_take]
          omega) rfl
      rw [List.append_nil] at read
      rw [read, List.take_append_drop, digits, List.length_drop, length]
      have exponent : (0 : ℤ) - ((decimal.length - decimal.point.toNat : ℕ) : ℤ) =
          decimal.point - decimal.length := by omega
      simp only [parseExponent, Option.map_some, exponent, Decimal.value]
    · rename_i notInside
      split
      · rename_i small
        have read := parseDecimal_fraction ['0']
          (List.replicate decimal.point.natAbs '0' ++ decimal.text) [] (by simp) (by
            intro char member
            rcases List.mem_append.mp member with inZeros | inText
            · exact isDigit_of_mem_zeros inZeros
            · exact isDigit_of_mem_text inText) nofun rfl
        rw [List.append_nil] at read
        have zeros : Nat.ofDigitChars 10
            (['0'] ++ (List.replicate decimal.point.natAbs '0' ++ decimal.text)) 0 =
              decimal.digits := by
          rw [Nat.ofDigitChars_append, Nat.ofDigitChars_append, Nat.ofDigitChars_replicate_zero]
          exact digits
        rw [zeros] at read
        have exponent : (0 : ℤ) - ((decimal.point.natAbs + decimal.length : ℕ) : ℤ) =
            decimal.point - decimal.length := by omega
        refine read.trans ?_
        rw [List.length_append, List.length_replicate, length]
        simp only [parseExponent, Option.map_some, exponent, Decimal.value]
      · have ends : EndsDigits ('e' :: exponentText (decimal.point - 1)) := by
          simp [EndsDigits, digitValue]
        split
        · rename_i digit single
          have one : decimal.length = 1 := by
            rw [← length, single]
            rfl
          have read := parseDecimal_whole [digit] ('e' :: exponentText (decimal.point - 1))
            (fun char member => @isDigit_of_mem_text decimal _ (by rwa [single]))
            (by simp) ends (by simp)
          rw [← single, digits, parseExponent_exponentText] at read
          rw [single] at read
          refine read.trans ?_
          simp only [Option.map_some, Decimal.value, one]
          rfl
        · rename_i digit others nonempty isText
          have read := parseDecimal_fraction [digit] others
            ('e' :: exponentText (decimal.point - 1))
            (fun char member => @isDigit_of_mem_text decimal _ (by
              rw [isText]
              exact List.mem_cons.mpr (.inl (List.mem_singleton.mp member))))
            (fun char member => @isDigit_of_mem_text decimal _ (by
              rw [isText]
              exact List.mem_cons_of_mem _ member)) (by simp) ends
          have whole : [digit] ++ others = decimal.text := isText.symm
          rw [whole, digits, parseExponent_exponentText] at read
          have count : (others.length : ℤ) = decimal.length - 1 := by
            rw [← length, isText, List.length_cons]
            push_cast
            omega
          have exponent : decimal.point - 1 - (others.length : ℤ) =
              decimal.point - decimal.length := by omega
          refine read.trans ?_
          simp only [Option.map_some, Decimal.value, exponent]
        · rename_i none
          exact absurd none text_ne_nil

theorem Decimal.value_normalized {digits length : ℕ} {point : ℤ} (positive : 0 < length) :
    (Decimal.normalized digits length point).value = digits * 10 ^ (point - length) := by
  unfold Decimal.normalized Decimal.value
  split
  · rename_i carried
    have exponent : point + 1 - length + ((length - 1 : ℕ) : ℤ) = point - length + length := by
      omega
    simp only
    rw [carried]
    push_cast
    rw [← zpow_natCast, ← zpow_natCast, ← zpow_add₀ (by norm_num), ← zpow_add₀ (by norm_num)]
    congr 1
    omega
  · rfl

theorem Decimal.wellFormed_normalized {digits length : ℕ} {point : ℤ} (positive : 0 < length)
    (atLeast : 10 ^ (length - 1) ≤ digits) (atMost : digits ≤ 10 ^ length) :
    (Decimal.normalized digits length point).WellFormed := by
  unfold Decimal.normalized
  split
  · exact ⟨positive, Nat.le_refl _,
      Nat.pow_lt_pow_right (by decide) (Nat.sub_lt positive (by decide))⟩
  · rename_i notCarried
    exact ⟨positive, atLeast, Nat.lt_of_le_of_ne atMost notCarried⟩

section Shortest

variable {value : ℚ} {length : ℕ}

theorem floor_scaled (positive : 0 < value) (someDigits : 0 < length) :
    let scaled := value / 10 ^ (Int.log 10 value + 1 - length)
    10 ^ (length - 1) ≤ ⌊scaled⌋.toNat ∧ ⌊scaled⌋.toNat < 10 ^ length := by
  intro scaled
  have lower := Int.zpow_log_le_self (b := 10) (by decide) positive
  have upper := Int.lt_zpow_succ_log_self (b := 10) (by decide) value
  have unitPositive : (0 : ℚ) < 10 ^ (Int.log 10 value + 1 - length) := zpow_pos (by norm_num) _
  have atLeast : ((10 ^ (length - 1) : ℕ) : ℚ) ≤ scaled := by
    rw [le_div_iff₀ unitPositive]
    push_cast
    rw [← zpow_natCast, ← zpow_add₀ (by norm_num)]
    have exponent : ((length - 1 : ℕ) : ℤ) + (Int.log 10 value + 1 - length) =
        Int.log 10 value := by omega
    rw [exponent]
    exact_mod_cast lower
  have below : scaled < ((10 ^ length : ℕ) : ℚ) := by
    rw [div_lt_iff₀ unitPositive]
    push_cast
    rw [← zpow_natCast, ← zpow_add₀ (by norm_num)]
    have exponent : (length : ℤ) + (Int.log 10 value + 1 - length) =
        Int.log 10 value + 1 := by omega
    rw [exponent]
    exact_mod_cast upper
  have floorAtLeast : ((10 ^ (length - 1) : ℕ) : ℤ) ≤ ⌊scaled⌋ := Int.le_floor.mpr (by
    exact_mod_cast atLeast)
  have floorBelow : ⌊scaled⌋ < ((10 ^ length : ℕ) : ℤ) := Int.floor_lt.mpr (by
    exact_mod_cast below)
  have nonnegative : 0 ≤ ⌊scaled⌋ := le_trans (Int.natCast_nonneg _) floorAtLeast
  exact ⟨(Int.le_toNat nonnegative).mpr floorAtLeast, (Int.toNat_lt nonnegative).mpr floorBelow⟩

theorem decimalOfLength_eq_some {decimal : Decimal} (positive : 0 < value) (someDigits : 0 < length)
    (found : decimalOfLength value (Int.log 10 value + 1) length = some decimal) :
    decimal.WellFormed ∧ round decimal.value = finite value := by
  rcases floor_scaled positive someDigits with ⟨atLeast, below⟩
  have wellFormed (digits : ℕ) (atLeast : 10 ^ (length - 1) ≤ digits)
      (atMost : digits ≤ 10 ^ length) :=
    @Decimal.wellFormed_normalized digits length (Int.log 10 value + 1) someDigits atLeast atMost
  unfold decimalOfLength at found
  simp only at found
  have reads := List.find?_some found
  simp only [decide_eq_true_eq] at reads
  refine ⟨?_, reads.2⟩
  have member := List.mem_of_find?_eq_some found
  have candidates : decimal = Decimal.normalized
        ⌊value / 10 ^ (Int.log 10 value + 1 - length)⌋.toNat length (Int.log 10 value + 1) ∨
      decimal = Decimal.normalized
        (⌊value / 10 ^ (Int.log 10 value + 1 - length)⌋.toNat + 1) length
          (Int.log 10 value + 1) := by
    split at member
    · simpa [or_comm] using member
    · simpa using member
  rcases candidates with rfl | rfl
  · exact wellFormed _ atLeast below.le
  · exact wellFormed _ (by omega) (by omega)

theorem decimalOfLength_seventeen (positive : 0 < value) (double : round value = finite value) :
    (decimalOfLength value (Int.log 10 value + 1) 17).isSome = true := by
  rcases @floor_scaled value 17 positive (by decide) with ⟨atLeast, below⟩
  have unitPositive : (0 : ℚ) < 10 ^ (Int.log 10 value + 1 - (17 : ℕ)) := zpow_pos (by norm_num) _
  have lower := Int.zpow_log_le_self (b := 10) (by decide) positive
  have small : (10 : ℚ) ^ (Int.log 10 value + 1 - (17 : ℕ)) ≤ value / 10 ^ 16 := by
    rw [le_div_iff₀ (by norm_num), ← zpow_natCast, ← zpow_add₀ (by norm_num)]
    have exponent : Int.log 10 value + 1 - (17 : ℕ) + ((16 : ℕ) : ℤ) = Int.log 10 value := by omega
    rw [exponent]
    exact_mod_cast lower
  have floorLe := Int.floor_le (value / 10 ^ (Int.log 10 value + 1 - (17 : ℕ)))
  have ltFloor := Int.lt_floor_add_one (value / 10 ^ (Int.log 10 value + 1 - (17 : ℕ)))
  have floorCast : ((⌊value / 10 ^ (Int.log 10 value + 1 - (17 : ℕ))⌋.toNat : ℕ) : ℚ) =
      ⌊value / 10 ^ (Int.log 10 value + 1 - (17 : ℕ))⌋ := by
    have nonnegative : 0 ≤ ⌊value / 10 ^ (Int.log 10 value + 1 - (17 : ℕ))⌋ :=
      Int.floor_nonneg.mpr (div_pos positive unitPositive).le
    exact_mod_cast Int.toNat_of_nonneg nonnegative
  rw [le_div_iff₀ unitPositive, ← floorCast] at floorLe
  rw [div_lt_iff₀ unitPositive, ← floorCast] at ltFloor
  have reads {digits : ℕ} (atLeast : 10 ^ 16 ≤ digits)
      (close : |digits * 10 ^ (Int.log 10 value + 1 - (17 : ℕ)) - value| ≤
        value / (2 * 10 ^ 16)) :
      (Decimal.normalized digits 17 (Int.log 10 value + 1)).digits ≠ 0 ∧
        round (Decimal.normalized digits 17 (Int.log 10 value + 1)).value = finite value := by
    constructor
    · unfold Decimal.normalized
      split
      · simp
      · simp only
        omega
    · rw [Decimal.value_normalized (by decide)]
      exact round_eq_of_close positive double close
  unfold decimalOfLength
  simp only
  rw [List.find?_isSome, Decimal.value_normalized (by decide), Decimal.value_normalized (by decide)]
  generalize (10 : ℚ) ^ (Int.log 10 value + 1 - ((17 : ℕ) : ℤ)) = unit at *
  rw [Nat.cast_add_one]
  norm_num at small
  split
  · rename_i above
    refine ⟨_, List.mem_cons_self, decide_eq_true (reads (by omega) ?_)⟩
    rw [Nat.cast_add_one, abs_of_nonneg (by linarith)]
    norm_num
    linarith
  · rename_i below
    refine ⟨_, List.mem_cons_self, decide_eq_true (reads (by omega) ?_)⟩
    rw [abs_of_nonpos (by linarith)]
    norm_num
    linarith

theorem shortestDecimal_eq_some {decimal : Decimal} (positive : 0 < value)
    (found : shortestDecimal value = some decimal) :
    decimal.WellFormed ∧ round decimal.value = finite value := by
  unfold shortestDecimal at found
  rcases List.exists_of_findSome?_eq_some found with ⟨index, -, isFound⟩
  exact decimalOfLength_eq_some positive (Nat.succ_pos index) isFound

theorem exists_shortestDecimal (positive : 0 < value) (double : round value = finite value) :
    ∃ decimal, shortestDecimal value = some decimal := by
  apply Option.isSome_iff_exists.mp
  unfold shortestDecimal
  rw [List.findSome?_isSome_iff]
  exact ⟨16, by decide, decimalOfLength_seventeen positive double⟩

end Shortest

end Decimals

/-- Read a literal with its sign. -/
def readSigned : List Char → JsNumber
  | '-' :: unsigned => (parseUnsigned unsigned).neg
  | unsigned => parseUnsigned unsigned

theorem round_abs {value : ℚ} (double : round value = finite value) :
    round |value| = finite |value| := by
  by_cases zero : value = 0
  · rw [zero]
    rfl
  have magnitudeAbs : magnitude |value| = magnitude value := by
    simp only [magnitude, unit, abs_abs]
  have positive : 0 < |value| := abs_pos.mpr zero
  rw [round_eq positive.ne', magnitudeAbs]
  rw [round_eq zero] at double
  split at double
  · cases double
  · rename_i small
    rw [if_neg small, if_neg positive.not_gt]
    have same : (if value < 0 then -magnitude value else magnitude value) = value := by
      injection double
    split at same
    · rename_i negative
      rw [abs_of_neg negative, ← same, neg_neg, same]
    · rename_i notNegative
      rw [abs_of_nonneg (not_lt.mp notNegative), same]

theorem readSigned_of_parseDecimal {text : List Char} {value : ℚ}
    (read : parseDecimal text = some value) :
    readSigned text = round value ∧ parseUnsigned text = round value := by
  have unsigned : parseUnsigned text = round value := by
    unfold parseUnsigned
    split
    · rename_i word
      have noDecimal : parseDecimal "Infinity".toList = none := by decide
      rw [word, noDecimal] at read
      cases read
    · rw [read]
  refine ⟨?_, unsigned⟩
  unfold readSigned
  split
  · simp [parseDecimal, spanDigits, digitValue] at read
  · exact unsigned

theorem readSigned_text {number : JsNumber} (double : number.IsDouble) :
    readSigned number.text = number := by
  cases number with
  | nan => rfl
  | infinite negative => cases negative <;> rfl
  | finite value =>
      simp only [text]
      split
      · rename_i zero
        have digit : parseDecimal (['0'] ++ []) = _ :=
          parseDecimal_whole ['0'] [] (by simp) nofun rfl nofun
        rw [List.append_nil] at digit
        rw [(readSigned_of_parseDecimal digit).1, zero]
        simp [Nat.ofDigitChars_eq_foldl, round]
      · rename_i nonzero
        have positive : 0 < |value| := abs_pos.mpr nonzero
        rcases exists_shortestDecimal positive (round_abs double) with ⟨decimal, found⟩
        rcases shortestDecimal_eq_some positive found with ⟨wellFormed, rounds⟩
        have read := readSigned_of_parseDecimal wellFormed.parseDecimal_written
        rw [found]
        split
        · rename_i negative
          have signed : readSigned ('-' :: decimal.written) = (parseUnsigned decimal.written).neg :=
            rfl
          refine signed.trans ?_
          rw [read.2, rounds, abs_of_neg negative, neg, neg_neg]
        · rename_i notNegative
          refine read.1.trans ?_
          rw [rounds, abs_of_nonneg (not_lt.mp notNegative)]

theorem text_injective {left right : JsNumber} (leftDouble : left.IsDouble)
    (rightDouble : right.IsDouble) (same : left.text = right.text) : left = right := by
  rw [← readSigned_text leftDouble, same, readSigned_text rightDouble]

end ServerFoundation.JsNumber
