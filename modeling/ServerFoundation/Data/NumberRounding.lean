import ServerFoundation.Data.JsNumber

/-!
# How doubles round

The exact result of an operation lies between two neighbouring doubles, and the double
that is taken for it is off by at most half the distance of these. A result that is closer
to a double than half that distance is therefore taken for this double.
-/

namespace ServerFoundation.JsNumber

/-- The distance of the doubles next to a value. -/
def unit (value : ℚ) : ℚ := 2 ^ (max (Int.log 2 |value|) (-1022) - 52)

/-- The nearest multiple of that distance, without its sign. -/
def magnitude (value : ℚ) : ℚ := roundHalfEven (|value| / unit value) * unit value

theorem unit_pos (value : ℚ) : 0 < unit value := by
  exact zpow_pos (by norm_num) _

theorem round_eq {value : ℚ} (nonzero : value ≠ 0) :
    round value =
      if 2 ^ 1024 ≤ magnitude value then infinite (value < 0)
      else finite (if value < 0 then -magnitude value else magnitude value) := by
  unfold round
  rw [if_neg nonzero]
  rfl

theorem abs_roundHalfEven_sub_le (value : ℚ) : |roundHalfEven value - value| ≤ 1 / 2 := by
  have below := Int.floor_le value
  have above := Int.lt_floor_add_one value
  unfold roundHalfEven
  simp only
  split
  · rename_i low
    rw [abs_le]
    constructor <;> linarith
  · rename_i notLow
    have up : |((⌊value⌋ + 1 : ℤ) : ℚ) - value| ≤ 1 / 2 := by
      rw [abs_le]
      push_cast
      constructor <;> linarith
    split
    · exact up
    · rename_i notHigh
      split
      · rw [abs_le]
        constructor <;> linarith
      · exact up

theorem roundHalfEven_eq {value : ℚ} {integer : ℤ} (close : |value - integer| < 1 / 2) :
    roundHalfEven value = integer := by
  have error := abs_roundHalfEven_sub_le value
  have apart : |((roundHalfEven value - integer : ℤ) : ℚ)| < 1 := by
    push_cast
    calc |(roundHalfEven value : ℚ) - integer|
        = |(roundHalfEven value - value) + (value - integer)| := by rw [sub_add_sub_cancel]
      _ ≤ |roundHalfEven value - value| + |value - integer| := abs_add_le _ _
      _ < 1 := by linarith
  have none : |roundHalfEven value - integer| < 1 := by exact_mod_cast apart
  rw [Int.abs_lt_one_iff] at none
  omega

theorem abs_magnitude_sub_le (value : ℚ) : |(magnitude value - |value|)| ≤ unit value / 2 := by
  have positive := unit_pos value
  have error := abs_roundHalfEven_sub_le (|value| / unit value)
  have scaled : magnitude value - |value| =
      (roundHalfEven (|value| / unit value) - |value| / unit value) * unit value := by
    unfold magnitude
    field_simp
  rw [scaled, abs_mul, abs_of_pos positive]
  linarith [mul_le_mul_of_nonneg_right error positive.le]

theorem unit_le {value : ℚ} (large : 1 / 4 ≤ |value|) : unit value ≤ |value| / 2 ^ 52 := by
  have positive : 0 < |value| := by linarith
  have logarithm : -2 ≤ Int.log 2 |value| := by
    rw [← Int.zpow_le_iff_le_log (by decide) positive]
    norm_num
    linarith
  unfold unit
  rw [max_eq_left (by omega), zpow_sub₀ (by norm_num), le_div_iff₀ (by norm_num)]
  have below := Int.zpow_log_le_self (b := 2) (by decide) positive
  norm_num at below ⊢
  exact below

theorem abs_le_of_abs_round {value : ℚ} {bound : ℕ} (moderate : bound ≤ 2 ^ 50)
    (within : (finite bound).lt (round value).abs = false) : |value| ≤ bound + 1 / 4 := by
  by_contra beyond
  rw [not_le] at beyond
  have nonnegative : (0 : ℚ) ≤ bound := Nat.cast_nonneg bound
  have nonzero : value ≠ 0 := by
    rintro rfl
    rw [abs_zero] at beyond
    linarith
  have error := (abs_le.mp (abs_magnitude_sub_le value)).1
  have small : unit value ≤ |value| / 2 ^ 52 := unit_le (by linarith)
  have limit : (bound : ℚ) ≤ 1125899906842624 := by exact_mod_cast moderate
  have exceeds : (bound : ℚ) < magnitude value := by
    norm_num at small
    linarith
  rw [round_eq nonzero] at within
  split at within
  · simp [abs, lt] at within
  · have sameSize : |if value < 0 then -magnitude value else magnitude value| =
        magnitude value := by
      have positive : |magnitude value| = magnitude value := abs_of_nonneg (by linarith)
      split
      · rw [abs_neg, positive]
      · exact positive
    simp only [abs, lt, sameSize, decide_eq_false_iff_not, not_lt] at within
    linarith

section Near

variable {value near : ℚ}

theorem lt_unit_mul (positive : 0 < value) : value < 2 ^ 53 * unit value := by
  have below := Int.lt_zpow_succ_log_self (b := 2) (by decide) value
  have raised : (2 : ℚ) ^ (Int.log 2 value + 1) ≤
      2 ^ (53 + (max (Int.log 2 |value|) (-1022) - 52)) := by
    apply zpow_le_zpow_right₀ (by norm_num)
    rw [abs_of_pos positive]
    omega
  rw [zpow_add₀ (by norm_num) 53] at raised
  unfold unit
  calc value < 2 ^ (Int.log 2 value + 1) := by exact_mod_cast below
    _ ≤ _ := by exact_mod_cast raised

theorem eq_mul_unit (positive : 0 < value) (double : round value = finite value) :
    ∃ count : ℤ, value = count * unit value ∧ value < 2 ^ 1024 := by
  rw [round_eq positive.ne'] at double
  split at double
  · cases double
  · rename_i small
    rw [if_neg positive.not_gt] at double
    have isMagnitude : magnitude value = value := by injection double
    rw [isMagnitude, not_le] at small
    exact ⟨_, isMagnitude.symm, small⟩

theorem unit_le_of_close (positive : 0 < value) (double : round value = finite value)
    (nearPositive : 0 < near) (close : near ≤ value + value / (2 * 10 ^ 16)) :
    max (Int.log 2 |near|) (-1022) ≤ max (Int.log 2 |value|) (-1022) := by
  by_contra larger
  rw [not_le] at larger
  rcases eq_mul_unit positive double with ⟨count, isMultiple, -⟩
  have unitPositive := unit_pos value
  have few : count ≤ 2 ^ 53 - 1 := by
    have below := lt_unit_mul positive
    rw [isMultiple] at below
    have fewer : (count : ℚ) < 2 ^ 53 := by
      refine lt_of_mul_lt_mul_right ?_ unitPositive.le
      rw [← isMultiple] at below ⊢
      exact below
    have : count < 2 ^ 53 := by exact_mod_cast fewer
    omega
  have bounded : value ≤ (2 ^ 53 - 1) * unit value := by
    have cast : (count : ℚ) ≤ 2 ^ 53 - 1 := by exact_mod_cast few
    calc value = count * unit value := isMultiple
      _ ≤ (2 ^ 53 - 1) * unit value := mul_le_mul_of_nonneg_right cast unitPositive.le
  have reaches : 2 ^ 53 * unit value ≤ near := by
    have power := Int.zpow_log_le_self (b := 2) (by decide) nearPositive
    have raised : (2 : ℚ) ^ (53 + (max (Int.log 2 |value|) (-1022) - 52)) ≤
        2 ^ Int.log 2 near := by
      apply zpow_le_zpow_right₀ (by norm_num)
      rw [abs_of_pos nearPositive] at larger
      omega
    rw [zpow_add₀ (by norm_num)] at raised
    calc 2 ^ 53 * unit value ≤ 2 ^ Int.log 2 near := by exact_mod_cast raised
      _ ≤ near := by exact_mod_cast power
  norm_num at bounded close reaches
  linarith

theorem round_eq_of_close (positive : 0 < value) (double : round value = finite value)
    (close : |near - value| ≤ value / (2 * 10 ^ 16)) : round near = finite value := by
  rcases abs_le.mp close with ⟨notBelow, notAbove⟩
  have nearPositive : 0 < near := by
    norm_num at notBelow
    linarith
  have exponents := unit_le_of_close positive double nearPositive (by linarith)
  rcases eq_mul_unit positive double with ⟨count, isMultiple, small⟩
  have unitPositive := unit_pos near
  have multiple : ∃ whole : ℤ, value = whole * unit near := by
    rcases Int.le.dest exponents with ⟨more, isMore⟩
    refine ⟨count * 2 ^ more, ?_⟩
    have finer : unit value = 2 ^ more * unit near := by
      unfold unit
      rw [← isMore, ← zpow_natCast (2 : ℚ) more, ← zpow_add₀ (by norm_num)]
      congr 1
      omega
    rw [finer] at isMultiple
    push_cast
    rw [mul_assoc]
    exact isMultiple
  rcases multiple with ⟨whole, isWhole⟩
  have below := lt_unit_mul nearPositive
  have nearest : |near / unit near - whole| < 1 / 2 := by
    have scaled : near / unit near - whole = (near - value) / unit near := by
      rw [isWhole]
      field_simp
    rw [scaled, abs_div, abs_of_pos unitPositive, div_lt_iff₀ unitPositive]
    norm_num at close notBelow below
    linarith
  have isValue : magnitude near = value := by
    unfold magnitude
    rw [abs_of_pos nearPositive, roundHalfEven_eq nearest, ← isWhole]
  rw [round_eq nearPositive.ne', isValue, if_neg (not_le.mpr small),
    if_neg nearPositive.not_gt]

end Near

end ServerFoundation.JsNumber
