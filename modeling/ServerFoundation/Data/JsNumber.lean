import Mathlib.Algebra.Order.Floor.Ring
import Mathlib.Data.Int.Log
import Mathlib.Data.Rat.Floor
import Mathlib.Tactic.NormNum
import Mathlib.Tactic.Linarith

/-!
# JavaScript numbers

The values of type `number` with the operations a handshake needs: addition,
subtraction, comparison and the conversion `Number(text)`. Finite values are the
rationals that a double can hold; results are rounded to the nearest double,
ties to even. The two zeros are one value, since no comparison tells them apart.
-/

namespace ServerFoundation

/-- A number value. -/
inductive JsNumber where
  | finite (value : ℚ)
  | infinite (negative : Bool)
  | nan
deriving DecidableEq

namespace JsNumber

/-- The integer nearest to a rational, ties to even. -/
def roundHalfEven (value : ℚ) : ℤ :=
  let floor := ⌊value⌋
  if value - floor < 1 / 2 then floor
  else if 1 / 2 < value - floor then floor + 1
  else if floor % 2 = 0 then floor else floor + 1

/-- The double nearest to an exact result. -/
def round (value : ℚ) : JsNumber :=
  if value = 0 then finite 0
  else
    let exponent := max (Int.log 2 |value|) (-1022)
    let unit : ℚ := 2 ^ (exponent - 52)
    let magnitude := roundHalfEven (|value| / unit) * unit
    if 2 ^ 1024 ≤ magnitude then infinite (value < 0)
    else finite (if value < 0 then -magnitude else magnitude)

/-- Negation. -/
def neg : JsNumber → JsNumber
  | finite value => finite (-value)
  | infinite negative => infinite !negative
  | nan => nan

/-- The operator `+`. -/
def add : JsNumber → JsNumber → JsNumber
  | finite left, finite right => round (left + right)
  | finite _, infinite negative => infinite negative
  | infinite negative, finite _ => infinite negative
  | infinite left, infinite right => if left = right then infinite left else nan
  | _, _ => nan

/-- The operator `-`. -/
def sub (left right : JsNumber) : JsNumber := left.add right.neg

/-- `Math.abs`. -/
def abs : JsNumber → JsNumber
  | finite value => finite |value|
  | infinite _ => infinite false
  | nan => nan

/-- The operator `<`, which is false whenever a side is not a number. -/
def lt : JsNumber → JsNumber → Bool
  | finite left, finite right => left < right
  | finite _, infinite negative => !negative
  | infinite negative, finite _ => negative
  | infinite left, infinite right => left && !right
  | _, _ => false

/-- The operator `<=`. -/
def le : JsNumber → JsNumber → Bool
  | finite left, finite right => left ≤ right
  | finite _, infinite negative => !negative
  | infinite negative, finite _ => negative
  | infinite left, infinite right => left || !right
  | _, _ => false

/-- `Number.isFinite`. -/
def isFinite : JsNumber → Bool
  | finite _ => true
  | _ => false

/-- `Number.isSafeInteger`. -/
def isSafeInteger : JsNumber → Bool
  | finite value => value.den = 1 ∧ |value| ≤ 2 ^ 53 - 1
  | _ => false

section Parsing

/-- The characters that `Number` strips from both ends. -/
def isWhiteSpace (char : Char) : Bool :=
  char.toNat ∈ [0x9, 0xA, 0xB, 0xC, 0xD, 0x20, 0xA0, 0x1680, 0x202F, 0x205F, 0x2028, 0x2029,
    0x3000, 0xFEFF] ∨ (0x2000 ≤ char.toNat ∧ char.toNat ≤ 0x200A)

/-- `String.prototype.trim`. -/
def trim (text : List Char) : List Char :=
  ((text.dropWhile isWhiteSpace).reverse.dropWhile isWhiteSpace).reverse

/-- The value of a digit in a radix up to sixteen. -/
def digitValue (radix : ℕ) (char : Char) : Option ℕ :=
  let code := char.toNat
  let value :=
    if 0x30 ≤ code ∧ code ≤ 0x39 then some (code - 0x30)
    else if 0x41 ≤ code ∧ code ≤ 0x46 then some (code - 0x41 + 10)
    else if 0x61 ≤ code ∧ code ≤ 0x66 then some (code - 0x61 + 10)
    else none
  value.filter (· < radix)

/-- The longest run of digits at the front of a text, and what follows it. -/
def spanDigits (radix : ℕ) : List Char → List ℕ × List Char
  | [] => ([], [])
  | char :: rest =>
      match digitValue radix char with
      | some digit => (digit :: (spanDigits radix rest).1, (spanDigits radix rest).2)
      | none => ([], char :: rest)

/-- The number that digits denote in a radix. -/
def digitsValue (radix : ℕ) (digits : List ℕ) : ℕ :=
  digits.foldl (fun total digit => total * radix + digit) 0

/-- A nonempty run of digits and nothing else. -/
def parseDigits (radix : ℕ) (text : List Char) : Option ℕ :=
  match spanDigits radix text with
  | ([], _) => none
  | (digits, []) => some (digitsValue radix digits)
  | (_, _ :: _) => none

/-- The exponent part of a decimal literal. -/
def parseExponent : List Char → Option ℤ
  | [] => some 0
  | marker :: rest =>
      if marker = 'e' ∨ marker = 'E' then
        match rest with
        | '+' :: digits => (parseDigits 10 digits).map fun value => (value : ℤ)
        | '-' :: digits => (parseDigits 10 digits).map fun value => -(value : ℤ)
        | digits => (parseDigits 10 digits).map fun value => (value : ℤ)
      else none

/-- An unsigned decimal literal: digits, an optional fraction and an optional exponent. -/
def parseDecimal (text : List Char) : Option ℚ :=
  let (whole, rest) := spanDigits 10 text
  let (fraction, rest) :=
    match rest with
    | '.' :: afterPoint => spanDigits 10 afterPoint
    | _ => ([], rest)
  if whole = [] ∧ fraction = [] then none
  else
    (parseExponent rest).map fun exponent =>
      (digitsValue 10 (whole ++ fraction) : ℚ) * 10 ^ (exponent - (fraction.length : ℤ))

/-- A decimal literal or `Infinity`, without its sign. -/
def parseUnsigned (text : List Char) : JsNumber :=
  if text = "Infinity".toList then infinite false
  else
    match parseDecimal text with
    | some value => round value
    | none => nan

/-- A numeral after its radix prefix. -/
def parseRadix (radix : ℕ) (text : List Char) : JsNumber :=
  match parseDigits radix text with
  | some value => round value
  | none => nan

/-- `Number(text)`. -/
def ofText (text : String) : JsNumber :=
  match trim text.toList with
  | [] => finite 0
  | '+' :: rest => parseUnsigned rest
  | '-' :: rest => (parseUnsigned rest).neg
  | '0' :: 'x' :: rest => parseRadix 16 rest
  | '0' :: 'X' :: rest => parseRadix 16 rest
  | '0' :: 'o' :: rest => parseRadix 8 rest
  | '0' :: 'O' :: rest => parseRadix 8 rest
  | '0' :: 'b' :: rest => parseRadix 2 rest
  | '0' :: 'B' :: rest => parseRadix 2 rest
  | other => parseUnsigned other

end Parsing

theorem round_ne_nan (value : ℚ) : round value ≠ nan := by
  simp only [round]
  split
  · simp
  · split <;> simp

theorem add_ne_nan {left right : JsNumber} (leftFinite : left.isFinite)
    (rightFinite : right.isFinite) : left.add right ≠ nan := by
  cases left with
  | finite left =>
      cases right with
      | finite right => exact round_ne_nan (left + right)
      | infinite _ => simp [isFinite] at rightFinite
      | nan => simp [isFinite] at rightFinite
  | infinite _ => simp [isFinite] at leftFinite
  | nan => simp [isFinite] at leftFinite

theorem le_eq_not_lt {left right : JsNumber} (leftNumber : left ≠ nan)
    (rightNumber : right ≠ nan) : left.le right = !right.lt left := by
  cases left with
  | finite left => cases right <;> simp_all [le, lt, ← not_lt]
  | infinite leftNegative => cases right <;> simp_all [le, lt, Bool.or_comm]
  | nan => exact absurd rfl leftNumber

theorem lt_of_le_of_lt {early late : ℤ} {bound : JsNumber} (ordered : early ≤ late)
    (beyond : (finite late).lt bound) : (finite early).lt bound := by
  cases bound with
  | finite value =>
      simp only [lt, decide_eq_true_eq] at beyond ⊢
      have cast : (early : ℚ) ≤ late := by exact_mod_cast ordered
      linarith
  | infinite negative => simpa [lt] using beyond
  | nan => simp [lt] at beyond

end JsNumber

end ServerFoundation
