import ServerFoundation.Data.JsNumber

/-!
# The text of a JavaScript number

`String(value)`: the fewest decimal digits that still identify the double, the
closest such digits to its value, written out for moderate magnitudes and with an
exponent otherwise.
-/

namespace ServerFoundation.JsNumber

/-- The decimal number `0.digits * 10 ^ point`, where `digits` has `length` digits. -/
structure Decimal where
  digits : ℕ
  length : ℕ
  point : ℤ
deriving DecidableEq, Repr

/-- The exact value of a decimal number. -/
def Decimal.value (decimal : Decimal) : ℚ :=
  decimal.digits * 10 ^ (decimal.point - decimal.length)

/-- A decimal with `digits` at the given place, one digit longer when they carried over. -/
def Decimal.normalized (digits length : ℕ) (point : ℤ) : Decimal :=
  if digits = 10 ^ length then ⟨10 ^ (length - 1), length, point + 1⟩
  else ⟨digits, length, point⟩

/-- The closest decimal of the given length that reads back as the value, if there is one. -/
def decimalOfLength (value : ℚ) (point : ℤ) (length : ℕ) : Option Decimal :=
  let scaled := value / 10 ^ (point - length)
  let below := Decimal.normalized ⌊scaled⌋.toNat length point
  let above := Decimal.normalized (⌊scaled⌋.toNat + 1) length point
  let reads (decimal : Decimal) : Bool := decimal.digits ≠ 0 ∧ round decimal.value = finite value
  let nearest :=
    if above.value - value < value - below.value then [above, below] else [below, above]
  nearest.find? reads

/-- The shortest decimal that reads back as a positive value; seventeen digits always do. -/
def shortestDecimal (value : ℚ) : Option Decimal :=
  (List.range 17).findSome? fun index =>
    decimalOfLength value (Int.log 10 value + 1) (index + 1)

/-- The digits of a decimal, without its point. -/
def Decimal.text (decimal : Decimal) : List Char := Nat.toDigits 10 decimal.digits

/-- An exponent with its sign. -/
def exponentText (exponent : ℤ) : List Char :=
  (if exponent < 0 then '-' else '+') :: Nat.toDigits 10 exponent.natAbs

/-- How a positive finite number is written. -/
def Decimal.written (decimal : Decimal) : List Char :=
  let digits := decimal.text
  let point := decimal.point
  if (decimal.length : ℤ) ≤ point ∧ point ≤ 21 then
    digits ++ List.replicate (point.toNat - decimal.length) '0'
  else if 0 < point ∧ point ≤ 21 then
    digits.take point.toNat ++ '.' :: digits.drop point.toNat
  else if -6 < point ∧ point ≤ 0 then
    '0' :: '.' :: List.replicate point.natAbs '0' ++ digits
  else
    match digits with
    | [digit] => digit :: 'e' :: exponentText (point - 1)
    | digit :: others => digit :: '.' :: others ++ 'e' :: exponentText (point - 1)
    | [] => []

/-- `String(value)`. -/
def text : JsNumber → List Char
  | nan => "NaN".toList
  | infinite negative => (if negative then "-Infinity" else "Infinity").toList
  | finite value =>
      if value = 0 then ['0']
      else
        (if value < 0 then ['-'] else []) ++
          ((shortestDecimal |value|).map Decimal.written).getD []

end ServerFoundation.JsNumber
