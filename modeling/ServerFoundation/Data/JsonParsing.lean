import ServerFoundation.Data.JsObject
import ServerFoundation.Data.JsonValue
import ServerFoundation.Data.NumberReading

/-!
# Reading JSON text

`JSON.parse`, and that it inverts `JSON.stringify`. The parser is given a budget for its
recursion; twice the length of the text is enough for every text that was written.
-/

namespace ServerFoundation

namespace Json

section Strings

/-- The value of a hexadecimal digit. -/
def hexUnit (char : Char) : Option ℕ := JsNumber.digitValue 16 char

/-- What the character behind a backslash stands for. -/
def shortEscape (char : Char) : Option ℕ :=
  if char = '"' ∨ char = '\\' ∨ char = '/' then some char.toNat
  else if char = 'b' then some 0x8
  else if char = 'f' then some 0xC
  else if char = 'n' then some 0xA
  else if char = 'r' then some 0xD
  else if char = 't' then some 0x9
  else none

/-- The code units of a string whose opening quote has been read, and what follows it. -/
@[grind =]
def readUnits : List Char → Option (List ℕ × List Char)
  | [] => none
  | '"' :: rest => some ([], rest)
  | '\\' :: 'u' :: first :: second :: third :: fourth :: rest => do
      let digits ← [first, second, third, fourth].mapM hexUnit
      let read ← readUnits rest
      return (JsNumber.digitsValue 16 digits :: read.1, read.2)
  | '\\' :: char :: rest => do
      let unit ← shortEscape char
      let read ← readUnits rest
      return (unit :: read.1, read.2)
  | char :: rest =>
      if char.toNat < 0x20 ∨ char = '\\' then none
      else (readUnits rest).map fun read => (JsText.codeUnits char ++ read.1, read.2)

/-- A string whose opening quote has been read, and what follows it. -/
def readString (text : List Char) : Option (String × List Char) :=
  (readUnits text).map fun read => (String.ofList (JsText.textOfUnits read.1), read.2)

theorem readUnits_escape (char : Char) (rest : List Char) :
    readUnits (escape char ++ rest) =
      (readUnits rest).map fun read => (JsText.codeUnits char ++ read.1, read.2) := by
  unfold escape
  split_ifs with special control
  · rcases special with rfl | rfl <;> cases read : readUnits rest <;>
      simp [readUnits, shortEscape, JsText.codeUnits, read]
  · have basic : JsText.codeUnits char = [char.toNat] := by
      rw [JsText.codeUnits, if_pos (by omega)]
    rw [basic]
    have reads : readUnits (escapeControl char.toNat ++ rest) =
        (readUnits rest).bind fun read => some (char.toNat :: read.1, read.2) := by
      generalize char.toNat = code at control
      interval_cases code <;> rfl
    rw [reads]
    cases readUnits rest <;> rfl
  · rw [not_or] at special
    rw [List.singleton_append, readUnits.eq_def]
    split
    · rename_i empty
      cases empty
    · rename_i isQuote
      exact absurd (List.cons.inj isQuote).1 special.1
    · rename_i isEscape
      exact absurd (List.cons.inj isEscape).1 special.2
    · rename_i isEscape
      exact absurd (List.cons.inj isEscape).1 special.2
    · rename_i other others _ _ _ isChar
      rcases List.cons.inj isChar with ⟨rfl, rfl⟩
      rw [if_neg (not_or.mpr ⟨control, special.2⟩)]

theorem readString_quote (text : String) (rest : List Char) :
    readString (text.toList.flatMap escape ++ '"' :: rest) = some (text, rest) := by
  have units : ∀ chars : List Char, readUnits (chars.flatMap escape ++ '"' :: rest) =
      some (chars.flatMap JsText.codeUnits, rest) := by
    intro chars
    induction chars with
    | nil => rfl
    | cons char chars ih =>
        rw [List.flatMap_cons, List.append_assoc, readUnits_escape, ih]
        rfl
  rw [readString, units, Option.map_some, JsText.textOfUnits_flatMap, String.ofList_toList]

end Strings

section Numbers

variable {char : Char} {value : ℚ}

/-- The characters of numbers. -/
def isNumberChar (char : Char) : Bool := char.isDigit || ['+', '-', '.', 'e', 'E'].contains char

/-- An unsigned number: digits without a leading zero, and what `Number` takes behind them. -/
def isUnsignedNumber (text : List Char) : Bool :=
  let whole := text.takeWhile Char.isDigit
  whole ≠ [] && (whole.head? ≠ some '0' || whole.length = 1) &&
    (match text.dropWhile Char.isDigit with
      | '.' :: fraction => fraction.head?.any Char.isDigit
      | _ => true) &&
    (JsNumber.parseDecimal text).isSome

/-- The numerals of JSON. -/
def isNumber : List Char → Bool
  | '-' :: text => isUnsignedNumber text
  | text => isUnsignedNumber text

/-- A number, and what follows it. -/
def readNumber (text : List Char) : Option (JsNumber × List Char) :=
  let literal := text.takeWhile isNumberChar
  if isNumber literal then some (JsNumber.readSigned literal, text.dropWhile isNumberChar) else none

theorem head?_toDigits {value : ℕ} (positive : 0 < value) :
    (Nat.toDigits 10 value).head? ≠ some '0' := by
  induction value using Nat.strongRecOn with
  | _ value ih =>
      rw [Nat.toDigits_eq_if (by decide)]
      split_ifs with single
      · interval_cases value <;> decide
      · have shorter := ih (value / 10) (by omega) (by omega)
        rwa [List.head?_append_of_ne_nil _ (List.length_pos_iff.mp Nat.length_toDigits_pos)]

variable {decimal : JsNumber.Decimal}

/-- Digits, then nothing, a fraction or an exponent. -/
structure Shaped (text whole rest : List Char) : Prop where
  text : text = whole ++ rest
  nonempty : whole ≠ []
  digits : ∀ char ∈ whole, char.isDigit = true
  leading : whole.head? = some '0' → whole.length = 1
  rest : rest = [] ∨ (∃ digit others, rest = '.' :: digit :: others ∧ digit.isDigit = true) ∨
    ∃ others, rest = 'e' :: others

theorem shaped_written (wellFormed : decimal.WellFormed) :
    ∃ whole rest, Shaped decimal.written whole rest := by
  have length := wellFormed.length_text
  have positive : 0 < decimal.digits :=
    (Nat.pow_pos (by decide)).trans_le wellFormed.atLeast
  have leading : decimal.text.head? ≠ some '0' := head?_toDigits positive
  have areDigits : ∀ char ∈ decimal.text, char.isDigit = true :=
    fun char member => JsNumber.Decimal.isDigit_of_mem_text member
  have nonempty : decimal.text ≠ [] := JsNumber.Decimal.text_ne_nil
  have fraction : ∀ text : List Char, text ≠ [] → (∀ char ∈ text, char.isDigit = true) →
      ∃ digit others, text = digit :: others ∧ digit.isDigit = true := by
    intro text someText allDigits
    rcases List.exists_cons_of_ne_nil someText with ⟨digit, others, rfl⟩
    exact ⟨digit, others, rfl, allDigits digit List.mem_cons_self⟩
  unfold JsNumber.Decimal.written
  simp only
  split_ifs with whole inside small
  · refine ⟨_, [], (List.append_nil _).symm, by simp [nonempty], ?_, ?_, Or.inl rfl⟩
    · intro char member
      rcases List.mem_append.mp member with inText | inZeros
      · exact areDigits char inText
      · exact JsNumber.isDigit_of_mem_zeros inZeros
    · rw [List.head?_append_of_ne_nil _ nonempty]
      exact fun zero => absurd zero leading
  · have early : decimal.point.toNat < decimal.text.length := by omega
    have some : 0 < decimal.point.toNat := by omega
    rcases fraction (decimal.text.drop decimal.point.toNat)
      (List.length_pos_iff.mp (by rw [List.length_drop]; omega))
      (fun char member => areDigits char (List.mem_of_mem_drop member)) with
      ⟨digit, others, isFraction, isDigit⟩
    refine ⟨_, _, rfl, ?_, ?_, ?_, Or.inr (Or.inl ⟨digit, others, by rw [isFraction], isDigit⟩)⟩
    · rw [Ne, List.take_eq_nil_iff]
      simp [nonempty, some.ne']
    · exact fun char member => areDigits char (List.mem_of_mem_take member)
    · rw [List.head?_take, if_neg some.ne']
      exact fun zero => absurd zero leading
  · rcases fraction (List.replicate decimal.point.natAbs '0' ++ decimal.text)
      (by simp [nonempty]) (by
        intro char member
        rcases List.mem_append.mp member with inZeros | inText
        · exact JsNumber.isDigit_of_mem_zeros inZeros
        · exact areDigits char inText) with ⟨digit, others, isFraction, isDigit⟩
    refine ⟨['0'], _, rfl, by simp, by simp, fun _ => rfl,
      Or.inr (Or.inl ⟨digit, others, ?_, isDigit⟩)⟩
    exact congrArg ('.' :: ·) isFraction
  · split
    · rename_i digit single
      refine ⟨[digit], _, rfl, by simp, ?_, fun _ => rfl, Or.inr (Or.inr ⟨_, rfl⟩)⟩
      rwa [← single]
    · rename_i digit others notSingle isText
      rw [isText] at areDigits leading
      rcases fraction others notSingle
        (fun char member => areDigits char (List.mem_cons_of_mem _ member)) with
        ⟨second, more, isFraction, isDigit⟩
      refine ⟨[digit], '.' :: others ++ 'e' :: JsNumber.exponentText (decimal.point - 1), rfl,
        by simp, ?_, fun _ => rfl, Or.inr (Or.inl ⟨second,
          more ++ 'e' :: JsNumber.exponentText (decimal.point - 1), ?_, isDigit⟩)⟩
      · intro char member
        rw [List.mem_singleton.mp member]
        exact areDigits digit List.mem_cons_self
      · rw [isFraction]
        rfl
    · rename_i empty
      exact absurd empty nonempty

theorem isUnsignedNumber_written (wellFormed : decimal.WellFormed) :
    isUnsignedNumber decimal.written = true := by
  rcases shaped_written wellFormed with ⟨whole, rest, shaped⟩
  have stops : ∀ char ∈ rest.head?, char.isDigit = false := by
    rcases shaped.rest with rfl | ⟨digit, others, rfl, _⟩ | ⟨others, rfl⟩ <;> simp
  have taken : decimal.written.takeWhile Char.isDigit = whole := by
    rw [shaped.text, List.takeWhile_append_of_pos shaped.digits]
    cases rest with
    | nil => simp
    | cons char others => simp [stops char rfl]
  have dropped : decimal.written.dropWhile Char.isDigit = rest := by
    rw [shaped.text, List.dropWhile_append_of_pos shaped.digits]
    cases rest with
    | nil => rfl
    | cons char others => simp [stops char rfl]
  have leading : whole.head? ≠ some '0' ∨ whole.length = 1 := by
    by_cases zero : whole.head? = some '0'
    · exact Or.inr (shaped.leading zero)
    · exact Or.inl zero
  unfold isUnsignedNumber
  simp only [taken, dropped, wellFormed.parseDecimal_written]
  rcases shaped.rest with rfl | ⟨digit, others, rfl, isDigit⟩ | ⟨others, rfl⟩
  · simpa [shaped.nonempty] using leading
  · simpa [shaped.nonempty, isDigit] using leading
  · simpa [shaped.nonempty] using leading

theorem isNumberChar_of_isDigit (digit : char.isDigit = true) : isNumberChar char = true := by
  simp [isNumberChar, digit]

theorem isNumberChar_of_mem_exponentText {exponent : ℤ}
    (member : char ∈ JsNumber.exponentText exponent) : isNumberChar char = true := by
  rcases List.mem_cons.mp member with rfl | digit
  · split_ifs <;> decide
  · exact isNumberChar_of_isDigit (Nat.isDigit_of_mem_toDigits (by decide) (by decide) digit)

theorem isNumberChar_of_mem_written (member : char ∈ decimal.written) :
    isNumberChar char = true := by
  have ofText : char ∈ decimal.text → isNumberChar char = true :=
    fun inText => isNumberChar_of_isDigit (JsNumber.Decimal.isDigit_of_mem_text inText)
  have ofZeros : ∀ count, char ∈ List.replicate count '0' → isNumberChar char = true :=
    fun count inZeros => isNumberChar_of_isDigit (JsNumber.isDigit_of_mem_zeros inZeros)
  unfold JsNumber.Decimal.written at member
  simp only at member
  split_ifs at member with whole inside small
  · rcases List.mem_append.mp member with inText | inZeros
    · exact ofText inText
    · exact ofZeros _ inZeros
  · rcases List.mem_append.mp member with inWhole | inFraction
    · exact ofText (List.mem_of_mem_take inWhole)
    · rcases List.mem_cons.mp inFraction with rfl | inText
      · decide
      · exact ofText (List.mem_of_mem_drop inText)
  · rcases List.mem_cons.mp member with rfl | behind
    · decide
    · rcases List.mem_cons.mp behind with rfl | inFraction
      · decide
      · rcases List.mem_append.mp inFraction with inZeros | inText
        · exact ofZeros _ inZeros
        · exact ofText inText
  · split at member
    · rename_i digit single
      rcases List.mem_cons.mp member with rfl | behind
      · exact ofText (by rw [single]; exact List.mem_cons_self)
      · rcases List.mem_cons.mp behind with rfl | inExponent
        · decide
        · exact isNumberChar_of_mem_exponentText inExponent
    · rename_i digit others notSingle isText
      simp only [List.cons_append, List.mem_cons, List.mem_append] at member
      rcases member with rfl | rfl | inOthers | rfl | inExponent
      · exact ofText (by rw [isText]; exact List.mem_cons_self)
      · decide
      · exact ofText (by rw [isText]; exact List.mem_cons_of_mem _ inOthers)
      · decide
      · exact isNumberChar_of_mem_exponentText inExponent
    · cases member

/-- What follows a number: nothing, or something that no number contains. -/
def EndsNumber (rest : List Char) : Prop := ∀ char ∈ rest.head?, isNumberChar char = false

theorem text_shape (double : (JsNumber.finite value).IsDouble) :
    isNumber (JsNumber.finite value).text = true ∧
      ∀ char ∈ (JsNumber.finite value).text, isNumberChar char = true := by
  unfold JsNumber.text
  simp only
  split_ifs with zero negative
  · refine ⟨by decide, fun char member => ?_⟩
    rw [List.mem_singleton.mp member]
    decide
  all_goals
    rcases JsNumber.exists_shortestDecimal (abs_pos.mpr zero) (JsNumber.round_abs double) with
      ⟨decimal, found⟩
    have wellFormed := (JsNumber.shortestDecimal_eq_some (abs_pos.mpr zero) found).1
    have unsigned := isUnsignedNumber_written wellFormed
    simp only [found, Option.map_some, Option.getD_some, List.singleton_append, List.nil_append]
  · refine ⟨unsigned, ?_⟩
    intro char member
    rcases List.mem_cons.mp member with rfl | behind
    · decide
    · exact isNumberChar_of_mem_written behind
  · refine ⟨?_, fun char member => isNumberChar_of_mem_written member⟩
    unfold isNumber
    split
    · rename_i signed
      rw [signed] at unsigned
      simp [isUnsignedNumber] at unsigned
    · exact unsigned

theorem readNumber_text (double : (JsNumber.finite value).IsDouble) {rest : List Char}
    (ends : EndsNumber rest) :
    readNumber ((JsNumber.finite value).text ++ rest) = some (.finite value, rest) := by
  rcases text_shape double with ⟨valid, chars⟩
  have taken : ((JsNumber.finite value).text ++ rest).takeWhile isNumberChar =
      (JsNumber.finite value).text := by
    rw [List.takeWhile_append_of_pos chars]
    cases rest with
    | nil => simp
    | cons char others => simp [ends char rfl]
  have dropped : ((JsNumber.finite value).text ++ rest).dropWhile isNumberChar = rest := by
    rw [List.dropWhile_append_of_pos chars]
    cases rest with
    | nil => rfl
    | cons char others => simp [ends char rfl]
  rw [readNumber, taken, dropped, if_pos valid, JsNumber.readSigned_text double]

theorem text_head (double : (JsNumber.finite value).IsDouble) :
    ∃ first others, (JsNumber.finite value).text = first :: others ∧
      isNumberChar first = true := by
  rcases text_shape double with ⟨valid, chars⟩
  cases shown : (JsNumber.finite value).text with
  | nil =>
      rw [shown] at valid
      cases valid
  | cons first others => exact ⟨first, others, rfl, chars first (by rw [shown]; simp)⟩

end Numbers

section Values

/-- The white space of JSON. -/
def isSpace (char : Char) : Bool := [' ', '\t', '\n', '\r'].contains char

/-- A text without its leading white space. -/
def skipSpace (text : List Char) : List Char := text.dropWhile isSpace

mutual

/-- A value, and what follows it. -/
def parseValue : ℕ → List Char → Option (JsonValue × List Char)
  | 0, _ => none
  | budget + 1, text =>
      match skipSpace text with
      | '"' :: rest => (readString rest).map fun read => (.string read.1, read.2)
      | '[' :: rest =>
          match skipSpace rest with
          | ']' :: rest => some (.array [], rest)
          | rest => (parseItems budget rest).map fun read => (.array read.1, read.2)
      | '{' :: rest =>
          match skipSpace rest with
          | '}' :: rest => some (.object [], rest)
          | rest => (parseMembers budget rest).map fun read =>
              (.object (JsObject.ownEntries (JsObject.fromEntries read.1)), read.2)
      | 'n' :: 'u' :: 'l' :: 'l' :: rest => some (.null, rest)
      | 't' :: 'r' :: 'u' :: 'e' :: rest => some (.boolean true, rest)
      | 'f' :: 'a' :: 'l' :: 's' :: 'e' :: rest => some (.boolean false, rest)
      | rest => (readNumber rest).map fun read => (.number read.1, read.2)

/-- The items of an array up to its closing bracket. -/
def parseItems : ℕ → List Char → Option (List JsonValue × List Char)
  | 0, _ => none
  | budget + 1, text =>
      (parseValue budget text).bind fun item =>
        match skipSpace item.2 with
        | ',' :: rest => (parseItems budget rest).map fun read => (item.1 :: read.1, read.2)
        | ']' :: rest => some ([item.1], rest)
        | _ => none

/-- The members of an object up to its closing brace, as they are written. -/
def parseMembers : ℕ → List Char → Option (List (String × JsonValue) × List Char)
  | 0, _ => none
  | budget + 1, text =>
      match skipSpace text with
      | '"' :: rest =>
          (readString rest).bind fun key =>
            match skipSpace key.2 with
            | ':' :: rest =>
                (parseValue budget rest).bind fun value =>
                  match skipSpace value.2 with
                  | ',' :: rest => (parseMembers budget rest).map fun read =>
                      ((key.1, value.1) :: read.1, read.2)
                  | '}' :: rest => some ([(key.1, value.1)], rest)
                  | _ => none
            | _ => none
      | _ => none

end

/-- `JSON.parse`. -/
def parse (text : String) : Option JsonValue :=
  match parseValue (2 * text.toList.length + 2) text.toList with
  | some (value, rest) => if skipSpace rest = [] then some value else none
  | none => none

end Values

end Json

namespace JsonValue

mutual

/-- Numbers are finite doubles, and the properties of objects are in their order. -/
def Proper : JsonValue → Prop
  | .number value => value.isFinite = true ∧ value.IsDouble
  | .array items => ProperItems items
  | .object members =>
      JsObject.ownEntries (JsObject.fromEntries members) = members ∧ ProperMembers members
  | _ => True

/-- All elements are proper. -/
def ProperItems : List JsonValue → Prop
  | [] => True
  | item :: items => item.Proper ∧ ProperItems items

/-- All members are proper, and have different names. -/
def ProperMembers : List (String × JsonValue) → Prop
  | [] => True
  | (_, value) :: members => value.Proper ∧ ProperMembers members

end

end JsonValue

namespace Json

section RoundTrip

variable {first : Char}

theorem skipSpace_of_head {others : List Char} (proper : isSpace first = false) :
    skipSpace (first :: others) = first :: others := by
  simp [skipSpace, proper]

theorem ne_of_isNumberChar {other : Char} (number : isNumberChar first = true)
    (differs : isNumberChar other = false) : first ≠ other := by
  rintro rfl
  rw [number] at differs
  cases differs

theorem isSpace_of_isNumberChar (number : isNumberChar first = true) : isSpace first = false := by
  have differs : ∀ other, isNumberChar other = false → first ≠ other :=
    fun other => ne_of_isNumberChar number
  simp [isSpace, differs ' ' (by decide), differs '\t' (by decide), differs '\n' (by decide),
    differs '\r' (by decide)]

theorem write_head (value : JsonValue) (proper : value.Proper) :
    ∃ first others, value.write = first :: others ∧ isSpace first = false ∧ first ≠ ']' ∧
      first ≠ '}' := by
  cases value with
  | null => exact ⟨'n', _, rfl, by decide, by decide, by decide⟩
  | boolean value =>
      cases value
      · exact ⟨'f', _, rfl, by decide, by decide, by decide⟩
      · exact ⟨'t', _, rfl, by decide, by decide, by decide⟩
  | number value =>
      rcases proper with ⟨isFinite, double⟩
      cases value with
      | finite value =>
          rcases text_head double with ⟨first, others, shown, number⟩
          exact ⟨first, others, shown, isSpace_of_isNumberChar number,
            ne_of_isNumberChar number (by decide), ne_of_isNumberChar number (by decide)⟩
      | infinite negative => cases isFinite
      | nan => cases isFinite
  | string text => exact ⟨'"', _, rfl, by decide, by decide, by decide⟩
  | array items => exact ⟨'[', _, rfl, by decide, by decide, by decide⟩
  | object members => exact ⟨'{', _, rfl, by decide, by decide, by decide⟩

theorem parseValue_number {value : ℚ} (double : (JsNumber.finite value).IsDouble)
    {rest : List Char} (ends : EndsNumber rest) (budget : ℕ) :
    parseValue (budget + 1) ((JsNumber.finite value).text ++ rest) =
      some (.number (.finite value), rest) := by
  have read := readNumber_text double ends
  rcases text_head double with ⟨first, others, shown, number⟩
  rw [shown, List.cons_append] at read ⊢
  have differs : ∀ {other : Char} {left right : List Char}, first :: left = other :: right →
      isNumberChar other = false → False :=
    fun same ordinary => ne_of_isNumberChar number ordinary (List.cons.inj same).1
  rw [parseValue, skipSpace_of_head (isSpace_of_isNumberChar number)]
  split
  · exact absurd (differs ‹_› (by decide)) id
  · exact absurd (differs ‹_› (by decide)) id
  · exact absurd (differs ‹_› (by decide)) id
  · exact absurd (differs ‹_› (by decide)) id
  · exact absurd (differs ‹_› (by decide)) id
  · exact absurd (differs ‹_› (by decide)) id
  · rw [read]
    rfl

theorem parseValue_string (text : String) (rest : List Char) (budget : ℕ) :
    parseValue (budget + 1) (quote text ++ rest) = some (.string text, rest) := by
  have shape : quote text ++ rest = '"' :: (text.toList.flatMap escape ++ '"' :: rest) := by
    simp [quote]
  rw [shape, parseValue, skipSpace_of_head (by decide)]
  simp only [readString_quote, Option.map_some]

theorem endsNumber_cons {char : Char} {rest : List Char} (ends : isNumberChar char = false) :
    EndsNumber (char :: rest) := by
  intro first isFirst
  cases isFirst
  exact ends

/-- The members of an object with commas between them. -/
def membersText (members : List (String × JsonValue)) : List Char :=
  [','].intercalate ((JsonValue.writeMembers members).map member)

mutual

theorem parseValue_write : ∀ (value : JsonValue) (rest : List Char) (budget : ℕ), value.Proper →
    EndsNumber rest → 2 * value.write.length < budget →
      parseValue budget (value.write ++ rest) = some (value, rest)
  | _, _, 0, _, _, enough => absurd enough (Nat.not_lt_zero _)
  | .null, rest, budget + 1, _, _, _ => by simp [JsonValue.write, parseValue, skipSpace, isSpace]
  | .boolean true, rest, budget + 1, _, _, _ => by
      simp [JsonValue.write, parseValue, skipSpace, isSpace]
  | .boolean false, rest, budget + 1, _, _, _ => by
      simp [JsonValue.write, parseValue, skipSpace, isSpace]
  | .number (.finite _), rest, budget + 1, proper, ends, _ => parseValue_number proper.2 ends budget
  | .string text, rest, budget + 1, _, _, _ => parseValue_string text rest budget
  | .array [], rest, budget + 1, _, _, _ => by
      simp [JsonValue.write, JsonValue.writeItems, parseValue, skipSpace, isSpace]
  | .array (item :: items), rest, budget + 1, proper, _, enough => by
      have shape : (JsonValue.array (item :: items)).write ++ rest =
          '[' :: ([','].intercalate (JsonValue.writeItems (item :: items)) ++ ']' :: rest) := by
        simp [JsonValue.write]
      have read := parseItems_write item items rest budget proper.1 proper.2 (by
        simp only [JsonValue.write, List.length_append, List.length_cons, List.length_nil] at enough
        omega)
      rcases write_head item proper.1 with ⟨first, others, isText, noSpace, noBracket, _⟩
      have head : ∃ tail, [','].intercalate (JsonValue.writeItems (item :: items)) ++ ']' :: rest =
          first :: tail := by
        rw [JsonValue.writeItems, intercalate_cons_flatMap, isText]
        exact ⟨_, rfl⟩
      rcases head with ⟨tail, head⟩
      rw [head] at read
      rw [shape, head, parseValue, skipSpace_of_head (by decide)]
      simp only [skipSpace_of_head noSpace]
      split
      · rename_i closes
        exact absurd (List.cons.inj closes).1 noBracket
      · rw [read]
        rfl
  | .object [], rest, budget + 1, _, _, _ => by
      simp [JsonValue.write, JsonValue.writeMembers, object, parseValue, skipSpace, isSpace]
  | .object ((key, value) :: members), rest, budget + 1, proper, _, enough => by
      have shape : (JsonValue.object ((key, value) :: members)).write ++ rest =
          '{' :: (membersText ((key, value) :: members) ++ '}' :: rest) := by
        simp [JsonValue.write, object, membersText]
      have read := parseMembers_write key value members rest budget proper.2.1 proper.2.2 (by
        simp only [JsonValue.write, object, List.length_append, List.length_cons,
          List.length_nil] at enough
        unfold membersText
        omega)
      have head : ∃ tail, membersText ((key, value) :: members) ++ '}' :: rest = '"' :: tail := by
        rw [membersText, JsonValue.writeMembers, List.map_cons, intercalate_cons_flatMap, member,
          quote]
        exact ⟨_, rfl⟩
      rcases head with ⟨tail, head⟩
      rw [head] at read
      rw [shape, head, parseValue, skipSpace_of_head (by decide)]
      simp only [skipSpace_of_head (show isSpace '"' = false by decide)]
      split
      · rename_i closes
        exact absurd (List.cons.inj closes).1 (by decide)
      · rw [read, Option.map_some, proper.1]

theorem parseItems_write : ∀ (item : JsonValue) (items : List JsonValue) (rest : List Char)
    (budget : ℕ), item.Proper → JsonValue.ProperItems items →
      2 * ([','].intercalate (JsonValue.writeItems (item :: items))).length + 1 < budget →
        parseItems budget
          ([','].intercalate (JsonValue.writeItems (item :: items)) ++ ']' :: rest) =
            some (item :: items, rest)
  | _, _, _, 0, _, _, enough => absurd enough (Nat.not_lt_zero _)
  | item, [], rest, budget + 1, proper, _, enough => by
      simp only [JsonValue.writeItems, List.intercalate_singleton] at enough ⊢
      have read := parseValue_write item (']' :: rest) budget proper
        (endsNumber_cons (by decide)) (by omega)
      simp [parseItems, read, skipSpace, isSpace]
  | item, second :: items, rest, budget + 1, proper, others, enough => by
      simp only [JsonValue.writeItems, List.intercalate_cons_cons, List.length_append,
        List.length_cons] at enough
      have first := parseValue_write item
        (',' :: ([','].intercalate (JsonValue.writeItems (second :: items)) ++ ']' :: rest)) budget
        proper (endsNumber_cons (by decide)) (by omega)
      have onwards := parseItems_write second items rest budget others.1 others.2 (by
        rw [JsonValue.writeItems]
        omega)
      simp only [JsonValue.writeItems, List.intercalate_cons_cons, List.append_assoc,
        List.cons_append] at first onwards ⊢
      simp [parseItems, first, skipSpace, isSpace, onwards]

theorem parseMembers_write : ∀ (key : String) (value : JsonValue)
    (members : List (String × JsonValue)) (rest : List Char) (budget : ℕ), value.Proper →
      JsonValue.ProperMembers members →
        2 * (membersText ((key, value) :: members)).length + 1 < budget →
          parseMembers budget (membersText ((key, value) :: members) ++ '}' :: rest) =
            some ((key, value) :: members, rest)
  | _, _, _, _, 0, _, _, enough => absurd enough (Nat.not_lt_zero _)
  | key, value, [], rest, budget + 1, proper, _, enough => by
      have shape : membersText [(key, value)] ++ '}' :: rest =
          '"' :: (key.toList.flatMap escape ++ '"' :: (':' :: (value.write ++ '}' :: rest))) := by
        simp [membersText, JsonValue.writeMembers, member, quote]
      have short : 2 * value.write.length < budget := by
        simp only [membersText, JsonValue.writeMembers, List.map_cons, List.map_nil,
          List.intercalate_singleton, member, List.length_append, List.length_cons] at enough
        omega
      have read := parseValue_write value ('}' :: rest) budget proper
        (endsNumber_cons (by decide)) short
      rw [shape]
      simp [parseMembers, readString_quote, skipSpace, isSpace, read]
  | key, value, (second, next) :: members, rest, budget + 1, proper, others, enough => by
      have shape : membersText ((key, value) :: (second, next) :: members) ++ '}' :: rest =
          '"' :: (key.toList.flatMap escape ++ '"' :: (':' :: (value.write ++
            ',' :: (membersText ((second, next) :: members) ++ '}' :: rest)))) := by
        simp [membersText, JsonValue.writeMembers, member, quote]
      have lengths := congrArg List.length shape
      simp only [List.length_append, List.length_cons] at lengths
      have first := parseValue_write value
        (',' :: (membersText ((second, next) :: members) ++ '}' :: rest)) budget proper
        (endsNumber_cons (by decide)) (by omega)
      have onwards := parseMembers_write second next members rest budget others.1 others.2
        (by omega)
      rw [shape]
      simp [parseMembers, readString_quote, skipSpace, isSpace, first, onwards]

end

theorem parse_stringify {value : JsonValue} (proper : value.Proper) :
    parse value.stringify = some value := by
  have read := parseValue_write value [] (2 * value.write.length + 2) proper nofun (by omega)
  rw [List.append_nil] at read
  rw [parse, JsonValue.stringify, String.toList_ofList, read]
  rfl

end RoundTrip

section Lengths

theorem length_textOfUnits_cons (unit : ℕ) (units : List ℕ) :
    (JsText.textOfUnits (unit :: units)).length ≤ (JsText.textOfUnits units).length + 1 := by
  rw [JsText.textOfUnits.eq_def]
  dsimp only
  split_ifs with high low
  · cases units with
    | nil => simp [JsText.textOfUnits]
    | cons second others =>
        dsimp only
        split_ifs with paired
        · have notHigh : ¬(0xD800 ≤ second ∧ second < 0xDC00) := by omega
          have own : JsText.textOfUnits (second :: others) =
              Char.ofNat 0xFFFD :: JsText.textOfUnits others := by
            rw [JsText.textOfUnits.eq_def]
            dsimp only
            rw [if_neg notHigh, if_pos paired]
          simp [own]
        · simp
  all_goals simp

theorem length_readUnits {text rest : List Char} {units : List ℕ}
    (read : readUnits text = some (units, rest)) :
    (JsText.textOfUnits units).length < text.length := by
  fun_induction readUnits text generalizing units rest with
  | case1 => cases read
  | case2 others =>
      cases read
      simp [JsText.textOfUnits]
  | case3 first second third fourth others ih =>
      simp only [Option.bind_eq_bind, Option.bind_eq_some_iff, Option.pure_def,
        Option.some.injEq, Prod.mk.injEq] at read
      rcases read with ⟨digits, _, ⟨behind, left⟩, found, rfl, rfl⟩
      have shorter := ih found
      have consed := length_textOfUnits_cons (JsNumber.digitsValue 16 digits) behind
      simp only [List.length_cons]
      omega
  | case4 char others _ ih =>
      simp only [Option.bind_eq_bind, Option.bind_eq_some_iff, Option.pure_def,
        Option.some.injEq, Prod.mk.injEq] at read
      rcases read with ⟨unit, _, ⟨behind, left⟩, found, rfl, rfl⟩
      have shorter := ih found
      have consed := length_textOfUnits_cons unit behind
      simp only [List.length_cons]
      omega
  | case5 => cases read
  | case6 char others _ _ _ _ ih =>
      rcases Option.map_eq_some_iff.mp read with ⟨⟨behind, left⟩, found, same⟩
      cases same
      have shorter := ih found
      rw [JsText.textOfUnits_codeUnits]
      simp only [List.length_cons]
      omega

theorem length_skipSpace (text : List Char) : (skipSpace text).length ≤ text.length :=
  (List.dropWhile_sublist _).length_le

theorem length_parseValue {budget : ℕ} {text rest : List Char} {found : String}
    (read : parseValue budget text = some (.string found, rest)) :
    found.toList.length < text.length := by
  have skipped := length_skipSpace text
  cases budget with
  | zero => cases read
  | succ budget =>
      rw [parseValue] at read
      split at read
      · rename_i others isString
        rcases Option.map_eq_some_iff.mp read with ⟨⟨shown, left⟩, string, same⟩
        cases same
        rcases Option.map_eq_some_iff.mp string with ⟨⟨units, left⟩, taken, same⟩
        cases same
        have shorter := length_readUnits taken
        rw [isString, List.length_cons] at skipped
        rw [String.toList_ofList]
        exact shorter.trans_le (by omega)
      · split at read
        · cases read
        · rcases Option.map_eq_some_iff.mp read with ⟨_, _, same⟩
          cases same
      · split at read
        · cases read
        · rcases Option.map_eq_some_iff.mp read with ⟨_, _, same⟩
          cases same
      · cases read
      · cases read
      · cases read
      · rcases Option.map_eq_some_iff.mp read with ⟨_, _, same⟩
        cases same

theorem parse_ne_self (text : String) : Json.parse text ≠ some (.string text) := by
  intro parsed
  unfold parse at parsed
  split at parsed
  · rename_i value rest read
    split_ifs at parsed with ended
    cases parsed
    exact absurd (length_parseValue read) (lt_irrefl _)
  · cases parsed

end Lengths

end Json

end ServerFoundation
