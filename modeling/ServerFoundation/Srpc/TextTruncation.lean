import ServerFoundation.Data.Utf8
import ServerFoundation.Srpc.PendingAccounting

/-!
# Truncation of texts to a number of bytes

`truncateUtf8` and `logSafeText` cut the bytes of a string, decode them and drop code units until
the text fits. What the cut leaves of a character shows as the replacement character, which takes
three bytes: it is dropped where one or two bytes are left of a character, and it stays where three
are left. Surrogates without their partner are replaced before the cut.

The strings are those of JavaScript, lists of code units.
-/

namespace ServerFoundation.Srpc

namespace CodeUnits

/-- `Buffer.from(value)`. -/
def bytes (value : List ℕ) : List UInt8 := Utf8.encode (JsText.textOfUnits value)

/-- `buffer.toString('utf8')`. -/
def ofBytes (buffer : List UInt8) : List ℕ := (Utf8.decode buffer).flatMap JsText.codeUnits

/-- `Buffer.byteLength(value)`. -/
def byteLength (value : List ℕ) : ℕ := (bytes value).length

/-- The loop that drops the last code unit while the text is too long, on the reversed text. -/
def sliceUntilFits (maxBytes : ℕ) : List ℕ → List ℕ
  | [] => []
  | last :: rest =>
      if maxBytes < byteLength (last :: rest).reverse then sliceUntilFits maxBytes rest
      else last :: rest

/-- The first bytes, decoded, and the loop. -/
def truncated (value : List ℕ) (maxBytes : ℕ) : List ℕ :=
  (sliceUntilFits maxBytes (ofBytes ((bytes value).take maxBytes)).reverse).reverse

/-- `truncateUtf8`. -/
def truncateUtf8 (value : List ℕ) (maxBytes : ℕ) : List ℕ :=
  if maxBytes = 0 then []
  else if byteLength value ≤ maxBytes then value
  else truncated value maxBytes

/-- The characters `[\u0000-\u001f\u007f-\u009f]`. -/
def isControl (unit : ℕ) : Bool := unit ≤ 0x1F || (0x7F ≤ unit && unit ≤ 0x9F)

/-- The text without control characters. -/
def printable (value : List ℕ) : List ℕ :=
  value.map fun unit => if isControl unit then 0x3F else unit

/-- `'…'`. -/
def suffix : List ℕ := [0x2026]

/-- `logSafeText`. -/
def logSafeText (value : List ℕ) (maxBytes : ℕ) : List ℕ :=
  if byteLength (printable value) ≤ maxBytes then printable value
  else truncated (printable value) (maxBytes - byteLength suffix) ++ suffix

section Characters

/-- The characters of a string; a surrogate without its partner stands alone. -/
@[grind =]
def characters : List ℕ → List (List ℕ)
  | [] => []
  | unit :: rest =>
      if 0xD800 ≤ unit ∧ unit < 0xDC00 then
        match rest with
        | low :: others =>
            if 0xDC00 ≤ low ∧ low < 0xE000 then [unit, low] :: characters others
            else [unit] :: characters (low :: others)
        | [] => [[unit]]
      else [unit] :: characters rest

/-- How a character is encoded. -/
def charOf : List ℕ → Char
  | [unit] => if 0xD800 ≤ unit ∧ unit < 0xE000 then Utf8.replacement else Char.ofNat unit
  | [high, low] => Char.ofNat (0x10000 + (high - 0xD800) * 0x400 + (low - 0xDC00))
  | _ => Utf8.replacement

/-- A surrogate without its partner. -/
def isLone : List ℕ → Bool
  | [unit] => 0xD800 ≤ unit && unit < 0xE000
  | _ => false

/-- The first characters, as long as they fit. -/
def whole (maxBytes : ℕ) : List (List ℕ) → List (List ℕ)
  | [] => []
  | character :: rest =>
      if (charOf character).utf8Size ≤ maxBytes then
        character :: whole (maxBytes - (charOf character).utf8Size) rest
      else []

/-- The bytes that the whole characters leave. -/
def roomLeft (maxBytes : ℕ) : List (List ℕ) → ℕ
  | [] => maxBytes
  | character :: rest =>
      if (charOf character).utf8Size ≤ maxBytes then
        roomLeft (maxBytes - (charOf character).utf8Size) rest
      else maxBytes

/-- The characters that fit have their partners, and what is left of the next one is not three
bytes. -/
structure CutsCleanly (value : List ℕ) (maxBytes : ℕ) : Prop where
  paired : ∀ character ∈ whole maxBytes (characters value), isLone character = false
  notThree : roomLeft maxBytes (characters value) ≠ 3

/-- A prefix that ends between two characters and fits. -/
structure Sound (value : List ℕ) (maxBytes : ℕ) (result : List ℕ) : Prop where
  fits : byteLength result ≤ maxBytes
  isPrefix : ∃ kept, kept <+: characters value ∧ result = kept.flatten

theorem flatten_characters (value : List ℕ) : (characters value).flatten = value := by
  fun_induction characters value with
  | case1 => rfl
  | case2 unit high low others isLow ih => simp [ih]
  | case3 unit high low others notLow ih => simpa using ih
  | case4 unit high => rfl
  | case5 unit rest notHigh ih => simp [ih]

theorem textOfUnits_eq (value : List ℕ) :
    JsText.textOfUnits value = (characters value).map charOf := by
  fun_induction characters value with
  | case1 => rfl
  | case2 unit high low others isLow ih =>
      rw [JsText.textOfUnits, if_pos high, if_pos isLow, ih]
      rfl
  | case3 unit high low others notLow ih =>
      rw [JsText.textOfUnits, if_pos high, if_neg notLow, ih, List.map_cons, charOf,
        if_pos ⟨high.1, by omega⟩]
      rfl
  | case4 unit high =>
      rw [JsText.textOfUnits, if_pos high, List.map_singleton, charOf, if_pos (by omega)]
      rfl
  | case5 unit rest notHigh ih =>
      rw [JsText.textOfUnits.eq_def]
      dsimp only
      rw [if_neg notHigh, ih, List.map_cons, charOf]
      congr 2
      exact propext (by omega)

theorem codeUnits_replacement : JsText.codeUnits Utf8.replacement = [0xFFFD] := by decide

theorem charOf_of_isLone {character : List ℕ} (lone : isLone character = true) :
    charOf character = Utf8.replacement ∧
      ∃ unit, character = [unit] ∧ 0xD800 ≤ unit ∧ unit < 0xE000 := by
  match character with
  | [unit] =>
      simp only [isLone, Bool.and_eq_true, decide_eq_true_eq] at lone
      exact ⟨if_pos lone, unit, rfl, lone⟩

theorem codeUnits_charOf {value : List ℕ} (units : ∀ unit ∈ value, unit < 0x10000)
    {character : List ℕ} (member : character ∈ characters value)
    (paired : isLone character = false) : JsText.codeUnits (charOf character) = character := by
  have single : ∀ unit < 0x10000, isLone [unit] = false →
      JsText.codeUnits (charOf [unit]) = [unit] := by
    intro unit small notLone
    have notSurrogate : ¬(0xD800 ≤ unit ∧ unit < 0xE000) := by simpa [isLone] using notLone
    rw [charOf, if_neg notSurrogate, JsText.codeUnits, JsText.toNat_ofNat (by omega), if_pos small]
  fun_induction characters value with
  | case1 => cases member
  | case2 unit high low others isLow ih =>
      rcases List.mem_cons.mp member with rfl | among
      · rw [charOf, JsText.codeUnits, JsText.toNat_ofNat (by omega), if_neg (by omega)]
        have highUnit : 0xD800 + (0x10000 + (unit - 0xD800) * 0x400 + (low - 0xDC00) - 0x10000) /
            0x400 = unit := by omega
        have lowUnit : 0xDC00 + (0x10000 + (unit - 0xD800) * 0x400 + (low - 0xDC00) - 0x10000) %
            0x400 = low := by omega
        rw [highUnit, lowUnit]
      · exact ih (fun unit isUnit => units unit (by simp [isUnit])) among
  | case3 unit high low others notLow ih =>
      rcases List.mem_cons.mp member with rfl | among
      · exact single unit (units unit (by simp)) paired
      · exact ih (fun unit isUnit => units unit (List.mem_cons_of_mem _ isUnit)) among
  | case4 unit high =>
      rw [List.mem_singleton.mp member] at paired ⊢
      exact single unit (units unit (by simp)) paired
  | case5 unit rest notHigh ih =>
      rcases List.mem_cons.mp member with rfl | among
      · exact single unit (units unit (by simp)) paired
      · exact ih (fun unit isUnit => units unit (List.mem_cons_of_mem _ isUnit)) among

theorem exists_cut {maxBytes : ℕ} {items : List (List ℕ)}
    (exceeds : maxBytes < (items.map fun item => (charOf item).utf8Size).sum) :
    ∃ next rest, items = whole maxBytes items ++ next :: rest ∧
      ((whole maxBytes items).map fun item => (charOf item).utf8Size).sum +
        roomLeft maxBytes items = maxBytes ∧
      roomLeft maxBytes items < (charOf next).utf8Size := by
  induction items generalizing maxBytes with
  | nil => simp at exceeds
  | cons item items ih =>
      rw [List.map_cons, List.sum_cons] at exceeds
      rw [whole, roomLeft]
      split_ifs with fits
      · rcases @ih (maxBytes - (charOf item).utf8Size) (by omega) with
          ⟨next, rest, parts, total, cut⟩
        refine ⟨next, rest, ?_, ?_, cut⟩
        · rw [List.cons_append, ← parts]
        · rw [List.map_cons, List.sum_cons]
          omega
      · exact ⟨item, items, rfl, by simp, Nat.lt_of_not_le fits⟩

end Characters

section Truncated

variable {value : List ℕ} {maxBytes : ℕ}

theorem byteLength_codeUnits (text : List Char) :
    byteLength (text.flatMap JsText.codeUnits) = (text.map Char.utf8Size).sum := by
  rw [byteLength, bytes, JsText.textOfUnits_flatMap, Utf8.length_encode]

theorem byteLength_eq (value : List ℕ) : byteLength value =
    ((characters value).map fun character => (charOf character).utf8Size).sum := by
  rw [byteLength, bytes, textOfUnits_eq, Utf8.length_encode, List.map_map]
  rfl

theorem sliceUntilFits_of_fits (fits : byteLength value ≤ maxBytes) :
    (sliceUntilFits maxBytes value.reverse).reverse = value := by
  cases reversed : value.reverse with
  | nil =>
      rw [List.reverse_eq_nil_iff.mp reversed]
      rfl
  | cons last rest =>
      have whole : (last :: rest).reverse = value := by rw [← reversed, List.reverse_reverse]
      rw [sliceUntilFits, whole, if_neg (Nat.not_lt.mpr fits), whole]

theorem sliceUntilFits_append {unit : ℕ} (exceeds : maxBytes < byteLength (value ++ [unit]))
    (fits : byteLength value ≤ maxBytes) :
    (sliceUntilFits maxBytes (value ++ [unit]).reverse).reverse = value := by
  have whole : (unit :: value.reverse).reverse = value ++ [unit] := by
    rw [List.reverse_cons, List.reverse_reverse]
  rw [List.reverse_append, List.reverse_singleton, List.singleton_append, sliceUntilFits, whole,
    if_pos exceeds, sliceUntilFits_of_fits fits]

theorem truncated_of_cut {kept rest : List Char} {next : Char} {room : ℕ}
    (text : JsText.textOfUnits value = kept ++ next :: rest)
    (size : utf8Size kept + room = maxBytes) (cut : room < next.utf8Size) :
    truncated value maxBytes =
      kept.flatMap JsText.codeUnits ++ if room = 3 then [0xFFFD] else [] := by
  unfold utf8Size at size
  have decoded : Utf8.decode ((Utf8.encode (JsText.textOfUnits value)).take maxBytes) =
      kept ++ if maxBytes = (Utf8.encode kept).length then [] else [Utf8.replacement] := by
    rw [text]
    exact Utf8.decode_take (by rw [Utf8.length_encode]; omega) (by rw [Utf8.length_encode]; omega)
  have small := next.utf8Size_le_four
  have longer : byteLength (kept.flatMap JsText.codeUnits ++ [0xFFFD]) =
      (kept.map Char.utf8Size).sum + 3 := by
    rw [← codeUnits_replacement, ← List.flatMap_singleton JsText.codeUnits, ← List.flatMap_append,
      byteLength_codeUnits, List.map_append, List.sum_append]
    rfl
  rw [truncated, ofBytes, bytes, decoded, Utf8.length_encode, List.flatMap_append]
  split_ifs with full three three
  · omega
  · rw [List.flatMap_nil, List.append_nil]
    exact sliceUntilFits_of_fits (by rw [byteLength_codeUnits]; omega)
  · rw [List.flatMap_singleton, codeUnits_replacement]
    exact sliceUntilFits_of_fits (by omega)
  · rw [List.flatMap_singleton, codeUnits_replacement, List.append_nil]
    exact sliceUntilFits_append (by omega) (by rw [byteLength_codeUnits]; omega)

theorem truncated_eq (exceeds : maxBytes < byteLength value) :
    truncated value maxBytes =
      ((whole maxBytes (characters value)).map charOf).flatMap JsText.codeUnits ++
        if roomLeft maxBytes (characters value) = 3 then [0xFFFD] else [] := by
  rw [byteLength_eq] at exceeds
  rcases exists_cut exceeds with ⟨next, rest, parts, total, cut⟩
  have text : JsText.textOfUnits value = (whole maxBytes (characters value)).map charOf ++
      charOf next :: rest.map charOf := by
    rw [textOfUnits_eq, ← List.map_cons, ← List.map_append, ← parts]
  refine truncated_of_cut text ?_ cut
  rw [utf8Size, List.map_map]
  exact total

section

variable (units : ∀ unit ∈ value, unit < 0x10000) {kept : List (List ℕ)}
include units

theorem flatMap_codeUnits_charOf (among : ∀ character ∈ kept, character ∈ characters value)
    (paired : ∀ character ∈ kept, isLone character = false) :
    (kept.map charOf).flatMap JsText.codeUnits = kept.flatten := by
  induction kept with
  | nil => rfl
  | cons character kept ih =>
      rw [List.map_cons, List.flatMap_cons, List.flatten_cons,
        codeUnits_charOf units (among _ List.mem_cons_self) (paired _ List.mem_cons_self),
        ih (fun other member => among other (List.mem_cons_of_mem _ member))
          (fun other member => paired other (List.mem_cons_of_mem _ member))]

theorem paired_of_prefix {rest tail : List ℕ}
    (among : ∀ character ∈ kept, character ∈ characters value)
    (isPrefix : (kept.map charOf).flatMap JsText.codeUnits ++ tail <+: kept.flatten ++ rest) :
    (∀ character ∈ kept, isLone character = false) ∧ tail <+: rest := by
  induction kept with
  | nil => exact ⟨nofun, isPrefix⟩
  | cons character kept ih =>
      rw [List.map_cons, List.flatMap_cons, List.flatten_cons, List.append_assoc,
        List.append_assoc] at isPrefix
      cases lone : isLone character with
      | true =>
          rcases charOf_of_isLone lone with ⟨isReplaced, unit, rfl, high, low⟩
          rw [isReplaced, codeUnits_replacement, List.singleton_append, List.singleton_append,
            List.cons_prefix_cons] at isPrefix
          omega
      | false =>
          rw [codeUnits_charOf units (among _ List.mem_cons_self) lone,
            List.prefix_append_right_inj] at isPrefix
          have others :=
            ih (fun other member => among other (List.mem_cons_of_mem _ member)) isPrefix
          exact ⟨List.forall_mem_cons.mpr ⟨lone, others.1⟩, others.2⟩

theorem exists_pair {character : List ℕ} (member : character ∈ characters value)
    (four : 3 < (charOf character).utf8Size) :
    ∃ high rest, character = high :: rest ∧ high < 0xE000 := by
  have paired : isLone character = false := by
    by_contra lone
    rw [(charOf_of_isLone (by simpa using lone)).1] at four
    exact absurd four (by decide)
  have same := codeUnits_charOf units member paired
  have valid := JsText.char_toNat_cases (charOf character)
  have large : 0xFFFF < (charOf character).toNat :=
    UInt32.lt_iff_toNat_lt.mp (Char.utf8Size_eq_four_iff.mp
      (Nat.le_antisymm (Char.utf8Size_le_four _) four))
  rw [JsText.codeUnits, if_neg (by omega)] at same
  exact ⟨_, _, same.symm, by omega⟩

theorem sound_truncated_iff (exceeds : maxBytes < byteLength value) :
    Sound value maxBytes (truncated value maxBytes) ↔ CutsCleanly value maxBytes := by
  have isTruncated := truncated_eq exceeds
  rw [byteLength_eq] at exceeds
  rcases exists_cut exceeds with ⟨next, rest, parts, total, cut⟩
  have among : ∀ character ∈ whole maxBytes (characters value), character ∈ characters value := by
    intro character member
    rw [parts]
    exact List.mem_append_left _ member
  constructor
  · rintro ⟨-, kept, isPrefix, same⟩
    have begins : truncated value maxBytes <+:
        (whole maxBytes (characters value)).flatten ++ (next :: rest).flatten := by
      rw [same, ← List.flatten_append, ← parts]
      exact isPrefix.flatten
    rw [isTruncated] at begins
    rcases paired_of_prefix units among begins with ⟨paired, tail⟩
    refine ⟨paired, fun three => ?_⟩
    rw [if_pos three] at tail
    rcases exists_pair units (by rw [parts]; simp) (by omega : 3 < (charOf next).utf8Size) with
      ⟨high, others, rfl, surrogate⟩
    rw [List.flatten_cons, List.cons_append, List.cons_prefix_cons] at tail
    omega
  · rintro ⟨paired, notThree⟩
    rw [if_neg notThree, List.append_nil, flatMap_codeUnits_charOf units among paired]
      at isTruncated
    refine ⟨?_, whole maxBytes (characters value), ⟨_, parts.symm⟩, isTruncated⟩
    rw [isTruncated, ← flatMap_codeUnits_charOf units among paired, byteLength_codeUnits,
      List.map_map]
    exact (Nat.le_add_right _ _).trans total.le

end

end Truncated

section Results

variable {value : List ℕ}

theorem unit_lt (value : List UInt16) : ∀ unit ∈ value.map UInt16.toNat, unit < 0x10000 := by
  intro unit member
  rcases List.mem_map.mp member with ⟨found, -, rfl⟩
  exact found.toNat_lt

theorem printable_lt (units : ∀ unit ∈ value, unit < 0x10000) :
    ∀ unit ∈ printable value, unit < 0x10000 := by
  intro unit member
  rcases List.mem_map.mp member with ⟨found, isFound, rfl⟩
  split
  · decide
  · exact units found isFound

theorem sound_of_fits {maxBytes : ℕ} (fits : byteLength value ≤ maxBytes) :
    Sound value maxBytes value :=
  ⟨fits, characters value, List.prefix_rfl, (flatten_characters value).symm⟩

theorem sound_nil (value : List ℕ) (maxBytes : ℕ) : Sound value maxBytes [] :=
  ⟨Nat.zero_le _, [], List.nil_prefix, rfl⟩

theorem sound_truncateUtf8_iff (units : ∀ unit ∈ value, unit < 0x10000) (maxBytes : ℕ) :
    Sound value maxBytes (truncateUtf8 value maxBytes) ↔
      byteLength value ≤ maxBytes ∨ CutsCleanly value maxBytes := by
  rw [truncateUtf8]
  by_cases fits : byteLength value ≤ maxBytes
  · rw [if_pos fits]
    refine iff_of_true ?_ (Or.inl fits)
    split
    · exact sound_nil value maxBytes
    · exact sound_of_fits fits
  · have noRoom : truncated value 0 = [] := rfl
    rw [or_iff_right fits, ← sound_truncated_iff units (Nat.lt_of_not_le fits), if_neg fits]
    split
    · rename_i none
      rw [none, noRoom]
    · rfl

/-- Truncation to a number of bytes, also of a text that is logged, gives a prefix exactly when it
cuts cleanly. -/
theorem truncation_sound_iff (value : List UInt16) (maxBytes : ℕ) :
    let units := value.map UInt16.toNat
    (Sound units maxBytes (truncateUtf8 units maxBytes) ↔
      byteLength units ≤ maxBytes ∨ CutsCleanly units maxBytes) ∧
    (byteLength (printable units) ≤ maxBytes ∧ logSafeText units maxBytes = printable units ∨
      ∃ text, logSafeText units maxBytes = text ++ suffix ∧
        (Sound (printable units) (maxBytes - 3) text ↔
          CutsCleanly (printable units) (maxBytes - 3))) := by
  intro units
  refine ⟨sound_truncateUtf8_iff (unit_lt value) maxBytes, ?_⟩
  rw [logSafeText]
  split
  · rename_i fits
    exact Or.inl ⟨fits, rfl⟩
  · exact Or.inr ⟨_, rfl, sound_truncated_iff (printable_lt (unit_lt value)) (by omega)⟩

/-- Three bytes of a character of four. -/
theorem truncateUtf8_replaces :
    truncateUtf8 [0xD83D, 0xDE00] 3 = [0xFFFD] ∧
      ¬Sound [0xD83D, 0xDE00] 3 (truncateUtf8 [0xD83D, 0xDE00] 3) := by
  have isReplaced : truncateUtf8 [0xD83D, 0xDE00] 3 = [0xFFFD] := by decide +kernel
  refine ⟨isReplaced, fun sound => ?_⟩
  have cut := (sound_truncateUtf8_iff (by decide) 3).mp sound
  rcases cut with fits | clean
  · exact absurd fits (by decide +kernel)
  · exact clean.notThree (by decide +kernel)

end Results

section WellFormed

theorem decodePrefix_of_cut {kept rest : List Char} {next : Char} {room : ℕ}
    (cut : room < next.utf8Size) :
    decodePrefix (utf8Size kept + room) (kept ++ next :: rest) =
      kept ++ if room = 0 then [] else [Utf8.replacement] := by
  induction kept with
  | nil =>
      rw [utf8Size, List.map_nil, List.sum_nil, Nat.zero_add, List.nil_append, decodePrefix,
        if_neg (Nat.not_le.mpr cut)]
      rfl
  | cons char kept ih =>
      have fits : char.utf8Size ≤ utf8Size (char :: kept) + room := by simp [utf8Size]; omega
      have behind : utf8Size (char :: kept) + room - char.utf8Size = utf8Size kept + room := by
        simp [utf8Size]; omega
      rw [List.cons_append, decodePrefix, if_pos fits, behind, ih, List.cons_append]

theorem exists_cut_text {maxBytes : ℕ} {text : List Char} (exceeds : maxBytes < utf8Size text) :
    ∃ kept next rest room, text = kept ++ next :: rest ∧ utf8Size kept + room = maxBytes ∧
      room < next.utf8Size := by
  induction text generalizing maxBytes with
  | nil => simp [utf8Size] at exceeds
  | cons char text ih =>
      by_cases fits : char.utf8Size ≤ maxBytes
      · rcases @ih (maxBytes - char.utf8Size) (by simp [utf8Size] at exceeds ⊢; omega) with
          ⟨kept, next, rest, room, rfl, total, cut⟩
        refine ⟨char :: kept, next, rest, room, rfl, ?_, cut⟩
        simp [utf8Size] at total ⊢
        omega
      · exact ⟨[], char, text, maxBytes, rfl, by simp [utf8Size], Nat.lt_of_not_le fits⟩

theorem dropUntilFits_of_fits {maxBytes : ℕ} {reversed : List Char}
    (fits : utf8Size reversed ≤ maxBytes) : dropUntilFits maxBytes reversed = reversed := by
  cases reversed with
  | nil => rfl
  | cons last rest => rw [dropUntilFits, if_neg (Nat.not_lt.mpr fits)]

/-- On strings without lone surrogates the code units are those of the truncated text. -/
theorem truncateUtf8_units (value : String) (maxBytes : ℕ) :
    truncateUtf8 (JsText.units value) maxBytes =
      JsText.units (Srpc.truncateUtf8 value maxBytes) := by
  have size : byteLength (JsText.units value) = utf8Size value.toList :=
    byteLength_codeUnits value.toList
  rw [truncateUtf8, Srpc.truncateUtf8, size]
  split_ifs with none fits
  · rfl
  · rfl
  · rcases exists_cut_text (Nat.lt_of_not_le fits) with ⟨kept, next, rest, room, text, total, cut⟩
    have same : JsText.textOfUnits (JsText.units value) = kept ++ next :: rest := by
      rw [JsText.units, JsText.textOfUnits_flatMap, text]
    rw [truncated_of_cut same total cut, text, ← total, decodePrefix_of_cut cut, JsText.units,
      String.toList_ofList]
    have small := next.utf8Size_le_four
    have longer : utf8Size (Utf8.replacement :: kept.reverse) = utf8Size kept + 3 := by
      rw [← utf8Size_reverse kept, Nat.add_comm]
      rfl
    split_ifs with three zero zero
    · omega
    · rw [List.reverse_append, List.reverse_singleton, List.singleton_append, dropUntilFits,
        if_neg (by omega), List.reverse_cons, List.reverse_reverse, List.flatMap_append,
        List.flatMap_singleton, codeUnits_replacement]
    · rw [List.append_nil, List.append_nil, dropUntilFits_of_fits (by rw [utf8Size_reverse]; omega),
        List.reverse_reverse]
    · rw [List.reverse_append, List.reverse_singleton, List.singleton_append, dropUntilFits,
        if_pos (by omega), dropUntilFits_of_fits (by rw [utf8Size_reverse]; omega),
        List.reverse_reverse, List.append_nil]

end WellFormed

end CodeUnits

end ServerFoundation.Srpc
