import Mathlib.Tactic.Common
import ServerFoundation.Data.LengthPrefix

/-!
# Percent-encoded texts

A text is decoded in two ways: strictly, character by character, where an escape that does not
spell a character is an error; and over its bytes, where such an escape stands for itself. What the
first decoder accepts, the second reads the same.
-/

namespace ServerFoundation

universe u v

variable {text rest : List Char} {count : ℕ} {octet : UInt8}

section Encoded

variable {Letter : Type u} {Byte : Type v} [DecidableEq Letter] [DecidableEq Byte]
  {encode : Letter → List Byte} {separator : Letter} {mark : Byte}

/-- The mark is written for the separator, and for nothing else. -/
structure MarksOnly (encode : Letter → List Byte) (separator : Letter) (mark : Byte) : Prop where
  encode_separator : encode separator = [mark]
  not_mem_encode : ∀ letter, letter ≠ separator → mark ∉ encode letter

theorem splitOn_append_of_not_mem {before : List Byte} (free : mark ∉ before)
    (bytes : List Byte) :
    (before ++ bytes).splitOn mark = (bytes.splitOn mark).modifyHead (before ++ ·) := by
  induction before with
  | nil =>
      rw [List.nil_append]
      cases bytes.splitOn mark <;> rfl
  | cons byte before ih =>
      have other : byte ≠ mark := fun same => free (same ▸ List.mem_cons_self)
      have ihFree := ih fun member => free (List.mem_cons_of_mem _ member)
      rw [List.cons_append, List.splitOn_cons_eq_if_modifyHead, ihFree]
      cases bytes.splitOn mark <;> simp [other]

namespace MarksOnly

variable (marks : MarksOnly encode separator mark)
include marks

omit [DecidableEq Byte] in
theorem mem_flatMap_iff (text : List Letter) : mark ∈ text.flatMap encode ↔ separator ∈ text := by
  rw [List.mem_flatMap]
  constructor
  · rintro ⟨letter, member, isMark⟩
    by_cases isSeparator : letter = separator
    · exact isSeparator ▸ member
    · exact absurd isMark (marks.not_mem_encode letter isSeparator)
  · intro member
    exact ⟨separator, member, by simp [marks.encode_separator]⟩

theorem splitOn_flatMap (text : List Letter) :
    (text.flatMap encode).splitOn mark = (text.splitOn separator).map (·.flatMap encode) := by
  induction text with
  | nil => simp
  | cons letter text ih =>
      rw [List.flatMap_cons]
      by_cases isSeparator : letter = separator
      · subst isSeparator
        rw [marks.encode_separator, List.singleton_append, List.splitOn_cons_eq_if_modifyHead, ih,
          List.splitOn_cons_eq_if_modifyHead]
        simp
      · rw [splitOn_append_of_not_mem (marks.not_mem_encode letter isSeparator), ih,
          List.splitOn_cons_eq_if_modifyHead]
        cases text.splitOn separator <;> simp [isSeparator]

theorem takeWhile_flatMap (text : List Letter) :
    (text.flatMap encode).takeWhile (· ≠ mark) =
      (text.takeWhile (· ≠ separator)).flatMap encode := by
  induction text with
  | nil => rfl
  | cons letter text ih =>
      rw [List.flatMap_cons]
      by_cases isSeparator : letter = separator
      · simp [isSeparator, marks.encode_separator]
      · have free : ∀ byte ∈ encode letter, decide (byte ≠ mark) = true := by
          intro byte member
          simp only [ne_eq, decide_not, Bool.not_eq_eq_eq_not, Bool.not_true,
            decide_eq_false_iff_not]
          rintro rfl
          exact marks.not_mem_encode letter isSeparator member
        rw [List.takeWhile_append_of_pos free, ih]
        simp [isSeparator]

end MarksOnly

end Encoded

/-! ### UTF-8 -/

theorem utf8Bytes_ofList (text : List Char) :
    utf8Bytes (String.ofList text) = text.flatMap String.utf8EncodeChar := by
  simp [utf8Bytes, String.toByteArray_ofList, List.utf8Encode]

theorem utf8Bytes_singleton (char : Char) :
    utf8Bytes (String.singleton char) = String.utf8EncodeChar char := by
  rw [String.singleton_eq_ofList, utf8Bytes_ofList]
  simp

theorem utf8EncodeChar_cases (char : Char) :
    (char.toNat < 128 ∧ String.utf8EncodeChar char = [UInt8.ofNat char.toNat]) ∨
      (128 ≤ char.toNat ∧ ∀ byte ∈ String.utf8EncodeChar char, 128 ≤ byte.toNat) := by
  have high (value : ℕ) (lower : 128 ≤ value) (upper : value < 256) :
      128 ≤ (UInt8.ofNat value).toNat := by
    simp only [UInt8.toNat_ofNat']
    omega
  unfold String.utf8EncodeChar
  change (char.toNat < 128 ∧ _) ∨ _
  have same : char.val.toNat = char.toNat := rfl
  simp only [same]
  split_ifs with one two three
  · exact .inl ⟨by omega, rfl⟩
  all_goals
    refine .inr ⟨by omega, ?_⟩
    intro byte member
    simp only [List.mem_cons, List.not_mem_nil, or_false] at member
    rcases member with rfl | rfl | rfl | rfl <;> exact high _ (by omega) (by omega)

theorem marksOnly_ascii {separator : Char} (isAscii : separator.toNat < 128) :
    MarksOnly String.utf8EncodeChar separator (UInt8.ofNat separator.toNat) where
  encode_separator := by
    rcases utf8EncodeChar_cases separator with ⟨-, encoded⟩ | ⟨above, -⟩
    · exact encoded
    · omega
  not_mem_encode := by
    intro letter other member
    rcases utf8EncodeChar_cases letter with ⟨small, encoded⟩ | ⟨-, above⟩
    · rw [encoded, List.mem_singleton] at member
      have same := congrArg UInt8.toNat member
      simp only [UInt8.toNat_ofNat'] at same
      apply other
      apply Char.toNat_inj.mp
      omega
    · have isAbove := above _ member
      simp only [UInt8.toNat_ofNat'] at isAbove
      omega

/-! ### Escapes -/

/-- The value of a hexadecimal digit, given by its code. -/
def hexValue (code : ℕ) : Option ℕ :=
  if 48 ≤ code ∧ code ≤ 57 then some (code - 48)
  else if 65 ≤ code ∧ code ≤ 70 then some (code - 55)
  else if 97 ≤ code ∧ code ≤ 102 then some (code - 87)
  else none

/-- The byte that two hexadecimal digits spell. -/
def hexOctet (high low : ℕ) : Option UInt8 :=
  (hexValue high).bind fun first => (hexValue low).map fun second =>
    UInt8.ofNat (16 * first + second)

/-- Every escape of a byte is decoded, and what is no escape stands for itself. -/
def percentDecode : List UInt8 → List UInt8
  | byte :: high :: low :: rest =>
      if byte = 37 then
        match hexOctet high.toNat low.toNat with
        | some octet => octet :: percentDecode rest
        | none => byte :: percentDecode (high :: low :: rest)
      else byte :: percentDecode (high :: low :: rest)
  | byte :: rest => byte :: percentDecode rest
  | [] => []

/-- An escape at the head of a text. -/
def readOctet : List Char → Option (UInt8 × List Char)
  | mark :: high :: low :: rest =>
      if mark = '%' then (hexOctet high.toNat low.toNat).map fun octet => (octet, rest) else none
  | _ => none

/-- As many percent-encoded octets as are asked for. -/
def readOctets : ℕ → List Char → Option (List UInt8 × List Char)
  | 0, text => some ([], text)
  | count + 1, text =>
      (readOctet text).bind fun (octet, rest) =>
        (readOctets count rest).map fun (octets, rest) => (octet :: octets, rest)

/-- How many bytes a character has that starts with this one. -/
def sequenceLength (first : UInt8) : Option ℕ :=
  if first < 0x80 then some 1
  else if first < 0xC0 then none
  else if first < 0xE0 then some 2
  else if first < 0xF0 then some 3
  else if first < 0xF8 then some 4
  else none

/-- The escapes at the head of a text that spell one character. -/
def readSequence (text : List Char) : Option (String × List Char) :=
  (readOctet text).bind fun (first, _) =>
    (sequenceLength first).bind fun count =>
      (readOctets count text).bind fun (octets, rest) =>
        (String.fromUTF8? ⟨octets.toArray⟩).map fun char => (char, rest)

theorem sequenceLength_pos {first : UInt8} (isLength : sequenceLength first = some count) :
    0 < count := by
  unfold sequenceLength at isLength
  split_ifs at isLength <;> simp_all <;> omega

theorem readOctet_eq_some (isRead : readOctet text = some (octet, rest)) :
    ∃ high low, text = '%' :: high :: low :: rest ∧
      hexOctet high.toNat low.toNat = some octet := by
  unfold readOctet at isRead
  split at isRead
  · rename_i mark high low after
    split_ifs at isRead with isMark
    rcases Option.map_eq_some_iff.mp isRead with ⟨decoded, isDecoded, same⟩
    rcases Prod.mk.inj same with ⟨rfl, rfl⟩
    exact ⟨high, low, by rw [isMark], isDecoded⟩
  · cases isRead

theorem length_readOctets {octets : List UInt8}
    (isRead : readOctets count text = some (octets, rest)) :
    rest.length + 3 * count = text.length := by
  induction count generalizing text octets with
  | zero =>
      rcases Option.some.inj isRead
      rfl
  | succ count ih =>
      rcases Option.bind_eq_some_iff.mp isRead with ⟨⟨octet, after⟩, isOctet, isRest⟩
      rcases Option.map_eq_some_iff.mp isRest with ⟨⟨others, last⟩, isOthers, same⟩
      rcases Prod.mk.inj same with ⟨-, rfl⟩
      rcases readOctet_eq_some isOctet with ⟨high, low, rfl, -⟩
      have shorter := ih isOthers
      simp only [List.length_cons]
      omega

theorem readSequence_eq_some {char : String} (isRead : readSequence text = some (char, rest)) :
    ∃ count, 0 < count ∧ readOctets count text = some (utf8Bytes char, rest) := by
  rcases Option.bind_eq_some_iff.mp isRead with ⟨⟨first, _⟩, -, isSequence⟩
  rcases Option.bind_eq_some_iff.mp isSequence with ⟨count, isLength, isOctets⟩
  rcases Option.bind_eq_some_iff.mp isOctets with ⟨⟨octets, after⟩, areOctets, isChar⟩
  rcases Option.map_eq_some_iff.mp isChar with ⟨decoded, isDecoded, same⟩
  rcases Prod.mk.inj same with ⟨rfl, rfl⟩
  have bytes : utf8Bytes decoded = octets := by
    unfold String.fromUTF8? at isDecoded
    split_ifs at isDecoded with valid
    rw [← Option.some.inj isDecoded]
    simp [utf8Bytes, String.fromUTF8]
  exact ⟨count, sequenceLength_pos isLength, bytes ▸ areOctets⟩

theorem readSequence_shorter {char : String} (isRead : readSequence text = some (char, rest)) :
    rest.length < text.length := by
  rcases readSequence_eq_some isRead with ⟨count, positive, areOctets⟩
  have shorter := length_readOctets areOctets
  omega

/-- `decodeURIComponent`, which throws on an escape that is no part of a character. -/
def decodeURIComponent : List Char → Option String
  | [] => some ""
  | char :: text =>
      if char = '%' then
        match _isRead : readSequence (char :: text) with
        | some (decoded, rest) => (decodeURIComponent rest).map (decoded ++ ·)
        | none => none
      else (decodeURIComponent text).map (String.singleton char ++ ·)
termination_by text => text.length
decreasing_by
  · exact readSequence_shorter _isRead
  · simp

/-! ### The two decoders -/

theorem hexValue_lt {code value : ℕ} (isDigit : hexValue code = some value) : code < 128 := by
  unfold hexValue at isDigit
  split_ifs at isDigit <;> omega

theorem hexOctet_lt {high low : ℕ} (isOctet : hexOctet high low = some octet) :
    high < 128 ∧ low < 128 := by
  rcases Option.bind_eq_some_iff.mp isOctet with ⟨first, isFirst, isRest⟩
  rcases Option.map_eq_some_iff.mp isRest with ⟨second, isSecond, -⟩
  exact ⟨hexValue_lt isFirst, hexValue_lt isSecond⟩

theorem percentDecode_cons_of_ne {byte : UInt8} (other : byte ≠ 37) (rest : List UInt8) :
    percentDecode (byte :: rest) = byte :: percentDecode rest := by
  cases rest with
  | nil => rfl
  | cons high rest =>
      cases rest with
      | nil => rfl
      | cons low rest => rw [percentDecode, if_neg other]

theorem percentDecode_append_of_not_mem {before : List UInt8} (free : (37 : UInt8) ∉ before)
    (bytes : List UInt8) : percentDecode (before ++ bytes) = before ++ percentDecode bytes := by
  induction before with
  | nil => rfl
  | cons byte before ih =>
      have other : byte ≠ 37 := fun same => free (same ▸ List.mem_cons_self)
      rw [List.cons_append, percentDecode_cons_of_ne other,
        ih fun member => free (List.mem_cons_of_mem _ member), List.cons_append]

theorem percentDecode_readOctet (isRead : readOctet text = some (octet, rest)) :
    percentDecode (text.flatMap String.utf8EncodeChar) =
      octet :: percentDecode (rest.flatMap String.utf8EncodeChar) := by
  rcases readOctet_eq_some isRead with ⟨high, low, rfl, isOctet⟩
  rcases hexOctet_lt isOctet with ⟨highSmall, lowSmall⟩
  have code (value : ℕ) (small : value < 128) : (UInt8.ofNat value).toNat = value := by
    simp only [UInt8.toNat_ofNat']
    omega
  simp only [List.flatMap_cons, (marksOnly_ascii highSmall).encode_separator,
    (marksOnly_ascii lowSmall).encode_separator,
    (@marksOnly_ascii '%' (by decide)).encode_separator, List.singleton_append]
  rw [percentDecode, if_pos (by decide), code _ highSmall, code _ lowSmall, isOctet]

theorem percentDecode_readOctets {octets : List UInt8}
    (isRead : readOctets count text = some (octets, rest)) :
    percentDecode (text.flatMap String.utf8EncodeChar) =
      octets ++ percentDecode (rest.flatMap String.utf8EncodeChar) := by
  induction count generalizing text octets with
  | zero =>
      rcases Option.some.inj isRead
      rfl
  | succ count ih =>
      rcases Option.bind_eq_some_iff.mp isRead with ⟨⟨octet, after⟩, isOctet, isRest⟩
      rcases Option.map_eq_some_iff.mp isRest with ⟨⟨others, last⟩, isOthers, same⟩
      rcases Prod.mk.inj same with ⟨rfl, rfl⟩
      rw [percentDecode_readOctet isOctet, ih isOthers, List.cons_append]

theorem percentDecode_of_decodeURIComponent {decoded : String}
    (isDecoded : decodeURIComponent text = some decoded) :
    percentDecode (text.flatMap String.utf8EncodeChar) = utf8Bytes decoded := by
  induction text using decodeURIComponent.induct generalizing decoded with
  | case1 =>
      rw [decodeURIComponent] at isDecoded
      rcases Option.some.inj isDecoded
      rfl
  | case2 text head rest isRead ih =>
      rw [decodeURIComponent, if_pos rfl] at isDecoded
      split at isDecoded
      · rename_i otherHead otherRest isOther
        rcases Prod.mk.inj (Option.some.inj (isRead.symm.trans isOther)) with ⟨rfl, rfl⟩
        rcases Option.map_eq_some_iff.mp isDecoded with ⟨remaining, isRemaining, rfl⟩
        rcases readSequence_eq_some isRead with ⟨count, -, areOctets⟩
        rw [percentDecode_readOctets areOctets, ih isRemaining, utf8Bytes_append]
      · cases isDecoded
  | case3 text isRead =>
      rw [decodeURIComponent, if_pos rfl] at isDecoded
      split at isDecoded
      · rename_i isOther
        cases isRead.symm.trans isOther
      · cases isDecoded
  | case4 char text other ih =>
      rw [decodeURIComponent, if_neg other] at isDecoded
      rcases Option.map_eq_some_iff.mp isDecoded with ⟨remaining, isRemaining, rfl⟩
      have free : (37 : UInt8) ∉ String.utf8EncodeChar char :=
        (@marksOnly_ascii '%' (by decide)).not_mem_encode char other
      rw [List.flatMap_cons, percentDecode_append_of_not_mem free, ih isRemaining,
        utf8Bytes_append, utf8Bytes_singleton]

end ServerFoundation
