import Mathlib.Algebra.GroupWithZero.Nat
import Mathlib.Tactic.Common
import ServerFoundation.Data.JsText

/-!
# UTF-8

Bytes are decoded with replacement: what cannot be a character shows as one replacement
character, and so does a character whose last bytes are missing.
-/

namespace ServerFoundation.Utf8

/-- The replacement character. -/
def replacement : Char := Char.ofNat 0xFFFD

/-- The bytes of a text. -/
def encode (text : List Char) : List UInt8 := text.flatMap String.utf8EncodeChar

/-- What has been read of a character: its bits, the missing bytes, and the bounds of the next one.
-/
structure Decoder where
  codePoint : ℕ
  missing : ℕ
  lower : ℕ
  upper : ℕ

namespace Decoder

/-- Between two characters. -/
def between : Decoder := ⟨0, 0, 0x80, 0xBF⟩

/-- The first byte of a character. -/
def lead (byte : ℕ) : List Char × Decoder :=
  if byte < 0x80 then ([Char.ofNat byte], between)
  else if 0xC2 ≤ byte ∧ byte ≤ 0xDF then ([], ⟨byte - 0xC0, 1, 0x80, 0xBF⟩)
  else if 0xE0 ≤ byte ∧ byte ≤ 0xEF then
    ([], ⟨byte - 0xE0, 2, if byte = 0xE0 then 0xA0 else 0x80, if byte = 0xED then 0x9F else 0xBF⟩)
  else if 0xF0 ≤ byte ∧ byte ≤ 0xF4 then
    ([], ⟨byte - 0xF0, 3, if byte = 0xF0 then 0x90 else 0x80, if byte = 0xF4 then 0x8F else 0xBF⟩)
  else ([replacement], between)

/-- One byte. One that does not go on with the character is the first of another. -/
def step (decoder : Decoder) (byte : ℕ) : List Char × Decoder :=
  if decoder.missing = 0 then lead byte
  else if byte < decoder.lower ∨ decoder.upper < byte then
    (replacement :: (lead byte).1, (lead byte).2)
  else if decoder.missing = 1 then
    ([Char.ofNat (decoder.codePoint * 64 + byte % 64)], between)
  else ([], ⟨decoder.codePoint * 64 + byte % 64, decoder.missing - 1, 0x80, 0xBF⟩)

/-- The characters that a decoder reads. -/
@[grind =]
def run (decoder : Decoder) : List UInt8 → List Char
  | [] => if decoder.missing = 0 then [] else [replacement]
  | byte :: rest => (decoder.step byte.toNat).1 ++ run (decoder.step byte.toNat).2 rest

/-- The bytes that complete a character. -/
inductive Completes (char : Char) : Decoder → List UInt8 → Prop
  | last {decoder : Decoder} {byte : UInt8} (isLast : decoder.step byte.toNat = ([char], between)) :
      Completes char decoder [byte]
  | more {decoder next : Decoder} {byte : UInt8} {bytes : List UInt8}
      (isNext : decoder.step byte.toNat = ([], next)) (unfinished : next.missing ≠ 0)
      (rest : Completes char next bytes) : Completes char decoder (byte :: bytes)

variable {char : Char} {decoder : Decoder} {bytes : List UInt8}

theorem Completes.run_append (completes : Completes char decoder bytes) (rest : List UInt8) :
    decoder.run (bytes ++ rest) = char :: between.run rest := by
  induction completes with
  | last isLast => rw [List.singleton_append, run, isLast, List.singleton_append]
  | more isNext unfinished _ ih => rw [List.cons_append, run, isNext, List.nil_append, ih]

theorem Completes.run_take (completes : Completes char decoder bytes)
    (unfinished : decoder.missing ≠ 0) {count : ℕ} (short : count < bytes.length) :
    decoder.run (bytes.take count) = [replacement] := by
  induction completes generalizing count with
  | last isLast =>
      rw [List.length_singleton] at short
      rw [Nat.lt_one_iff.mp short, List.take_zero, run, if_neg unfinished]
  | more isNext nextUnfinished _ ih =>
      cases count with
      | zero => rw [List.take_zero, run, if_neg unfinished]
      | succ count =>
          rw [List.take_succ_cons, run, isNext, List.nil_append]
          exact ih nextUnfinished (by simpa using short)

theorem Completes.run_take_of_between (completes : Completes char between bytes) {count : ℕ}
    (some : 0 < count) (short : count < bytes.length) :
    between.run (bytes.take count) = [replacement] := by
  cases completes with
  | last isLast =>
      rw [List.length_singleton] at short
      omega
  | more isNext unfinished rest =>
      cases count with
      | zero => omega
      | succ count =>
          rw [List.take_succ_cons, run, isNext, List.nil_append]
          exact rest.run_take unfinished (by simpa using short)

theorem step_between (byte : ℕ) : between.step byte = lead byte := by
  have isBetween : between.missing = 0 := rfl
  rw [step, if_pos isBetween]

theorem step_last {codePoint lower upper byte : ℕ} (low : lower ≤ byte) (high : byte ≤ upper) :
    step ⟨codePoint, 1, lower, upper⟩ byte =
      ([Char.ofNat (codePoint * 64 + byte % 64)], between) := by
  rw [step, if_neg (by simp), if_neg (by simp only; omega), if_pos rfl]

theorem step_more {codePoint missing lower upper byte : ℕ} (low : lower ≤ byte)
    (high : byte ≤ upper) :
    step ⟨codePoint, missing + 2, lower, upper⟩ byte =
      ([], ⟨codePoint * 64 + byte % 64, missing + 1, 0x80, 0xBF⟩) := by
  rw [step, if_neg (by simp), if_neg (by simp only; omega), if_neg (by simp), Nat.add_sub_assoc (by
    omega)]

end Decoder

namespace Decoder

theorem lead_two {bits : ℕ} (low : 2 ≤ bits) (high : bits < 32) :
    lead (bits + 0xC0) = ([], ⟨bits, 1, 0x80, 0xBF⟩) := by
  rw [lead, if_neg (by omega), if_pos (by omega), Nat.add_sub_cancel]

theorem lead_three {bits : ℕ} (high : bits < 16) :
    lead (bits + 0xE0) =
      ([], ⟨bits, 2, if bits = 0 then 0xA0 else 0x80, if bits = 13 then 0x9F else 0xBF⟩) := by
  have first : bits + 0xE0 = 0xE0 ↔ bits = 0 := by omega
  have last : bits + 0xE0 = 0xED ↔ bits = 13 := by omega
  rw [lead, if_neg (by omega), if_neg (by omega), if_pos (by omega), Nat.add_sub_cancel]
  simp only [first, last]

theorem lead_four {bits : ℕ} (high : bits < 5) :
    lead (bits + 0xF0) =
      ([], ⟨bits, 3, if bits = 0 then 0x90 else 0x80, if bits = 4 then 0x8F else 0xBF⟩) := by
  have first : bits + 0xF0 = 0xF0 ↔ bits = 0 := by omega
  have last : bits + 0xF0 = 0xF4 ↔ bits = 4 := by omega
  rw [lead, if_neg (by omega), if_neg (by omega), if_neg (by omega), if_pos (by omega),
    Nat.add_sub_cancel]
  simp only [first, last]

theorem step_toNat {decoder : Decoder} {byte : ℕ} (small : byte < 256) :
    decoder.step (UInt8.ofNat byte).toNat = decoder.step byte := by
  rw [UInt8.toNat_ofNat_of_lt' small]

theorem completes_utf8EncodeChar (char : Char) :
    Completes char between (String.utf8EncodeChar char) := by
  have valid := JsText.char_toNat_cases char
  have same := Char.ofNat_toNat char
  have isCode : char.val.toNat = char.toNat := rfl
  dsimp only [String.utf8EncodeChar]
  rw [isCode]
  generalize char.toNat = code at valid same ⊢
  split_ifs with one two three
  · refine .last ?_
    rw [step_toNat (by omega), step_between, lead, if_pos (by omega), same]
  · refine .more (by rw [step_toNat (by omega), step_between, lead_two (by omega) (by omega)])
      (by simp) (.last ?_)
    have whole : code / 64 % 32 * 64 + (code % 64 + 128) % 64 = code := by omega
    rw [step_toNat (by omega), step_last (by omega) (by omega), whole, same]
  · refine .more (by rw [step_toNat (by omega), step_between, lead_three (by omega)]) (by simp)
      (.more (by rw [step_toNat (by omega), step_more (by split_ifs <;> omega)
        (by split_ifs <;> omega)]) (by simp) (.last ?_))
    have whole : (code / 4096 % 16 * 64 + (code / 64 % 64 + 128) % 64) * 64 +
        (code % 64 + 128) % 64 = code := by omega
    rw [step_toNat (by omega), step_last (by omega) (by omega), whole, same]
  · refine .more (by rw [step_toNat (by omega), step_between, lead_four (by omega)]) (by simp)
      (.more (by rw [step_toNat (by omega), step_more (by split_ifs <;> omega)
        (by split_ifs <;> omega)]) (by simp)
      (.more (by rw [step_toNat (by omega), step_more (by omega) (by omega)]) (by simp)
        (.last ?_)))
    have whole : ((code / 262144 % 8 * 64 + (code / 4096 % 64 + 128) % 64) * 64 +
        (code / 64 % 64 + 128) % 64) * 64 + (code % 64 + 128) % 64 = code := by omega
    rw [step_toNat (by omega), step_last (by omega) (by omega), whole, same]

end Decoder

/-- The text of bytes. -/
def decode (bytes : List UInt8) : List Char := Decoder.between.run bytes

theorem encode_cons (char : Char) (text : List Char) :
    encode (char :: text) = String.utf8EncodeChar char ++ encode text :=
  List.flatMap_cons

theorem length_encode (text : List Char) :
    (encode text).length = (text.map Char.utf8Size).sum := by
  rw [encode, List.length_flatMap]
  simp only [String.length_utf8EncodeChar]

theorem decode_encode_append (text : List Char) (rest : List UInt8) :
    decode (encode text ++ rest) = text ++ decode rest := by
  induction text with
  | nil => rfl
  | cons char text ih =>
      rw [encode_cons, List.append_assoc, decode,
        (Decoder.completes_utf8EncodeChar char).run_append]
      exact congrArg (char :: ·) ih

theorem encode_append (left right : List Char) :
    encode (left ++ right) = encode left ++ encode right :=
  List.flatMap_append

theorem decode_take {kept rest : List Char} {char : Char} {count : ℕ}
    (low : (encode kept).length ≤ count)
    (high : count < (encode kept).length + char.utf8Size) :
    decode ((encode (kept ++ char :: rest)).take count) =
      kept ++ if count = (encode kept).length then [] else [replacement] := by
  have room : count - (encode kept).length < (String.utf8EncodeChar char).length := by
    rw [String.length_utf8EncodeChar]
    omega
  rw [encode_append, List.take_append, List.take_of_length_le low, decode_encode_append,
    encode_cons, List.take_append_of_le_length (Nat.le_of_lt room)]
  congr 1
  split_ifs with exact
  · rw [exact, Nat.sub_self, List.take_zero]
    rfl
  · exact (Decoder.completes_utf8EncodeChar char).run_take_of_between (by omega) room

end ServerFoundation.Utf8
