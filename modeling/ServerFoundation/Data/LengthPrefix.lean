import Mathlib.Data.Nat.Digits.Defs
import ServerFoundation.Data.PrefixCode
import ServerFoundation.Data.SeparatedText

/-!
# Length-prefixed texts

A text behind its length in bytes and a colon. The length says where the text ends,
whatever the text contains, so a row of such texts can be read back one by one.
-/

namespace ServerFoundation

/-- The bytes of a text. -/
def utf8Bytes (text : String) : List UInt8 := text.toByteArray.data.toList

theorem utf8Bytes_append (left right : String) :
    utf8Bytes (left ++ right) = utf8Bytes left ++ utf8Bytes right := by
  simp [utf8Bytes, String.toByteArray_append, ByteArray.data_append]

theorem utf8Bytes_injective : Function.Injective utf8Bytes := by
  intro left right same
  apply String.toByteArray_inj.mp
  apply ByteArray.ext
  exact Array.toList_inj.mp same

theorem length_utf8Bytes (text : String) : (utf8Bytes text).length = text.utf8ByteSize := rfl

theorem utf8Bytes_join (parts : List String) :
    utf8Bytes (String.join parts) = parts.flatMap utf8Bytes := by
  induction parts with
  | nil => rfl
  | cons part parts ih => rw [String.join_cons, utf8Bytes_append, ih, List.flatMap_cons]

/-- The length of a text in bytes, a colon, and the text. -/
def lengthPrefixed (value : String) : String := Nat.repr value.utf8ByteSize ++ ":" ++ value

theorem toList_lengthPrefixed (value : String) :
    (lengthPrefixed value).toList =
      Nat.toDigits 10 value.utf8ByteSize ++ ':' :: value.toList := by
  simp [lengthPrefixed, String.toList_append, Nat.toList_repr]

theorem count_colon_toDigits (value : ℕ) : (Nat.toDigits 10 value).count ':' = 0 := by
  apply List.count_eq_zero_of_not_mem
  intro isDigit
  have digit := Nat.isDigit_of_mem_toDigits (by decide) (by decide) isDigit
  exact absurd digit (by decide)

theorem eq_of_append_of_utf8ByteSize {left right : String} {leftRest rightRest : List Char}
    (sameSize : left.utf8ByteSize = right.utf8ByteSize)
    (same : left.toList ++ leftRest = right.toList ++ rightRest) : left = right := by
  have longer {short long : String} {more : List Char}
      (sameSize : short.utf8ByteSize = long.utf8ByteSize)
      (isLonger : long.toList = short.toList ++ more) : short = long := by
    have whole : long = short ++ String.ofList more := by
      apply String.toList_inj.mp
      rw [String.toList_append, String.toList_ofList, isLonger]
    rw [whole, String.utf8ByteSize_append] at sameSize
    have empty : String.ofList more = "" := String.utf8ByteSize_eq_zero_iff.mp (by omega)
    rw [whole, empty, String.append_empty]
  rcases List.append_eq_append_iff.mp same with ⟨more, isMore, -⟩ | ⟨more, isMore, -⟩
  · exact longer sameSize isMore
  · exact (longer sameSize.symm isMore).symm

theorem lengthPrefixed_prefixCode : PrefixCode fun value => (lengthPrefixed value).toList := by
  intro left right leftRest rightRest same
  simp only [toList_lengthPrefixed, List.append_assoc, List.cons_append] at same
  rcases append_separator_inj same (by rw [count_colon_toDigits, count_colon_toDigits]) with
    ⟨digits, texts⟩
  have sameSize : left.utf8ByteSize = right.utf8ByteSize := by
    rw [← Nat.ofDigitChars_ten_toDigits (n := left.utf8ByteSize), digits,
      Nat.ofDigitChars_ten_toDigits]
  have sameText := eq_of_append_of_utf8ByteSize sameSize texts
  subst sameText
  exact ⟨rfl, List.append_cancel_left texts⟩

end ServerFoundation
