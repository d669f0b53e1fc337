import ServerFoundation.Data.OptionRel
import ServerFoundation.Data.PercentEncoding
import ServerFoundation.Http.RouteMatching
import ServerFoundation.MeshLink.Frames

/-!
# Redaction of query strings

`redactQuery` decodes the key of every pair on its own, more strictly than the parser that serves
the request: a key that it cannot decode makes it give up the whole query. Every key that it does
decode, the parser decodes to the same text, so no value of a matching key is left behind.
-/

namespace ServerFoundation.QueryRedaction

open Http MeshLink

/-- What stands for a redacted value. -/
def redactedQueryValue : String := "REDACTED"

/-- Default parameter names whose values are redacted. -/
def defaultRedactedQueryKeys : List String :=
  ["q", "query", "search", "text", "phone", "phones", "phoneNumber", "phoneNumbers", "email",
    "name", "token", "code", "state", "password", "jwt", "accessToken", "idToken", "refreshToken",
    "apiKey", "secret", "signature", "sig"]

/-- `QueryKeyMatcher`. -/
structure QueryKeyMatcher where
  isMatch : String → Bool
  /-- True when the key list is empty. -/
  disabled : Bool

/-- `true` selects the default list; an array replaces it. -/
inductive RedactQueryKeys
  | flag (enabled : Bool)
  | names (keys : List String)

section Matcher

variable (toLowerCase : String → String)

/-- `normalizeQueryKey`. -/
def normalizeQueryKey (key : String) : String :=
  String.ofList ((toLowerCase key).toList.filter fun char => char ∉ ['_', '.', '-'])

/-- Builds a matcher for the given parameter names. -/
def createQueryKeyMatcher (keys : Option RedactQueryKeys) : QueryKeyMatcher :=
  let selected := match keys with
    | some (.flag true) => defaultRedactedQueryKeys
    | some (.names names) => names
    | some (.flag false) | none => []
  let normalized := selected.map (normalizeQueryKey toLowerCase)
  { isMatch := fun key =>
      let segments := key.toList.splitOnP fun char => char ∈ ['[', ']']
      (segments.filter (· ≠ [])).any fun segment =>
        normalizeQueryKey toLowerCase (String.ofList segment) ∈ normalized
    disabled := normalized.isEmpty }

end Matcher

/-- `decodeQueryComponent`. -/
def decodeQueryComponent (value : List Char) : Option String :=
  decodeURIComponent (value.map fun char => if char = '+' then ' ' else char)

section Redaction

variable (matcher : QueryKeyMatcher)

/-- One pair of a query, redacted. -/
def redactPair (pair : List Char) : Option (List Char) :=
  if pair = [] then some pair
  else
    let rawKey := pair.takeWhile (· ≠ '=')
    (decodeQueryComponent rawKey).map fun key =>
      if matcher.isMatch key = false then pair
      else if '=' ∉ pair then pair
      else rawKey ++ '=' :: redactedQueryValue.toList

/-- Redacts matched values in a raw query string, and fails if a key cannot be decoded. -/
def redactQueryString (query : String) : Option String :=
  ((query.toList.splitOn '&').mapM (redactPair matcher)).map fun pairs =>
    String.ofList (['&'].intercalate pairs)

/-- Redacts a bare query string, failing closed to `REDACTED`; unchanged when disabled. -/
def redactQuery (query : String) : String :=
  if matcher.disabled then query
  else (redactQueryString matcher query).getD redactedQueryValue

end Redaction

/-! ### The `application/x-www-form-urlencoded` parser -/

section Parser

variable (replaceInvalid : List UInt8 → String)

/-- The text of a name or a value in a form. -/
def formText (bytes : List UInt8) : String :=
  utf8Text replaceInvalid (percentDecode (bytes.map fun byte => if byte = 43 then 32 else byte))

/-- The name and the value of a sequence. -/
def formEntry (sequence : List UInt8) : String × String :=
  (formText replaceInvalid (sequence.takeWhile (· ≠ 61)),
    formText replaceInvalid ((sequence.dropWhile (· ≠ 61)).drop 1))

/-- The parts between two ampersands. -/
def formSequences (query : String) : List (List UInt8) := (utf8Bytes query).splitOn 38

/-- The entry list of a query. -/
def formEntries (query : String) : List (String × String) :=
  ((formSequences query).filter (· ≠ [])).map (formEntry replaceInvalid)

variable (matcher : QueryKeyMatcher)

/-- A sequence whose decoded key matches. -/
def IsMatched (sequence : List UInt8) : Prop :=
  matcher.isMatch (formEntry replaceInvalid sequence).1 = true

instance (sequence : List UInt8) : Decidable (IsMatched replaceInvalid matcher sequence) :=
  inferInstanceAs (Decidable (_ = true))

/-- The entry of a sequence, with the value of a matching key replaced. -/
def redactedEntry (sequence : List UInt8) : String × String :=
  if IsMatched replaceInvalid matcher sequence then
    ((formEntry replaceInvalid sequence).1, if 61 ∈ sequence then redactedQueryValue else "")
  else formEntry replaceInvalid sequence

/-- The entries of the query with the matching values replaced, and otherwise its pairs. -/
structure AgreesWithParser (query output : String) : Prop where
  entries : formEntries replaceInvalid output =
    ((formSequences query).filter (· ≠ [])).map (redactedEntry replaceInvalid matcher)
  others : List.Forall₂ (fun before after =>
    before = [] ∨ ¬IsMatched replaceInvalid matcher before → after = before)
    (formSequences query) (formSequences output)

/-- Two queries that differ only in values of matching keys. -/
def DifferInMatchedValues (left right : String) : Prop :=
  List.Forall₂ (fun first second => first = second ∨
    (61 ∈ first ∧ 61 ∈ second ∧ first.takeWhile (· ≠ 61) = second.takeWhile (· ≠ 61) ∧
      IsMatched replaceInvalid matcher first)) (formSequences left) (formSequences right)

end Parser

section Agreement

variable {replaceInvalid : List UInt8 → String} {matcher : QueryKeyMatcher} {pair after : List Char}

theorem ampersand_marks : MarksOnly String.utf8EncodeChar '&' 38 := marksOnly_ascii (by decide)

theorem equals_marks : MarksOnly String.utf8EncodeChar '=' 61 := marksOnly_ascii (by decide)

theorem plus_marks : MarksOnly String.utf8EncodeChar '+' 43 := marksOnly_ascii (by decide)

theorem formSequences_eq (query : String) :
    formSequences query = (query.toList.splitOn '&').map (·.flatMap String.utf8EncodeChar) := by
  rw [formSequences, ← ampersand_marks.splitOn_flatMap, ← utf8Bytes_ofList, String.ofList_toList]

theorem map_plus_flatMap (text : List Char) :
    (text.flatMap String.utf8EncodeChar).map (fun byte => if byte = 43 then 32 else byte) =
      (text.map fun char => if char = '+' then ' ' else char).flatMap String.utf8EncodeChar := by
  induction text with
  | nil => rfl
  | cons char text ih =>
      rw [List.flatMap_cons, List.map_append, ih, List.map_cons, List.flatMap_cons]
      congr 1
      by_cases isPlus : char = '+'
      · subst isPlus
        decide
      · rw [if_neg isPlus]
        apply List.map_congr_left _ |>.trans (List.map_id _)
        intro byte member
        apply if_neg
        rintro rfl
        exact plus_marks.not_mem_encode char isPlus member

theorem formText_of_decodeQueryComponent {text : List Char} {decoded : String}
    (isDecoded : decodeQueryComponent text = some decoded) :
    formText replaceInvalid (text.flatMap String.utf8EncodeChar) = decoded := by
  rw [formText, map_plus_flatMap, percentDecode_of_decodeURIComponent isDecoded,
    utf8Text_utf8Bytes]

theorem formText_redactedQueryValue :
    formText replaceInvalid (utf8Bytes redactedQueryValue) = redactedQueryValue := by
  have plain : percentDecode ((utf8Bytes redactedQueryValue).map
      fun byte => if byte = 43 then 32 else byte) = utf8Bytes redactedQueryValue := by
    decide +kernel
  rw [formText, plain, utf8Text_utf8Bytes]

theorem formText_nil : formText replaceInvalid [] = "" :=
  utf8Text_utf8Bytes replaceInvalid ""

theorem formEntry_fst (pair : List Char) :
    (formEntry replaceInvalid (pair.flatMap String.utf8EncodeChar)).1 =
      formText replaceInvalid
        ((pair.takeWhile (· ≠ '=')).flatMap String.utf8EncodeChar) := by
  rw [formEntry, equals_marks.takeWhile_flatMap]

theorem formEntry_fst_of_decode {key : String}
    (isDecoded : decodeQueryComponent (pair.takeWhile (· ≠ '=')) = some key) :
    (formEntry replaceInvalid (pair.flatMap String.utf8EncodeChar)).1 = key := by
  rw [formEntry_fst, formText_of_decodeQueryComponent isDecoded]

theorem formEntry_assignment {rawKey : List Char} (free : '=' ∉ rawKey) (value : List Char) :
    formEntry replaceInvalid ((rawKey ++ '=' :: value).flatMap String.utf8EncodeChar) =
      (formText replaceInvalid (rawKey.flatMap String.utf8EncodeChar),
        formText replaceInvalid (value.flatMap String.utf8EncodeChar)) := by
  have keyFree : ∀ byte ∈ rawKey.flatMap String.utf8EncodeChar, decide (byte ≠ 61) = true := by
    intro byte member
    apply decide_eq_true
    rintro rfl
    exact free ((equals_marks.mem_flatMap_iff rawKey).mp member)
  rw [List.flatMap_append, List.flatMap_cons, equals_marks.encode_separator, formEntry,
    List.takeWhile_append_of_pos keyFree, List.dropWhile_append_of_pos keyFree]
  simp

theorem formEntry_snd_of_not_mem {sequence : List UInt8} (free : 61 ∉ sequence) :
    (formEntry replaceInvalid sequence).2 = "" := by
  have none : sequence.dropWhile (· ≠ 61) = [] := by
    rw [List.dropWhile_eq_nil_iff]
    intro byte member
    apply decide_eq_true
    rintro rfl
    exact free member
  rw [formEntry, none, List.drop_nil, formText_nil]

theorem not_mem_takeWhile_ne (pair : List Char) (char : Char) :
    char ∉ pair.takeWhile (· ≠ char) := by
  intro member
  have other := List.mem_takeWhile_imp member
  simp at other

theorem redactPair_eq_some (replaceInvalid : List UInt8 → String)
    (isRedacted : redactPair matcher pair = some after) (nonempty : pair ≠ []) :
    (¬IsMatched replaceInvalid matcher (pair.flatMap String.utf8EncodeChar) ∧ after = pair) ∨
      (IsMatched replaceInvalid matcher (pair.flatMap String.utf8EncodeChar) ∧
        '=' ∉ pair ∧ after = pair) ∨
      (IsMatched replaceInvalid matcher (pair.flatMap String.utf8EncodeChar) ∧ '=' ∈ pair ∧
        after = pair.takeWhile (· ≠ '=') ++ '=' :: redactedQueryValue.toList) := by
  rw [redactPair, if_neg nonempty] at isRedacted
  rcases Option.map_eq_some_iff.mp isRedacted with ⟨key, isDecoded, rfl⟩
  unfold IsMatched
  rw [formEntry_fst_of_decode isDecoded]
  split_ifs with other value
  · exact .inl ⟨by simp [other], rfl⟩
  · exact .inr (.inr ⟨by simpa using other, value, rfl⟩)
  · exact .inr (.inl ⟨by simpa using other, value, rfl⟩)

section

variable (isRedacted : redactPair matcher pair = some after)
include isRedacted

theorem redactPair_not_mem (free : '&' ∉ pair) : '&' ∉ after := by
  by_cases nonempty : pair = []
  · subst nonempty
    rcases Option.some.inj isRedacted
    exact free
  · rcases redactPair_eq_some (fun _ => "") isRedacted nonempty with
      ⟨-, rfl⟩ | ⟨-, -, rfl⟩ | ⟨-, -, rfl⟩
    · exact free
    · exact free
    · rw [List.mem_append]
      rintro (inKey | inValue)
      · exact free ((List.takeWhile_sublist _).subset inKey)
      · revert inValue
        decide

theorem redactPair_eq_nil_iff : after = [] ↔ pair = [] := by
  by_cases nonempty : pair = []
  · subst nonempty
    rcases Option.some.inj isRedacted
    rfl
  · rcases redactPair_eq_some (fun _ => "") isRedacted nonempty with
      ⟨-, rfl⟩ | ⟨-, -, rfl⟩ | ⟨-, -, rfl⟩
    · rfl
    · rfl
    · simp [nonempty]

theorem formEntry_redactPair (nonempty : pair ≠ []) :
    formEntry replaceInvalid (after.flatMap String.utf8EncodeChar) =
      redactedEntry replaceInvalid matcher (pair.flatMap String.utf8EncodeChar) := by
  unfold redactedEntry
  rcases redactPair_eq_some replaceInvalid isRedacted nonempty with
    ⟨other, rfl⟩ | ⟨isMatched, noValue, rfl⟩ | ⟨isMatched, value, rfl⟩
  · rw [if_neg other]
  · have free : (61 : UInt8) ∉ after.flatMap String.utf8EncodeChar :=
      mt (equals_marks.mem_flatMap_iff after).mp noValue
    rw [if_pos isMatched, if_neg free, ← formEntry_snd_of_not_mem free]
  · have isPresent : (61 : UInt8) ∈ pair.flatMap String.utf8EncodeChar :=
      (equals_marks.mem_flatMap_iff pair).mpr value
    rw [if_pos isMatched, if_pos isPresent, formEntry_assignment (not_mem_takeWhile_ne pair '='),
      ← formEntry_fst, ← utf8Bytes_ofList redactedQueryValue.toList, String.ofList_toList,
      formText_redactedQueryValue]

theorem redactPair_unmatched (unmatched : pair.flatMap String.utf8EncodeChar = [] ∨
      ¬IsMatched replaceInvalid matcher (pair.flatMap String.utf8EncodeChar)) : after = pair := by
  by_cases nonempty : pair = []
  · subst nonempty
    exact (Option.some.inj isRedacted).symm
  · rcases redactPair_eq_some replaceInvalid isRedacted nonempty with
      ⟨-, same⟩ | ⟨-, -, same⟩ | ⟨isMatched, value, -⟩
    · exact same
    · exact same
    · rcases unmatched with empty | other
      · have isPresent := (equals_marks.mem_flatMap_iff pair).mpr value
        rw [empty] at isPresent
        cases isPresent
      · exact absurd isMatched other

end

theorem flatMap_encode_ne_nil_iff (pair : List Char) :
    pair.flatMap String.utf8EncodeChar ≠ [] ↔ pair ≠ [] := by
  cases pair with
  | nil => simp
  | cons char pair => simp [String.utf8EncodeChar_ne_nil]

theorem formSequences_of_redacted {pairs after : List (List Char)} (nonempty : pairs ≠ [])
    (free : ∀ pair ∈ pairs, '&' ∉ pair)
    (redacted : List.Forall₂ (fun before after => redactPair matcher before = some after)
      pairs after) :
    formSequences (String.ofList (['&'].intercalate after)) =
      after.map (·.flatMap String.utf8EncodeChar) := by
  have afterFree : ∀ pair ∈ after, '&' ∉ pair := by
    intro pair member
    rcases List.mem_iff_get.mp member with ⟨index, rfl⟩
    have inPairs : index.val < pairs.length := by
      rw [redacted.length_eq]
      exact index.isLt
    exact redactPair_not_mem (redacted.get inPairs index.isLt) (free _ (List.get_mem _ _))
  have afterNonempty : after ≠ [] := by
    rintro rfl
    cases redacted
    exact nonempty rfl
  rw [formSequences_eq, String.toList_ofList, List.splitOn_intercalate '&' afterFree afterNonempty]

theorem entries_of_redacted {pairs after : List (List Char)}
    (redacted : List.Forall₂ (fun before after => redactPair matcher before = some after)
      pairs after) :
    ((after.map (·.flatMap String.utf8EncodeChar)).filter (· ≠ [])).map
        (formEntry replaceInvalid) =
      ((pairs.map (·.flatMap String.utf8EncodeChar)).filter (· ≠ [])).map
        (redactedEntry replaceInvalid matcher) := by
  induction redacted with
  | nil => rfl
  | @cons pair result pairs results isRedacted _ ih =>
      by_cases empty : pair = []
      · have resultEmpty := (redactPair_eq_nil_iff isRedacted).mpr empty
        simpa [empty, resultEmpty] using ih
      · have resultNonempty := mt (redactPair_eq_nil_iff isRedacted).mp empty
        rw [List.map_cons, List.map_cons, List.filter_cons_of_pos, List.filter_cons_of_pos,
          List.map_cons, List.map_cons, ih, formEntry_redactPair isRedacted empty]
        · exact decide_eq_true ((flatMap_encode_ne_nil_iff pair).mpr empty)
        · exact decide_eq_true ((flatMap_encode_ne_nil_iff result).mpr resultNonempty)

theorem redactQueryString_agrees {query output : String}
    (isRedacted : redactQueryString matcher query = some output) :
    AgreesWithParser replaceInvalid matcher query output := by
  rcases Option.map_eq_some_iff.mp isRedacted with ⟨after, each, rfl⟩
  have redacted := forall₂_of_mapM each
  have sequences := formSequences_of_redacted (List.splitOn_ne_nil '&' query.toList)
    (fun pair member => not_mem_of_mem_splitOn member) redacted
  refine ⟨?_, ?_⟩
  · rw [formEntries, sequences, formSequences_eq, entries_of_redacted redacted]
  · rw [sequences, formSequences_eq, List.forall₂_map_left_iff, List.forall₂_map_right_iff]
    refine redacted.imp fun pair result isResult unmatched => ?_
    rw [redactPair_unmatched isResult unmatched]

theorem flatMap_encode_injective {left right : List Char}
    (same : left.flatMap String.utf8EncodeChar = right.flatMap String.utf8EncodeChar) :
    left = right := by
  rw [← utf8Bytes_ofList, ← utf8Bytes_ofList] at same
  exact String.ofList_inj.mp (utf8Bytes_injective same)

theorem redactPair_eq_of_differ {left right : List Char} (leftValue : '=' ∈ left)
    (rightValue : '=' ∈ right) (sameKey : left.takeWhile (· ≠ '=') = right.takeWhile (· ≠ '='))
    (isMatched : IsMatched replaceInvalid matcher (left.flatMap String.utf8EncodeChar)) :
    redactPair matcher left = redactPair matcher right := by
  have leftNonempty := List.ne_nil_of_mem leftValue
  have rightNonempty := List.ne_nil_of_mem rightValue
  rw [redactPair, redactPair, if_neg leftNonempty, if_neg rightNonempty]
  simp only [← sameKey]
  rcases isDecoded : decodeQueryComponent (left.takeWhile (· ≠ '=')) with _ | key
  · rfl
  · rw [IsMatched, formEntry_fst_of_decode isDecoded] at isMatched
    simp [isMatched, leftValue, rightValue]

theorem redactQueryString_eq_of_differ {left right : String}
    (differ : DifferInMatchedValues replaceInvalid matcher left right) :
    redactQueryString matcher left = redactQueryString matcher right := by
  unfold DifferInMatchedValues at differ
  rw [formSequences_eq, formSequences_eq, List.forall₂_map_left_iff, List.forall₂_map_right_iff]
    at differ
  unfold redactQueryString
  congr 1
  generalize left.toList.splitOn '&' = lefts, right.toList.splitOn '&' = rights at differ
  induction differ with
  | nil => rfl
  | @cons first second _ _ same _ ih =>
      rw [List.mapM_cons, List.mapM_cons, ih]
      congr 1
      rcases same with same | ⟨firstValue, secondValue, sameKey, isMatched⟩
      · rw [flatMap_encode_injective same]
      · rw [equals_marks.takeWhile_flatMap, equals_marks.takeWhile_flatMap] at sameKey
        exact redactPair_eq_of_differ ((equals_marks.mem_flatMap_iff first).mp firstValue)
          ((equals_marks.mem_flatMap_iff second).mp secondValue)
          (flatMap_encode_injective sameKey) isMatched

/-- Redaction agrees with the parser on every query that it does not give up, and hides the
values of matching keys. -/
theorem redactQuery_agrees (enabled : matcher.disabled = false) :
    (∀ query, redactQuery matcher query = redactedQueryValue ∨
      AgreesWithParser replaceInvalid matcher query (redactQuery matcher query)) ∧
    ∀ left right, DifferInMatchedValues replaceInvalid matcher left right →
      redactQuery matcher left = redactQuery matcher right := by
  constructor
  · intro query
    rw [redactQuery, enabled]
    rcases isRedacted : redactQueryString matcher query with _ | output
    · exact .inl rfl
    · exact .inr (redactQueryString_agrees isRedacted)
  · intro left right differ
    rw [redactQuery, redactQuery, redactQueryString_eq_of_differ differ, enabled]
    rfl

/-- The default keys, and a key that is written with an escape. -/
theorem redactQuery_agrees_token :
    redactQuery (createQueryKeyMatcher String.toLower (some (.flag true))) "a=2&t%6Fken=1" =
      redactQuery (createQueryKeyMatcher String.toLower (some (.flag true))) "a=2&t%6Fken=3" := by
  refine (@redactQuery_agrees (fun _ => "") _ (by decide +kernel)).2 _ _ ?_
  have left : formSequences "a=2&t%6Fken=1" = ["a=2", "t%6Fken=1"].map utf8Bytes := by
    decide +kernel
  have right : formSequences "a=2&t%6Fken=3" = ["a=2", "t%6Fken=3"].map utf8Bytes := by
    decide +kernel
  unfold DifferInMatchedValues
  rw [left, right]
  exact .cons (.inl rfl) (.cons (.inr (by decide +kernel)) .nil)

end Agreement

end ServerFoundation.QueryRedaction
