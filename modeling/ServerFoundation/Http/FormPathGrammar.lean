import Mathlib.Data.List.Induction
import Mathlib.Data.List.TakeWhile
import Mathlib.Tactic.IntervalCases
import ServerFoundation.Http.FormPath

/-!
# The grammar of form field names

The scanner accepts exactly the names that are spelled by a root and a row of segments,
and the tokens it returns spell the name again. One path therefore has one name.
-/

namespace ServerFoundation.Http

/-- A segment in its brackets. -/
def bracketed (segment : List Char) : List Char := '[' :: segment ++ [']']

/-- How a token stands in its brackets. -/
def FormPathToken.segment : FormPathToken → List Char
  | .property name => name.toList
  | .index number => Nat.toDigits 10 number
  | .append => []

/-- The text of a path: its root, and every other token in brackets. -/
def printPath : List FormPathToken → List Char
  | [] => []
  | root :: tokens => root.segment ++ tokens.flatMap fun token => bracketed token.segment

/-- No bracket. -/
def IsPlain (segment : List Char) : Prop := '[' ∉ segment ∧ ']' ∉ segment

/-- A decimal number without leading zeros that is within the limit. -/
def IsIndex (limits : FormBodyLimits) (segment : List Char) : Prop :=
  ∃ index, segment = Nat.toDigits 10 index ∧ index ≤ 2 ^ 53 - 1 ∧ index ≤ limits.maxFormArrayIndex

/-- The name of a property that may be set. -/
def IsSafe (segment : List Char) : Prop := String.ofList segment ∉ unsafePropertyNames

/-- The root and the segments spell the name. -/
structure Spells (limits : FormBodyLimits) (name : String) (root : List Char)
    (segments : List (List Char)) : Prop where
  text : name.toList = root ++ segments.flatMap bracketed
  root_nonempty : root ≠ []
  root_plain : IsPlain root
  plain : ∀ segment ∈ segments, IsPlain segment
  terminal : ∀ segment ∈ segments.dropLast, segment ≠ []
  kinds : ∀ segment ∈ segments,
    segment = [] ∨ IsIndex limits segment ∨ IsSafe segment ∧ isNumericLikeProperty segment = false
  short : JsText.length name ≤ limits.maxFormFieldNameLength
  shallow : segments.length + 1 ≤ limits.maxFormDepth

section Digits

theorem isDigits_toDigits (index : ℕ) : isDigits (Nat.toDigits 10 index) = true := by
  have nonempty : Nat.toDigits 10 index ≠ [] := List.length_pos_iff.mp Nat.length_toDigits_pos
  have digits : (Nat.toDigits 10 index).all Char.isDigit = true := List.all_eq_true.mpr
    fun char member => Nat.isDigit_of_mem_toDigits (by decide) (by decide) member
  simp [isDigits, nonempty, digits]

theorem digitChar_of_isDigit {char : Char} (digit : char.isDigit = true) :
    char.toNat - '0'.toNat < 10 ∧ Nat.digitChar (char.toNat - '0'.toNat) = char := by
  have range : 48 ≤ char.toNat ∧ char.toNat ≤ 57 := by
    simp only [Char.isDigit, Bool.and_eq_true, decide_eq_true_eq, ge_iff_le] at digit
    exact digit
  have same : Char.ofNat char.toNat = char := Char.ofNat_toNat char
  rcases range with ⟨lower, upper⟩
  generalize char.toNat = code at *
  subst same
  interval_cases code <;> decide

theorem toDigits_ofDigitChars {first : Char} (firstDigit : first.isDigit = true)
    (notZero : first ≠ '0') {rest : List Char} (digits : rest.all Char.isDigit = true) :
    0 < Nat.ofDigitChars 10 (first :: rest) 0 ∧
      Nat.toDigits 10 (Nat.ofDigitChars 10 (first :: rest) 0) = first :: rest := by
  induction rest using List.reverseRecOn with
  | nil =>
      rcases digitChar_of_isDigit firstDigit with ⟨small, isFirst⟩
      have value : Nat.ofDigitChars 10 [first] 0 = first.toNat - '0'.toNat := by
        rw [Nat.ofDigitChars_cons, Nat.ofDigitChars_nil, Nat.mul_zero, Nat.zero_add]
      rw [value, Nat.toDigits_of_lt_base small, isFirst]
      refine ⟨Nat.pos_of_ne_zero fun zero => ?_, rfl⟩
      rw [zero] at isFirst
      exact notZero isFirst.symm
  | append_singleton rest last ih =>
      rw [List.all_append, Bool.and_eq_true] at digits
      rcases ih digits.1 with ⟨positive, text⟩
      have lastDigit : last.isDigit = true := by simpa using digits.2
      rcases digitChar_of_isDigit lastDigit with ⟨small, isLast⟩
      have value : Nat.ofDigitChars 10 (first :: (rest ++ [last])) 0 =
          10 * Nat.ofDigitChars 10 (first :: rest) 0 + (last.toNat - '0'.toNat) := by
        rw [← List.cons_append, Nat.ofDigitChars_append, Nat.ofDigitChars_cons,
          Nat.ofDigitChars_nil]
      rw [value, ← Nat.toDigits_append_toDigits (by decide) positive small, text,
        Nat.toDigits_of_lt_base small, isLast]
      exact ⟨by omega, rfl⟩

theorem toDigits_digitsNumber {segment : List Char}
    (canonical : isCanonicalArrayIndex segment = true) :
    Nat.toDigits 10 (digitsNumber segment) = segment := by
  cases segment with
  | nil => cases canonical
  | cons first rest =>
      simp only [isCanonicalArrayIndex] at canonical
      split at canonical
      · rename_i zero
        have alone : rest = [] := of_decide_eq_true canonical
        rw [zero, alone]
        rfl
      · rename_i notZero
        rw [Bool.and_eq_true] at canonical
        exact (toDigits_ofDigitChars canonical.1 notZero canonical.2).2

theorem toDigits_head_ne_zero {number : ℕ} (positive : 0 < number) {first : Char}
    {rest : List Char} (text : Nat.toDigits 10 number = first :: rest) : first ≠ '0' := by
  induction number using Nat.strongRecOn generalizing rest with
  | _ number ih =>
      by_cases small : number < 10
      · rw [Nat.toDigits_of_lt_base small] at text
        rcases List.cons.inj text with ⟨rfl, -⟩
        interval_cases number <;> decide
      · rw [Nat.toDigits_of_base_le (by decide) (by omega)] at text
        cases prior : Nat.toDigits 10 (number / 10) with
        | nil =>
            have nonempty := Nat.length_toDigits_pos (b := 10) (n := number / 10)
            rw [prior] at nonempty
            exact absurd nonempty (Nat.lt_irrefl 0)
        | cons earlier others =>
            rw [prior, List.cons_append] at text
            rcases List.cons.inj text with ⟨rfl, -⟩
            exact ih (number / 10) (by omega) (by omega) prior

theorem isCanonicalArrayIndex_toDigits (number : ℕ) :
    isCanonicalArrayIndex (Nat.toDigits 10 number) = true := by
  rcases Nat.eq_zero_or_pos number with rfl | positive
  · decide
  · have digits := isDigits_toDigits number
    cases text : Nat.toDigits 10 number with
    | nil =>
        rw [text] at digits
        cases digits
    | cons first rest =>
        have notZero := toDigits_head_ne_zero positive text
        rw [text, isDigits, Bool.and_eq_true, List.all_cons, Bool.and_eq_true] at digits
        simp [isCanonicalArrayIndex, notZero, digits.2.1, digits.2.2]

theorem digitsNumber_toDigits (number : ℕ) : digitsNumber (Nat.toDigits 10 number) = number :=
  Nat.ofDigitChars_ten_toDigits

end Digits

section Tokens

variable {limits : FormBodyLimits} {name : String} {segment : List Char} {token : FormPathToken}
  {tokens found : List FormPathToken}

/-- A token that a segment can stand for. -/
def FormPathToken.Allowed (limits : FormBodyLimits) : FormPathToken → Prop
  | .property name =>
      name.toList ≠ [] ∧ name ∉ unsafePropertyNames ∧ isNumericLikeProperty name.toList = false
  | .index number => number ≤ 2 ^ 53 - 1 ∧ number ≤ limits.maxFormArrayIndex
  | .append => True

theorem propertyToken_ok_iff :
    propertyToken name = .ok token ↔ name ∉ unsafePropertyNames ∧ token = .property name := by
  unfold propertyToken
  split
  · rename_i unsafeName
    exact iff_of_false nofun fun allowed => allowed.1 unsafeName
  · rename_i safe
    rw [Except.ok.injEq, eq_comm]
    exact (and_iff_right safe).symm

theorem isNumericLike_of_isDigits (digits : isDigits segment = true) :
    isNumericLikeProperty segment = true := by
  rw [isDigits, Bool.and_eq_true, decide_eq_true_eq, List.all_eq_true] at digits
  rcases digits with ⟨nonempty, all⟩
  have whole : segment.takeWhile Char.isDigit = segment := List.takeWhile_eq_self_iff.mpr all
  have nothing : segment.dropWhile Char.isDigit = [] := List.dropWhile_eq_nil_iff.mpr all
  unfold isNumericLikeProperty
  split
  · exact absurd (all '+' List.mem_cons_self) (by decide)
  · exact absurd (all '-' List.mem_cons_self) (by decide)
  · simp only
    rw [whole, nothing]
    simpa using nonempty

theorem parseBracketToken_ok_iff :
    parseBracketToken segment name limits = .ok token ↔
      token.segment = segment ∧ token.Allowed limits := by
  unfold parseBracketToken
  constructor
  · intro parsed
    split at parsed
    · rename_i isEmpty
      cases parsed
      exact ⟨isEmpty.symm, trivial⟩
    · rename_i nonempty
      split at parsed
      · split at parsed
        · cases parsed
        · rename_i canonical
          split at parsed
          · cases parsed
          · rename_i small
            cases parsed
            refine ⟨toDigits_digitsNumber (by simpa using canonical), ?_⟩
            unfold FormPathToken.Allowed
            omega
      · split at parsed
        · cases parsed
        · rename_i notNumeric
          rcases propertyToken_ok_iff.mp parsed with ⟨safe, rfl⟩
          refine ⟨String.toList_ofList, ?_, safe, ?_⟩
          · rwa [String.toList_ofList]
          · rw [String.toList_ofList]
            simpa using notNumeric
  · rintro ⟨isSegment, allowed⟩
    cases token with
    | append =>
        have text : [] = segment := isSegment
        subst text
        rfl
    | index number =>
        have text : Nat.toDigits 10 number = segment := isSegment
        subst text
        have digits := isDigits_toDigits number
        have nonempty : Nat.toDigits 10 number ≠ [] := by
          intro isEmpty
          rw [isEmpty] at digits
          cases digits
        rw [if_neg nonempty, if_pos digits,
          if_neg (not_not.mpr (isCanonicalArrayIndex_toDigits number)), digitsNumber_toDigits,
          if_neg (by unfold FormPathToken.Allowed at allowed; omega)]
    | property property =>
        have text : property.toList = segment := isSegment
        subst text
        rcases allowed with ⟨nonempty, safe, notNumeric⟩
        have notDigits : ¬isDigits property.toList = true := by
          intro digits
          rw [isNumericLike_of_isDigits digits] at notNumeric
          cases notNumeric
        rw [if_neg nonempty, if_neg notDigits, notNumeric, String.ofList_toList]
        exact propertyToken_ok_iff.mpr ⟨safe, rfl⟩

theorem head?_flatMap_bracketed (segments : List (List Char)) :
    (segments.flatMap bracketed).head?.any (· ≠ '[') = false := by
  cases segments with
  | nil => rfl
  | cons segment segments => rfl

theorem bracketed_append (segment rest : List Char) :
    bracketed segment ++ rest = '[' :: (segment ++ ']' :: rest) := by
  simp [bracketed]

theorem span_segment {rest : List Char} (plain : ']' ∉ segment) :
    (segment ++ ']' :: rest).takeWhile (· ≠ ']') = segment ∧
      (segment ++ ']' :: rest).dropWhile (· ≠ ']') = ']' :: rest := by
  have inSegment : ∀ char ∈ segment, decide (char ≠ ']') = true := by
    intro char member
    rw [decide_eq_true_eq]
    rintro rfl
    exact plain member
  constructor
  · rw [List.takeWhile_append_of_pos inSegment]
    simp
  · rw [List.dropWhile_append_of_pos inSegment]
    simp

theorem parseBrackets_ok_iff {turns : ℕ} {text : List Char} (enough : text.length ≤ turns)
    {tokens : List FormPathToken} :
    parseBrackets name limits turns text = .ok tokens ↔
      text = (tokens.map FormPathToken.segment).flatMap bracketed ∧
        ∀ token ∈ tokens, token.Allowed limits ∧ IsPlain token.segment := by
  induction turns generalizing text tokens with
  | zero =>
      have isEmpty : text = [] := List.length_eq_zero_iff.mp (by omega)
      subst isEmpty
      unfold parseBrackets
      cases tokens with
      | nil => exact iff_of_true rfl ⟨rfl, nofun⟩
      | cons token tokens => exact iff_of_false nofun nofun
  | succ turns ih =>
      cases text with
      | nil =>
          unfold parseBrackets
          cases tokens with
          | nil => exact iff_of_true rfl ⟨rfl, nofun⟩
          | cons token tokens => exact iff_of_false nofun nofun
      | cons opening rest =>
          rw [List.length_cons] at enough
          constructor
          · intro parsed
            unfold parseBrackets at parsed
            split at parsed
            · cases parsed
            · rename_i isOpening
              rw [ne_eq, not_not] at isOpening
              split at parsed
              · cases parsed
              · rename_i closing afterGroup isRest
                have isClosing : closing = ']' := by
                  have stops := List.head?_dropWhile_not (· ≠ ']') rest
                  rw [isRest] at stops
                  simpa using stops
                have whole := List.takeWhile_append_dropWhile (p := (· ≠ ']')) (l := rest)
                rw [isRest, isClosing] at whole
                simp only at parsed
                split at parsed
                · cases parsed
                · rename_i noOpening
                  split at parsed
                  · cases parsed
                  · rename_i token isToken
                    rcases parseBracketToken_ok_iff.mp isToken with ⟨isSegment, allowed⟩
                    split at parsed
                    · cases parsed
                    · cases others : parseBrackets name limits turns afterGroup with
                      | error error =>
                          rw [others] at parsed
                          cases parsed
                      | ok later =>
                          rw [others] at parsed
                          cases parsed
                          have shorter : afterGroup.length ≤ turns := by
                            have length := congrArg List.length whole
                            rw [List.length_append, List.length_cons] at length
                            omega
                          rcases (ih shorter).mp others with ⟨isAfter, allowedLater⟩
                          have noClosing : ']' ∉ rest.takeWhile (· ≠ ']') := by
                            intro member
                            have differs := List.mem_takeWhile_imp member
                            simp at differs
                          refine ⟨?_, List.forall_mem_cons.mpr ⟨⟨allowed, ?_⟩, allowedLater⟩⟩
                          · rw [List.map_cons, List.flatMap_cons, bracketed_append, isSegment,
                              ← isAfter, isOpening, whole]
                          · rw [isSegment]
                            exact ⟨noOpening, noClosing⟩
          · rintro ⟨isText, allowed⟩
            cases tokens with
            | nil => cases isText
            | cons token tokens =>
                rw [List.map_cons, List.flatMap_cons, bracketed_append] at isText
                rcases List.cons.inj isText with ⟨rfl, isRest⟩
                rcases List.forall_mem_cons.mp allowed with ⟨⟨tokenAllowed, plain⟩, laterAllowed⟩
                rcases @span_segment token.segment
                  ((tokens.map FormPathToken.segment).flatMap bracketed) plain.2 with
                  ⟨takes, drops⟩
                rw [← isRest] at takes drops
                have parsedToken : parseBracketToken token.segment name limits = .ok token :=
                  parseBracketToken_ok_iff.mpr ⟨rfl, tokenAllowed⟩
                have shorter : ((tokens.map FormPathToken.segment).flatMap bracketed).length ≤
                    turns := by
                  rw [isRest, List.length_append, List.length_cons] at enough
                  omega
                have parsedLater := (ih shorter).mpr ⟨rfl, laterAllowed⟩
                unfold parseBrackets
                rw [if_neg (not_not.mpr rfl), drops]
                simp only
                rw [takes, if_neg plain.1, parsedToken]
                simp only
                rw [head?_flatMap_bracketed, parsedLater]
                rfl

/-- The tokens of an accepted name. -/
structure IsPath (limits : FormBodyLimits) (name : String) (root : String)
    (tokens : List FormPathToken) : Prop where
  text : name.toList = printPath (.property root :: tokens)
  root_nonempty : root.toList ≠ []
  root_plain : IsPlain root.toList
  root_safe : root ∉ unsafePropertyNames
  allowed : ∀ token ∈ tokens, token.Allowed limits ∧ IsPlain token.segment
  terminal : .append ∉ tokens.dropLast
  short : JsText.length name ≤ limits.maxFormFieldNameLength
  shallow : tokens.length + 1 ≤ limits.maxFormDepth

theorem checkTokens_ok_iff :
    checkTokens name limits tokens = .ok found ↔
      found = tokens ∧ tokens.length ≤ limits.maxFormDepth ∧ .append ∉ tokens.dropLast := by
  unfold checkTokens
  split
  · rename_i deep
    exact iff_of_false nofun fun checked => absurd checked.2.1 (by omega)
  · rename_i shallow
    split
    · rename_i inside
      exact iff_of_false nofun fun checked => checked.2.2 inside
    · rename_i terminal
      rw [Except.ok.injEq, eq_comm]
      exact (and_iff_left ⟨by omega, terminal⟩).symm

theorem mem_dropLast_property_cons_iff {root : String} :
    .append ∈ (FormPathToken.property root :: tokens).dropLast ↔ .append ∈ tokens.dropLast := by
  cases tokens with
  | nil => exact iff_of_false nofun nofun
  | cons token tokens =>
      rw [List.dropLast_cons_cons, List.mem_cons]
      simp

theorem span_root {root : List Char} (plain : '[' ∉ root) (segments : List (List Char)) :
    (root ++ segments.flatMap bracketed).takeWhile (· ≠ '[') = root ∧
      (root ++ segments.flatMap bracketed).dropWhile (· ≠ '[') = segments.flatMap bracketed := by
  have inRoot : ∀ char ∈ root, decide (char ≠ '[') = true := by
    intro char member
    rw [decide_eq_true_eq]
    rintro rfl
    exact plain member
  constructor
  · rw [List.takeWhile_append_of_pos inRoot]
    cases segments <;> simp [bracketed]
  · rw [List.dropWhile_append_of_pos inRoot]
    cases segments <;> simp [bracketed]

theorem printPath_cons (root : String) (tokens : List FormPathToken) :
    printPath (.property root :: tokens) =
      root.toList ++ (tokens.map FormPathToken.segment).flatMap bracketed := by
  rw [List.flatMap_map]
  rfl

theorem parseFormFieldPath_ok_iff :
    parseFormFieldPath name limits = .ok found ↔
      ∃ root tokens, found = .property root :: tokens ∧ IsPath limits name root tokens := by
  constructor
  · intro parsed
    unfold parseFormFieldPath at parsed
    split at parsed
    · cases parsed
    · split at parsed
      · cases parsed
      · rename_i short
        simp only at parsed
        split at parsed
        · cases parsed
        · rename_i isRoot
          rw [not_or] at isRoot
          split at parsed
          · cases parsed
          · rename_i rootToken isRootToken
            rcases propertyToken_ok_iff.mp isRootToken with ⟨safe, rfl⟩
            split at parsed
            · cases parsed
            · rename_i tokens isTokens
              rcases (parseBrackets_ok_iff (Nat.le_refl _)).mp isTokens with ⟨isGroups, allowed⟩
              rcases checkTokens_ok_iff.mp parsed with ⟨rfl, shallow, terminal⟩
              refine ⟨_, _, rfl, ?_⟩
              have whole := List.takeWhile_append_dropWhile (p := (· ≠ '[')) (l := name.toList)
              refine ⟨?_, ?_, ?_, safe, allowed, ?_, Nat.not_lt.mp short, shallow⟩
              · rw [printPath_cons, String.toList_ofList, ← isGroups, whole]
              · rw [String.toList_ofList]
                exact isRoot.1
              · rw [String.toList_ofList]
                refine ⟨fun member => ?_, isRoot.2⟩
                have differs := List.mem_takeWhile_imp member
                simp at differs
              · rwa [mem_dropLast_property_cons_iff] at terminal
  · rintro ⟨root, tokens, rfl, isPath⟩
    have text := isPath.text
    rw [printPath_cons] at text
    rcases span_root isPath.root_plain.1 (tokens.map FormPathToken.segment) with ⟨takes, drops⟩
    rw [← text] at takes drops
    have nonempty : name ≠ "" := by
      rintro rfl
      rw [String.toList_empty] at takes
      exact isPath.root_nonempty takes.symm
    have parsedTokens : parseBrackets name limits (name.toList.dropWhile (· ≠ '[')).length
        (name.toList.dropWhile (· ≠ '[')) = .ok tokens :=
      (parseBrackets_ok_iff (Nat.le_refl _)).mpr ⟨drops, isPath.allowed⟩
    have parsedRoot : propertyToken (String.ofList root.toList) = .ok (.property root) := by
      rw [String.ofList_toList]
      exact propertyToken_ok_iff.mpr ⟨isPath.root_safe, rfl⟩
    unfold parseFormFieldPath
    simp only
    rw [if_neg nonempty, if_neg (Nat.not_lt.mpr isPath.short), takes,
      if_neg (not_or.mpr ⟨isPath.root_nonempty, isPath.root_plain.2⟩), parsedRoot]
    simp only
    rw [parsedTokens]
    apply checkTokens_ok_iff.mpr
    exact ⟨rfl, isPath.shallow, mt mem_dropLast_property_cons_iff.mp isPath.terminal⟩

end Tokens

section Grammar

variable {limits : FormBodyLimits} {name root : String} {segments : List (List Char)}

theorem IsPath.spells {tokens : List FormPathToken} (isPath : IsPath limits name root tokens) :
    Spells limits name root.toList (tokens.map FormPathToken.segment) := by
  refine ⟨?_, isPath.root_nonempty, isPath.root_plain, ?_, ?_, ?_, isPath.short, ?_⟩
  · rw [← printPath_cons]
    exact isPath.text
  · intro segment member
    rcases List.mem_map.mp member with ⟨token, inTokens, rfl⟩
    exact (isPath.allowed token inTokens).2
  · intro segment member
    rw [← List.map_dropLast] at member
    rcases List.mem_map.mp member with ⟨token, inTokens, rfl⟩
    have allowed := (isPath.allowed token (List.dropLast_subset _ inTokens)).1
    cases token with
    | property name => exact allowed.1
    | index number => exact List.length_pos_iff.mp Nat.length_toDigits_pos
    | append => exact absurd inTokens isPath.terminal
  · intro segment member
    rcases List.mem_map.mp member with ⟨token, inTokens, rfl⟩
    have allowed := (isPath.allowed token inTokens).1
    cases token with
    | property name =>
        refine .inr (.inr ⟨?_, allowed.2.2⟩)
        unfold IsSafe
        simp only [FormPathToken.segment]
        rw [String.ofList_toList]
        exact allowed.2.1
    | index number => exact .inr (.inl ⟨number, rfl, allowed⟩)
    | append => exact .inl rfl
  · rw [List.length_map]
    exact isPath.shallow

theorem exists_tokens_of_kinds (plain : ∀ segment ∈ segments, IsPlain segment)
    (kinds : ∀ segment ∈ segments, segment = [] ∨ IsIndex limits segment ∨
      IsSafe segment ∧ isNumericLikeProperty segment = false) :
    ∃ tokens : List FormPathToken, tokens.map FormPathToken.segment = segments ∧
      ∀ token ∈ tokens, token.Allowed limits ∧ IsPlain token.segment := by
  induction segments with
  | nil => exact ⟨[], rfl, nofun⟩
  | cons segment segments ih =>
      rw [List.forall_mem_cons] at plain kinds
      rcases ih plain.2 kinds.2 with ⟨tokens, areSegments, allowed⟩
      have isToken : ∃ token : FormPathToken, token.segment = segment ∧ token.Allowed limits := by
        rcases kinds.1 with isEmpty | ⟨number, isText, small⟩ | ⟨safe, notNumeric⟩
        · exact ⟨.append, isEmpty.symm, trivial⟩
        · exact ⟨.index number, isText.symm, small⟩
        · by_cases isEmpty : segment = []
          · exact ⟨.append, isEmpty.symm, trivial⟩
          · refine ⟨.property (String.ofList segment), String.toList_ofList, ?_, safe, ?_⟩
            · rwa [String.toList_ofList]
            · rwa [String.toList_ofList]
      rcases isToken with ⟨token, isSegment, tokenAllowed⟩
      refine ⟨token :: tokens, ?_, List.forall_mem_cons.mpr ⟨⟨tokenAllowed, ?_⟩, allowed⟩⟩
      · rw [List.map_cons, isSegment, areSegments]
      · rw [isSegment]
        exact plain.1

theorem Spells.isPath {rootText : List Char} (spells : Spells limits name rootText segments)
    (safe : IsSafe rootText) : ∃ tokens, IsPath limits name (String.ofList rootText) tokens := by
  rcases exists_tokens_of_kinds spells.plain spells.kinds with ⟨tokens, areSegments, allowed⟩
  refine ⟨tokens, ?_, ?_, ?_, safe, allowed, ?_, spells.short, ?_⟩
  · rw [printPath_cons, String.toList_ofList, areSegments]
    exact spells.text
  · rw [String.toList_ofList]
    exact spells.root_nonempty
  · rw [String.toList_ofList]
    exact spells.root_plain
  · intro inside
    refine spells.terminal [] ?_ rfl
    rw [← areSegments, ← List.map_dropLast]
    exact List.mem_map.mpr ⟨.append, inside, rfl⟩
  · rw [← List.length_map FormPathToken.segment, areSegments]
    exact spells.shallow

/-- The scanner accepts the names of the grammar whose root is safe, and one path has one name. -/
theorem parseFormFieldPath_unambiguous (limits : FormBodyLimits) (name : String) :
    ((∃ tokens, parseFormFieldPath name limits = .ok tokens) ↔
      ∃ root segments, Spells limits name root segments ∧ IsSafe root) ∧
    (∀ tokens, parseFormFieldPath name limits = .ok tokens → printPath tokens = name.toList) ∧
    ∀ other tokens, parseFormFieldPath name limits = .ok tokens →
      parseFormFieldPath other limits = .ok tokens → name = other := by
  have prints {name : String} {tokens : List FormPathToken}
      (parsed : parseFormFieldPath name limits = .ok tokens) : printPath tokens = name.toList := by
    rcases parseFormFieldPath_ok_iff.mp parsed with ⟨root, later, rfl, isPath⟩
    exact isPath.text.symm
  refine ⟨⟨?_, ?_⟩, fun tokens => prints, ?_⟩
  · rintro ⟨found, parsed⟩
    rcases parseFormFieldPath_ok_iff.mp parsed with ⟨root, tokens, -, isPath⟩
    refine ⟨_, _, isPath.spells, ?_⟩
    unfold IsSafe
    rw [String.ofList_toList]
    exact isPath.root_safe
  · rintro ⟨root, segments, spells, safe⟩
    rcases spells.isPath safe with ⟨tokens, isPath⟩
    exact ⟨_, parseFormFieldPath_ok_iff.mpr ⟨_, _, rfl, isPath⟩⟩
  · intro other tokens parsed parsedOther
    apply String.toList_inj.mp
    rw [← prints parsed, prints parsedOther]

theorem parseFormFieldPath_unambiguous_nested :
    printPath [.property "items", .index 0, .property "tags", .append] =
      "items[0][tags][]".toList :=
  (parseFormFieldPath_unambiguous defaultFormBodyLimits "items[0][tags][]").2.1 _ (by decide)

/-- A root is refused for its name alone, too. -/
theorem parseFormFieldPath_refuses_root :
    ¬((∃ tokens, parseFormFieldPath "__proto__" defaultFormBodyLimits = .ok tokens) ↔
      ∃ root segments, Spells defaultFormBodyLimits "__proto__" root segments) := by
  intro accepts
  have spells : Spells defaultFormBodyLimits "__proto__" "__proto__".toList [] :=
    ⟨by decide, by decide, ⟨by decide, by decide⟩, nofun, nofun, nofun, by decide, by decide⟩
  rcases accepts.mpr ⟨_, _, spells⟩ with ⟨tokens, parsed⟩
  have refused : parseFormFieldPath "__proto__" defaultFormBodyLimits =
      .error (.badRequest "Unsafe form field property \"__proto__\"") := by decide
  rw [refused] at parsed
  cases parsed

end Grammar

end ServerFoundation.Http
