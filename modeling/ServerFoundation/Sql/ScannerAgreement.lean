import Mathlib.Data.List.TakeWhile
import ServerFoundation.Sql.StatementScan

/-!
# Agreement of the two scanners

A round of the scanner that notes placeholders is followed by rounds of the other, which takes
one for each digit of a placeholder. Both trim a statement to the same text, one by moving its
indices and one by trimming the slice.
-/

namespace ServerFoundation.Sql

section Trimming

variable {text : List Char} {start stop : ℕ}

/-- White space stands at an index. -/
def IsBlankAt (text : List Char) (index : ℕ) : Prop :=
  text[index]?.any JsNumber.isWhiteSpace = true

theorem skipSpace_spec (text : List Char) (start count : ℕ) :
    start ≤ skipSpace text start count ∧ skipSpace text start count ≤ start + count ∧
      (∀ index, start ≤ index → index < skipSpace text start count → IsBlankAt text index) ∧
      (skipSpace text start count < start + count →
        ¬ IsBlankAt text (skipSpace text start count)) := by
  induction count generalizing start with
  | zero =>
      simp only [skipSpace]
      exact ⟨le_refl _, le_refl _, fun index lower upper => by omega, fun below => by omega⟩
  | succ count ih =>
      unfold skipSpace
      split_ifs with blank
      · rcases ih (start + 1) with ⟨lower, upper, blanks, stops⟩
        refine ⟨by omega, by omega, fun index above below => ?_, fun below => stops (by omega)⟩
        rcases Nat.eq_or_lt_of_le above with rfl | beyond
        · exact blank
        · exact blanks index beyond below
      · exact ⟨le_refl _, by omega, fun index lower upper => by omega, fun _ => blank⟩

theorem skipSpaceBack_spec (text : List Char) (stop count : ℕ) (within : count ≤ stop) :
    skipSpaceBack text stop count ≤ stop ∧ stop ≤ skipSpaceBack text stop count + count ∧
      (∀ index, skipSpaceBack text stop count ≤ index → index < stop → IsBlankAt text index) ∧
      (stop < skipSpaceBack text stop count + count →
        ¬ IsBlankAt text (skipSpaceBack text stop count - 1)) := by
  induction count generalizing stop with
  | zero =>
      simp only [skipSpaceBack]
      exact ⟨le_refl _, le_refl _, fun index lower upper => by omega, fun below => by omega⟩
  | succ count ih =>
      unfold skipSpaceBack
      split_ifs with blank
      · rcases ih (stop - 1) (by omega) with ⟨upper, lower, blanks, stops⟩
        refine ⟨by omega, by omega, fun index above below => ?_, fun below => stops (by omega)⟩
        rcases Nat.lt_or_ge index (stop - 1) with before | last
        · exact blanks index above before
        · rw [show index = stop - 1 by omega]
          exact blank
      · exact ⟨le_refl _, by omega, fun index lower upper => by omega, fun _ => blank⟩

theorem slice_append {middle : ℕ} (first : start ≤ middle) (second : middle ≤ stop) :
    slice text start stop = slice text start middle ++ slice text middle stop := by
  have lengths : stop - start = (middle - start) + (stop - middle) := by omega
  have position : start + (middle - start) = middle := by omega
  rw [slice, lengths, List.take_add, List.drop_drop, position]
  rfl

theorem slice_eq_nil (empty : stop ≤ start) : slice text start stop = [] := by
  rw [slice, Nat.sub_eq_zero_of_le empty, List.take_zero]

theorem slice_single {index : ℕ} {char : Char} (stands : text[index]? = some char) :
    slice text index (index + 1) = [char] := by
  rcases List.getElem?_eq_some_iff.mp stands with ⟨bound, rfl⟩
  rw [slice, List.drop_eq_getElem_cons bound, Nat.add_sub_cancel_left]
  rfl

theorem exists_index_of_mem_slice {char : Char} (mem : char ∈ slice text start stop) :
    ∃ index, start ≤ index ∧ index < stop ∧ text[index]? = some char := by
  rcases List.mem_iff_getElem?.mp mem with ⟨offset, found⟩
  simp only [slice, List.getElem?_take, Option.ite_none_right_eq_some, List.getElem?_drop] at found
  exact ⟨start + offset, by omega, by omega, found.2⟩

theorem blank_slice (blanks : ∀ index, start ≤ index → index < stop → IsBlankAt text index) :
    ∀ char ∈ slice text start stop, JsNumber.isWhiteSpace char = true := by
  intro char mem
  rcases exists_index_of_mem_slice mem with ⟨index, lower, upper, found⟩
  simpa [IsBlankAt, found] using blanks index lower upper

theorem trim_blank {word : List Char} (blank : ∀ char ∈ word, JsNumber.isWhiteSpace char = true) :
    JsNumber.trim word = [] := by
  rw [JsNumber.trim, List.dropWhile_eq_nil_iff.2 blank]
  rfl

theorem trim_core {front core back : List Char} {first last : Char}
    (blankFront : ∀ char ∈ front, JsNumber.isWhiteSpace char = true)
    (blankBack : ∀ char ∈ back, JsNumber.isWhiteSpace char = true)
    (isFirst : core.head? = some first) (isLast : core.getLast? = some last)
    (firstFull : JsNumber.isWhiteSpace first = false)
    (lastFull : JsNumber.isWhiteSpace last = false) :
    JsNumber.trim (front ++ (core ++ back)) = core := by
  have keepsFirst : ∀ rest : List Char,
      (core ++ rest).dropWhile JsNumber.isWhiteSpace = core ++ rest := by
    intro rest
    cases core with
    | nil => cases isFirst
    | cons head tail =>
        cases isFirst
        rw [List.cons_append, List.dropWhile_cons_of_neg (by simp [firstFull])]
  have keepsLast : core.reverse.dropWhile JsNumber.isWhiteSpace = core.reverse := by
    rw [← List.head?_reverse] at isLast
    cases reversed : core.reverse with
    | nil => rfl
    | cons head tail =>
        rw [reversed] at isLast
        cases isLast
        rw [List.dropWhile_cons_of_neg (by simp [lastFull])]
  have blankReversed : ∀ char ∈ back.reverse, JsNumber.isWhiteSpace char = true := fun char mem =>
    blankBack char (List.mem_reverse.mp mem)
  rw [JsNumber.trim, List.dropWhile_append_of_pos blankFront, keepsFirst, List.reverse_append,
    List.dropWhile_append_of_pos blankReversed, keepsLast, List.reverse_reverse]

theorem exists_of_not_blank {index : ℕ} (within : index < text.length)
    (full : ¬ IsBlankAt text index) :
    ∃ char, text[index]? = some char ∧ JsNumber.isWhiteSpace char = false := by
  refine ⟨text[index], List.getElem?_eq_getElem within, ?_⟩
  simpa [IsBlankAt, List.getElem?_eq_getElem within] using full

theorem trim_slice (start : ℕ) (within : stop ≤ text.length) :
    JsNumber.trim (slice text start stop) =
      slice text (trimStartIndex text start stop) (trimEndIndex text start stop) ∧
    (JsNumber.trim (slice text start stop) = [] ↔
      trimEndIndex text start stop ≤ trimStartIndex text start stop) := by
  have frontSpec := skipSpace_spec text start (stop - start)
  have backSpec := skipSpaceBack_spec text stop (stop - start) (by omega)
  unfold trimStartIndex trimEndIndex
  generalize skipSpace text start (stop - start) = first at frontSpec ⊢
  generalize skipSpaceBack text stop (stop - start) = last at backSpec ⊢
  rcases frontSpec with ⟨lower, upper, frontBlank, frontStops⟩
  rcases backSpec with ⟨upperEnd, lowerEnd, backBlank, backStops⟩
  rcases Nat.lt_or_ge first last with proper | crossed
  · rcases exists_of_not_blank (by omega) (frontStops (by omega)) with
      ⟨head, headStands, headFull⟩
    rcases exists_of_not_blank (by omega) (backStops (by omega)) with
      ⟨tail, tailStands, tailFull⟩
    have isHead : (slice text first last).head? = some head := by
      rw [slice_append (Nat.le_succ first) proper, slice_single headStands]
      rfl
    have isTail : (slice text first last).getLast? = some tail := by
      have single := slice_single tailStands
      rw [Nat.sub_add_cancel (by omega)] at single
      rw [slice_append (Nat.le_sub_one_of_lt proper) (Nat.sub_le last 1), single]
      simp
    have same : JsNumber.trim (slice text start stop) = slice text first last := by
      rw [slice_append lower (by omega), slice_append proper.le upperEnd]
      exact trim_core (blank_slice frontBlank) (blank_slice backBlank) isHead isTail headFull
        tailFull
    refine ⟨same, ?_⟩
    rw [same]
    constructor
    · intro empty
      rw [empty] at isHead
      cases isHead
    · omega
  · have blank : JsNumber.trim (slice text start stop) = [] := by
      apply trim_blank
      apply blank_slice
      intro index lowerIndex upperIndex
      rcases Nat.lt_or_ge index first with before | behind
      · exact frontBlank index lowerIndex before
      · exact backBlank index (crossed.trans behind) upperIndex
    rw [blank, slice_eq_nil crossed]
    simp [crossed]

end Trimming

section Progress

variable {text : List Char} {dialect : Dialect} {char : Char} {scan : SplitScan}

theorem scanLexeme_advances {i next : ℕ} {mode after : ScanMode}
    (scanned : scanLexeme text i char mode = some (after, next)) : i < next := by
  cases mode with
  | statement =>
      simp only [scanLexeme] at scanned
      split_ifs at scanned
      · cases scanned
        omega
      · cases scanned
        omega
      · cases scanned
        omega
      · cases scanned
        omega
      · rcases Option.map_eq_some_iff.mp scanned with ⟨tag, _, same⟩
        cases same
        simp [dollarMarker]
  | lineComment =>
      cases scanned
      omega
  | blockComment =>
      simp only [scanLexeme, Option.some.injEq] at scanned
      split_ifs at scanned <;> cases scanned <;> omega
  | dollarQuote tag =>
      simp only [scanLexeme, Option.some.injEq] at scanned
      split_ifs at scanned
      · cases scanned
        simp [dollarMarker]
      · cases scanned
        omega
  | quote mark =>
      simp only [scanLexeme, Option.some.injEq] at scanned
      split_ifs at scanned <;> cases scanned <;> omega

theorem placeholderAt_spec {i mysqlBindingIndex : ℕ} {placeholder : BoundPlaceholder}
    (found : placeholderAt text dialect i mysqlBindingIndex = some placeholder) :
    placeholder.start = i ∧ i < placeholder.stop := by
  cases dialect with
  | postgres =>
      rcases Option.map_eq_some_iff.mp found with ⟨digits, _, same⟩
      cases same
      refine ⟨rfl, ?_⟩
      change i < i + 1 + digits.length
      omega
  | mysql =>
      simp only [placeholderAt, Option.ite_none_right_eq_some, Option.some.injEq] at found
      rw [← found.2]
      exact ⟨rfl, Nat.lt_succ_self i⟩

theorem BoundScan.advance_cases (scan : BoundScan) (stands : text[scan.i]? = some char) :
    (∃ mode next, scanLexeme text scan.i char scan.mode = some (mode, next) ∧
      scan.advance text dialect = { scan with mode := mode, i := next }) ∨
    (scanLexeme text scan.i char scan.mode = none ∧
      ((∃ placeholder index,
        placeholderAt text dialect scan.i scan.mysqlBindingIndex = some placeholder ∧
        scan.advance text dialect = { scan with
          currentPlaceholders := scan.currentPlaceholders ++ [placeholder]
          mysqlBindingIndex := index
          i := placeholder.stop }) ∨
      (char = ';' ∧ scan.advance text dialect = { scan with
        statements := scan.close text scan.i
        statementStart := scan.i + 1
        currentPlaceholders := []
        i := scan.i + 1 }) ∨
      (char ≠ ';' ∧ scan.advance text dialect = { scan with i := scan.i + 1 }))) := by
  unfold BoundScan.advance
  rw [stands]
  cases lexeme : scanLexeme text scan.i char scan.mode with
  | some scanned => exact Or.inl ⟨scanned.1, scanned.2, rfl, by simp only [lexeme]⟩
  | none =>
      right
      cases found : placeholderAt text dialect scan.i scan.mysqlBindingIndex with
      | some placeholder =>
          refine ⟨rfl, Or.inl ⟨placeholder, if dialect = .mysql then scan.mysqlBindingIndex + 1
            else scan.mysqlBindingIndex, rfl, ?_⟩⟩
          simp only [lexeme]
      | none =>
          refine ⟨rfl, Or.inr ?_⟩
          by_cases semicolon : char = ';'
          · exact Or.inl ⟨semicolon, by simp only [lexeme, if_pos semicolon]⟩
          · exact Or.inr ⟨semicolon, by simp only [lexeme, if_neg semicolon]⟩

theorem SplitScan.advance_lexeme {mode : ScanMode} {next : ℕ} (stands : text[scan.i]? = some char)
    (scanned : scanLexeme text scan.i char scan.mode = some (mode, next)) :
    scan.advance text = { scan with mode := mode, i := next } := by
  simp only [SplitScan.advance, stands, scanned]

theorem SplitScan.advance_semicolon (stands : text[scan.i]? = some ';')
    (ordinary : scanLexeme text scan.i ';' scan.mode = none) :
    scan.advance text = { scan with
      statements := scan.close text scan.i
      statementStart := scan.i + 1
      i := scan.i + 1 } := by
  simp only [SplitScan.advance, stands, ordinary, if_true]

theorem SplitScan.advance_other (stands : text[scan.i]? = some char) (differs : char ≠ ';')
    (ordinary : scanLexeme text scan.i char scan.mode = none) :
    scan.advance text = { scan with i := scan.i + 1 } := by
  simp only [SplitScan.advance, stands, ordinary, if_neg differs]

end Progress

section Termination

variable {text : List Char} {dialect : Dialect}

theorem BoundScan.advance_lt {scan : BoundScan}
    (goesOn : (boundLoop text dialect).continues scan = true) :
    scan.i < (scan.advance text dialect).i := by
  have within : scan.i < text.length := of_decide_eq_true goesOn
  rcases scan.advance_cases (List.getElem?_eq_getElem within) with
    ⟨mode, next, scanned, advanced⟩ | ⟨_, ⟨placeholder, index, found, advanced⟩ |
      ⟨_, advanced⟩ | ⟨_, advanced⟩⟩
  all_goals rw [advanced]
  · exact scanLexeme_advances scanned
  · exact (placeholderAt_spec found).2
  · exact Nat.lt_succ_self _
  · exact Nat.lt_succ_self _

theorem SplitScan.advance_lt {scan : SplitScan} (goesOn : (splitLoop text).continues scan = true) :
    scan.i < (scan.advance text).i := by
  have within : scan.i < text.length := of_decide_eq_true goesOn
  have stands : text[scan.i]? = some text[scan.i] := List.getElem?_eq_getElem within
  cases lexeme : scanLexeme text scan.i text[scan.i] scan.mode with
  | some scanned =>
      rw [SplitScan.advance_lexeme stands lexeme]
      exact scanLexeme_advances lexeme
  | none =>
      by_cases semicolon : text[scan.i] = ';'
      · rw [semicolon] at stands lexeme
        rw [SplitScan.advance_semicolon stands lexeme]
        exact Nat.lt_succ_self _
      · rw [SplitScan.advance_other stands semicolon lexeme]
        exact Nat.lt_succ_self _

theorem exists_run_scan {Scan : Type} (loop : WhileLoop Scan) (index : Scan → ℕ)
    (continues : ∀ scan, loop.continues scan = true → index scan < text.length)
    (advances : ∀ scan, loop.continues scan = true → index scan < index (loop.body scan))
    (start : Scan) : ∃ result, loop.run text.length start = some result := by
  refine WhileLoop.exists_run (fun scan => text.length - index scan) ?_ (Nat.sub_le _ _)
  intro scan goesOn
  have within := continues scan goesOn
  have advanced := advances scan goesOn
  omega

end Termination

section Agreement

variable {text : List Char} {dialect : Dialect} {bound : BoundScan} {split : SplitScan}
  {char : Char}

/-- The text of a statement. -/
def BoundStatement.read (text : List Char) (statement : BoundStatement) : List Char :=
  slice text statement.start statement.stop

/-- The scanners stand at the same place and have found the same statements. -/
structure Agree (text : List Char) (bound : BoundScan) (split : SplitScan) : Prop where
  mode : split.mode = bound.mode
  index : split.i = bound.i
  start : split.statementStart = bound.statementStart
  statements : split.statements = bound.statements.map (BoundStatement.read text)

theorem Agree.close (agree : Agree text bound split) {stop : ℕ} (within : stop ≤ text.length) :
    split.close text stop = (bound.close text stop).map (BoundStatement.read text) := by
  rcases trim_slice bound.statementStart within with ⟨same, empty⟩
  unfold SplitScan.close BoundScan.close boundStatement
  simp only [agree.start, agree.statements]
  split_ifs with blank proper proper
  · exact absurd proper (not_lt.mpr (empty.mp blank))
  · simp
  · simp [BoundStatement.read, same]
  · exact absurd (empty.mpr (not_lt.mp proper)) blank

theorem mode_of_scanLexeme_none {i : ℕ} {mode : ScanMode}
    (ordinary : scanLexeme text i char mode = none) : mode = .statement := by
  cases mode <;> first | rfl | cases ordinary

theorem scanLexeme_digit {i : ℕ} (stands : text[i]? = some char) (digit : char.isDigit = true) :
    scanLexeme text i char .statement = none := by
  have differs : ∀ other : Char, other.isDigit = false → char ≠ other := by
    rintro other ordinary rfl
    rw [digit] at ordinary
    cases ordinary
  have noMarker : readDollarQuoteMarker (text.drop i) = none := by
    rcases List.getElem?_eq_some_iff.mp stands with ⟨bounded, same⟩
    rw [List.drop_eq_getElem_cons bounded, same]
    unfold readDollarQuoteMarker
    split
    · exact absurd (List.cons.inj ‹_›).1 (differs '$' (by decide))
    · exact absurd (List.cons.inj ‹_›).1 (differs '$' (by decide))
    · rfl
  simp [scanLexeme, noMarker, differs '-' (by decide), differs '#' (by decide),
    differs '/' (by decide), differs '\'' (by decide), differs '"' (by decide),
    differs (Char.ofNat 96) (by decide)]

theorem rounds_digits (digits : List Char) {rest : List Char} (scan : SplitScan)
    (statement : scan.mode = .statement) (stand : text.drop scan.i = digits ++ rest)
    (areDigits : ∀ digit ∈ digits, digit.isDigit = true) :
    (splitLoop text).Rounds scan { scan with i := scan.i + digits.length } := by
  induction digits generalizing scan with
  | nil => exact .refl
  | cons digit digits ih =>
      have stands : text[scan.i]? = some digit := by
        rw [← List.head?_drop, stand]
        rfl
      have isDigit := areDigits digit (List.mem_cons_self ..)
      have advanced : scan.advance text = { scan with i := scan.i + 1 } := by
        apply SplitScan.advance_other stands
        · rintro rfl
          cases isDigit
        · rw [statement]
          exact scanLexeme_digit stands isDigit
      have others : text.drop (scan.i + 1) = digits ++ rest := by
        rw [← List.drop_drop, stand]
        rfl
      have ran := ih { scan with i := scan.i + 1 } statement others
        fun other mem => areDigits other (List.mem_cons_of_mem _ mem)
      refine .head ⟨?_, advanced⟩ ?_
      · exact decide_eq_true (List.getElem?_eq_some_iff.mp stands).1
      · simp only [Nat.add_assoc, Nat.add_comm 1] at ran
        exact ran

theorem placeholderAt_cases {i mysqlBindingIndex : ℕ} {placeholder : BoundPlaceholder}
    (stands : text[i]? = some char)
    (found : placeholderAt text dialect i mysqlBindingIndex = some placeholder) :
    char ≠ ';' ∧ ∃ digits rest : List Char, text.drop (i + 1) = digits ++ rest ∧
      (∀ digit ∈ digits, digit.isDigit = true) ∧ placeholder.stop = i + 1 + digits.length := by
  cases dialect with
  | mysql =>
      simp only [placeholderAt, stands, Option.some.injEq, Option.ite_none_right_eq_some] at found
      rcases found with ⟨rfl, rfl⟩
      exact ⟨by decide, [], text.drop (i + 1), rfl, by simp, rfl⟩
  | postgres =>
      rcases Option.map_eq_some_iff.mp found with ⟨digits, isRead, rfl⟩
      rcases List.getElem?_eq_some_iff.mp stands with ⟨bounded, same⟩
      rw [List.drop_eq_getElem_cons bounded, same] at isRead
      unfold readPlaceholder at isRead
      split at isRead
      case h_2 => cases isRead
      case h_1 first rest isText =>
        rcases List.cons.inj isText with ⟨rfl, rest_eq⟩
        split_ifs at isRead with isNumber
        cases isRead
        refine ⟨by decide, first :: rest.takeWhile Char.isDigit, rest.dropWhile Char.isDigit,
          ?_, ?_, rfl⟩
        · rw [rest_eq, List.cons_append, List.takeWhile_append_dropWhile]
        · intro digit mem
          rcases List.mem_cons.mp mem with rfl | mem
          · exact isNumber.1
          · exact List.mem_takeWhile_imp mem

theorem Agree.follows (agree : Agree text bound split)
    (goesOn : (boundLoop text dialect).continues bound = true) :
    ∃ next, (splitLoop text).Rounds split next ∧
      Agree text (bound.advance text dialect) next := by
  have within : bound.i < text.length := of_decide_eq_true goesOn
  have goesOnToo : (splitLoop text).continues split = true := by
    simpa [splitLoop, agree.index] using within
  have exists_char : ∃ char, text[bound.i]? = some char := ⟨_, List.getElem?_eq_getElem within⟩
  rcases exists_char with ⟨char, stands⟩
  have standsToo : text[split.i]? = some char := by rw [agree.index, stands]
  rcases bound.advance_cases stands with
    ⟨mode, next, scanned, advanced⟩ | ⟨ordinary, ⟨placeholder, index, found, advanced⟩ |
      ⟨semicolon, advanced⟩ | ⟨other, advanced⟩⟩
  all_goals rw [advanced]
  · rw [← agree.index, ← agree.mode] at scanned
    refine ⟨_, .single ⟨goesOnToo, SplitScan.advance_lexeme standsToo scanned⟩, ?_⟩
    exact ⟨rfl, rfl, agree.start, agree.statements⟩
  · rcases placeholderAt_cases stands found with ⟨other, digits, rest, isText, areDigits, ends⟩
    have statement := mode_of_scanLexeme_none ordinary
    rw [← agree.index, ← agree.mode] at ordinary
    have first := SplitScan.advance_other standsToo other ordinary
    have others := rounds_digits digits { split with i := split.i + 1 }
      (agree.mode.trans statement) (agree.index ▸ isText) areDigits
    refine ⟨_, .head ⟨goesOnToo, first⟩ others, agree.mode, ?_, agree.start, agree.statements⟩
    rw [ends, ← agree.index]
  · rw [← agree.index, ← agree.mode, semicolon] at ordinary
    rw [semicolon] at standsToo
    refine ⟨_, .single ⟨goesOnToo, SplitScan.advance_semicolon standsToo ordinary⟩,
      agree.mode, ?_, ?_, ?_⟩
    · rw [← agree.index]
    · rw [← agree.index]
    · rw [← agree.index]
      exact agree.close (agree.index ▸ within.le)
  · rw [← agree.index, ← agree.mode] at ordinary
    refine ⟨_, .single ⟨goesOnToo, SplitScan.advance_other standsToo other ordinary⟩,
      agree.mode, ?_, agree.start, agree.statements⟩
    rw [← agree.index]

end Agreement

section Placeholders

variable {text : List Char} {dialect : Dialect} {scan : BoundScan}

/-- A placeholder lies inside the slice of its statement. -/
def BoundStatement.Encloses (statement : BoundStatement) : Prop :=
  ∀ placeholder ∈ statement.placeholders, statement.start ≤ placeholder.start ∧
    placeholder.start < placeholder.stop ∧ placeholder.stop ≤ statement.stop

/-- One placeholder ends before the other starts. -/
def BoundPlaceholder.Before (first second : BoundPlaceholder) : Prop := first.stop ≤ second.start

/-- The placeholders found so far. -/
def BoundScan.placeholders (scan : BoundScan) : List BoundPlaceholder :=
  scan.statements.flatMap BoundStatement.placeholders ++ scan.currentPlaceholders

/-- The placeholders lie in order in their statements. -/
structure BoundScan.Orderly (scan : BoundScan) : Prop where
  enclosed : ∀ statement ∈ scan.statements, statement.Encloses
  ordered : scan.placeholders.Pairwise BoundPlaceholder.Before
  passed : ∀ placeholder ∈ scan.placeholders,
    placeholder.start < placeholder.stop ∧ placeholder.stop ≤ scan.i

theorem BoundScan.close_enclosed (orderly : scan.Orderly) (stop : ℕ) :
    ∀ statement ∈ scan.close text stop, statement.Encloses := by
  intro statement mem
  rcases List.mem_append.mp mem with old | new
  · exact orderly.enclosed statement old
  · rw [Option.mem_toList] at new
    unfold boundStatement at new
    simp only [Option.ite_none_right_eq_some, Option.some.injEq] at new
    rcases new with ⟨_, rfl⟩
    intro placeholder isInside
    rcases List.mem_filter.mp isInside with ⟨current, inside⟩
    have proper := orderly.passed placeholder (List.mem_append_right _ current)
    rcases of_decide_eq_true inside with ⟨first, last⟩
    exact ⟨first, proper.1, last⟩

theorem BoundScan.close_sublist (text : List Char) (scan : BoundScan) (stop : ℕ) :
    ((scan.close text stop).flatMap BoundStatement.placeholders).Sublist scan.placeholders := by
  unfold BoundScan.close BoundScan.placeholders
  rw [List.flatMap_append]
  apply List.Sublist.append (List.Sublist.refl _)
  unfold boundStatement
  dsimp only
  split_ifs
  · simp
  · simp

theorem BoundScan.Orderly.advance (orderly : scan.Orderly)
    (goesOn : (boundLoop text dialect).continues scan = true) :
    (scan.advance text dialect).Orderly := by
  have within : scan.i < text.length := of_decide_eq_true goesOn
  have exists_char : ∃ char, text[scan.i]? = some char := ⟨_, List.getElem?_eq_getElem within⟩
  rcases exists_char with ⟨char, stands⟩
  have later : ∀ {next : ℕ}, scan.i < next → ∀ placeholder ∈ scan.placeholders,
      placeholder.start < placeholder.stop ∧ placeholder.stop ≤ next := by
    intro next beyond placeholder mem
    rcases orderly.passed placeholder mem with ⟨proper, passed⟩
    exact ⟨proper, by omega⟩
  rcases scan.advance_cases stands with
    ⟨mode, next, scanned, advanced⟩ | ⟨_, ⟨placeholder, index, found, advanced⟩ |
      ⟨_, advanced⟩ | ⟨_, advanced⟩⟩
  all_goals rw [advanced]
  · exact ⟨orderly.enclosed, orderly.ordered, later (scanLexeme_advances scanned)⟩
  · rcases placeholderAt_spec found with ⟨starts, ends⟩
    have all : BoundScan.placeholders { scan with
        currentPlaceholders := scan.currentPlaceholders ++ [placeholder]
        mysqlBindingIndex := index
        i := placeholder.stop } = scan.placeholders ++ [placeholder] := by
      simp [BoundScan.placeholders]
    refine ⟨orderly.enclosed, ?_, ?_⟩
    · rw [all, List.pairwise_append]
      refine ⟨orderly.ordered, List.pairwise_singleton _ _, fun first mem second isLast => ?_⟩
      rw [List.mem_singleton.mp isLast]
      exact (orderly.passed first mem).2.trans starts.ge
    · rw [all]
      intro other mem
      rcases List.mem_append.mp mem with old | new
      · exact later ends other old
      · rw [List.mem_singleton.mp new, starts]
        exact ⟨ends, le_refl _⟩
  · have kept := scan.close_sublist text scan.i
    refine ⟨BoundScan.close_enclosed orderly scan.i, ?_, ?_⟩
    · simpa [BoundScan.placeholders] using orderly.ordered.sublist kept
    · intro placeholder mem
      simp only [BoundScan.placeholders, List.append_nil] at mem
      exact later (Nat.lt_succ_self _) placeholder (kept.subset mem)
  · exact ⟨orderly.enclosed, orderly.ordered, later (Nat.lt_succ_self _)⟩

end Placeholders

/-- The scans end, find the same statements, and note every placeholder inside its statement, one
behind the other. -/
theorem scanners_agree (text : List Char) (dialect : Dialect) :
    ∃ statements, findBoundSqlStatements text dialect = some statements ∧
      splitSqlStatements text = some (statements.map (BoundStatement.read text)) ∧
      (∀ statement ∈ statements, statement.Encloses) ∧
      (statements.flatMap BoundStatement.placeholders).Pairwise BoundPlaceholder.Before := by
  have agree : Agree text ⟨[], 0, .statement, 0, [], 0⟩ ⟨[], 0, .statement, 0⟩ :=
    ⟨rfl, rfl, rfl, rfl⟩
  have orderly : BoundScan.Orderly ⟨[], 0, .statement, 0, [], 0⟩ :=
    ⟨by simp, List.Pairwise.nil, by simp [BoundScan.placeholders]⟩
  rcases exists_run_scan (boundLoop text dialect) BoundScan.i (fun _ => of_decide_eq_true)
    (fun _ => BoundScan.advance_lt) ⟨[], 0, .statement, 0, [], 0⟩ with ⟨bound, boundEnds⟩
  rcases exists_run_scan (splitLoop text) SplitScan.i (fun _ => of_decide_eq_true)
    (fun _ => SplitScan.advance_lt) ⟨[], 0, .statement, 0⟩ with ⟨split, splitEnds⟩
  rcases WhileLoop.rounds_of_run boundEnds with ⟨boundRan, boundEnded⟩
  rcases WhileLoop.rounds_of_run splitEnds with ⟨splitRan, splitEnded⟩
  rcases boundRan.simulates (fun _ _ related goesOn => Agree.follows related goesOn) agree with
    ⟨last, lastRan, lastAgrees⟩
  have lastEnded : (splitLoop text).continues last = false := by
    change decide (last.i < text.length) = false
    rw [lastAgrees.index]
    exact boundEnded
  rw [← splitRan.unique splitEnded lastRan lastEnded] at lastAgrees
  have orderlyLast := boundRan.invariant orderly fun _ goesOn holds => holds.advance goesOn
  refine ⟨bound.close text text.length, ?_, ?_, BoundScan.close_enclosed orderlyLast _, ?_⟩
  · rw [findBoundSqlStatements, boundEnds, Option.map_some]
  · rw [splitSqlStatements, splitEnds, Option.map_some, lastAgrees.close (le_refl _)]
  · exact orderlyLast.ordered.sublist (bound.close_sublist text text.length)

end ServerFoundation.Sql
