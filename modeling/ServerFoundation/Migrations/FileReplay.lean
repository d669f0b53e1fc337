import ServerFoundation.Migrations.MigrationFile

/-!
# Replaying a migration file

A template literal gives back what was escaped, with its line breaks normalized, and the
lines that are indented add white space only. That is harmless outside of quotes, so a
statement is replayed exactly when none of its line breaks is quoted.
-/

namespace ServerFoundation.Migrations

section Templates

/-- Line breaks as template literals have them. -/
@[grind =]
def normalizeNewlines : List Char → List Char
  | [] => []
  | '\r' :: '\n' :: rest => '\n' :: normalizeNewlines rest
  | '\r' :: rest => '\n' :: normalizeNewlines rest
  | char :: rest => char :: normalizeNewlines rest

/-- A character as a template literal writes it. -/
def escapeChar (char : Char) : List Char :=
  if char = '\\' ∨ char = backtick ∨ char = '$' then ['\\', char] else [char]

theorem escapeTemplate_eq (text : List Char) : escapeTemplate text = text.flatMap escapeChar := by
  induction text with
  | nil => rfl
  | cons char text ih =>
      have cons : ∀ found : Char, escapeTemplate (found :: text) =
          replaceAll '$' ['\\', '$'] (replaceAll backtick ['\\', backtick]
            (replaceAll '\\' ['\\', '\\'] [found])) ++ escapeTemplate text := by
        intro found
        simp [escapeTemplate, replaceAll]
      rw [cons, ih, List.flatMap_cons]
      congr 1
      by_cases isBackslash : char = '\\'
      · rw [isBackslash]
        rfl
      · by_cases isBacktick : char = backtick
        · rw [isBacktick]
          rfl
        · by_cases isDollar : char = '$'
          · rw [isDollar]
            rfl
          · simp [replaceAll, escapeChar, isBackslash, isBacktick, isDollar]

theorem readTemplate_plain {char : Char} (notBackslash : char ≠ '\\')
    (notBacktick : char ≠ backtick)
    (notReturn : char ≠ '\r') (notDollar : char ≠ '$') (rest : List Char) :
    readTemplate (char :: rest) = (readTemplate rest).map fun read => (char :: read.1, read.2) := by
  rw [readTemplate.eq_def]
  split
  · rename_i empty
    cases empty
  · rename_i shape
    exact absurd (List.cons.inj shape).1 notBackslash
  · rename_i shape
    exact absurd (List.cons.inj shape).1 notReturn
  · rename_i shape
    exact absurd (List.cons.inj shape).1 notReturn
  · rename_i shape
    exact absurd (List.cons.inj shape).1 notDollar
  · rename_i shape
    rcases List.cons.inj shape with ⟨rfl, rfl⟩
    rw [if_neg notBacktick, if_neg notBackslash]

theorem readTemplate_return {rest : List Char} (alone : rest.head? ≠ some '\n') :
    readTemplate ('\r' :: rest) = (readTemplate rest).map fun read => ('\n' :: read.1, read.2) := by
  cases rest with
  | nil => rfl
  | cons char others =>
      rw [readTemplate]
      intro found shape
      rw [shape] at alone
      exact alone rfl

theorem readTemplate_escape (text rest : List Char) :
    readTemplate (text.flatMap escapeChar ++ backtick :: rest) =
      some (normalizeNewlines text, rest) := by
  fun_induction normalizeNewlines text with
  | case1 => rfl
  | case2 text ih =>
      change (readTemplate (text.flatMap escapeChar ++ backtick :: rest)).map _ = _
      rw [ih]
      rfl
  | case3 text notFeed ih =>
      have alone : (text.flatMap escapeChar ++ backtick :: rest).head? ≠ some '\n' := by
        cases text with
        | nil => simp [backtick]
        | cons char others =>
            have notNewline : char ≠ '\n' := fun same => notFeed others (by rw [same])
            rw [List.flatMap_cons, escapeChar]
            split_ifs
            · simp
            · simpa using notNewline
      have head : ('\r' :: text).flatMap escapeChar ++ backtick :: rest =
          '\r' :: (text.flatMap escapeChar ++ backtick :: rest) := rfl
      rw [head, readTemplate_return alone, ih]
      rfl
  | case4 char text _ notReturn ih =>
      rw [List.flatMap_cons, escapeChar]
      split_ifs with special
      · change readTemplate ('\\' :: char :: (text.flatMap escapeChar ++ backtick :: rest)) = _
        rw [readTemplate, if_pos special, ih]
        rfl
      · simp only [not_or] at special
        change readTemplate (char :: (text.flatMap escapeChar ++ backtick :: rest)) = _
        rw [readTemplate_plain special.1 special.2.1 (fun same => notReturn same) special.2.2, ih]
        rfl

end Templates

section Lines

/-- The spaces behind a line feed. -/
def indentFeed (indent : List Char) (char : Char) : List Char :=
  if char = '\n' then '\n' :: indent else [char]

theorem splitLines_ne_nil (text : List Char) : splitLines text ≠ [] := by
  cases text with
  | nil => exact List.cons_ne_nil _ _
  | cons char text =>
      rw [splitLines]
      split_ifs
      · exact List.cons_ne_nil _ _
      · split <;> exact List.cons_ne_nil _ _

theorem intercalate_splitLines (indent : List Char) (text : List Char) :
    ['\n'].intercalate ((splitLines text).map fun line => indent ++ line) =
      indent ++ text.flatMap (indentFeed indent) := by
  induction text with
  | nil => simp [splitLines]
  | cons char text ih =>
      rcases List.exists_cons_of_ne_nil (splitLines_ne_nil text) with ⟨line, lines, isLines⟩
      rw [isLines, List.map_cons, intercalate_cons_flatMap, List.append_assoc,
        List.append_cancel_left_eq] at ih
      rw [splitLines, isLines, List.flatMap_cons, indentFeed, ← ih]
      split_ifs
      · simp [intercalate_cons_flatMap]
      · simp [intercalate_cons_flatMap]

theorem newline_mem_escape (text : List Char) :
    '\n' ∈ text.flatMap escapeChar ↔ '\n' ∈ text := by
  simp only [List.mem_flatMap, escapeChar]
  constructor
  · rintro ⟨char, among, member⟩
    split_ifs at member with special
    · simp only [List.mem_cons, List.not_mem_nil, or_false] at member
      rcases member with isBackslash | isChar
      · exact absurd isBackslash (by decide)
      · rw [isChar]
        exact among
    · rw [List.mem_singleton.mp member]
      exact among
  · intro among
    exact ⟨'\n', among, by decide⟩

theorem escape_spaces (count : ℕ) : (spaces count).flatMap escapeChar = spaces count := by
  have single : escapeChar ' ' = [' '] := by decide
  rw [spaces, List.flatMap_replicate, single, List.flatten_replicate_singleton]

theorem escape_indentFeed (count : ℕ) (text : List Char) :
    (text.flatMap escapeChar).flatMap (indentFeed (spaces count)) =
      (text.flatMap (indentFeed (spaces count))).flatMap escapeChar := by
  rw [List.flatMap_assoc, List.flatMap_assoc]
  refine List.flatMap_congr fun char _ => ?_
  by_cases feed : char = '\n'
  · rw [feed]
    simp [escapeChar, indentFeed, escape_spaces, backtick]
  · unfold escapeChar
    split_ifs with special
    · have notFeed : ('\\' : Char) ≠ '\n' := by decide
      simp [indentFeed, feed, notFeed, special]
    · simp [indentFeed, feed, special]

/-- The text between the backticks, before it is escaped. -/
def argument (statement : List Char) : List Char :=
  if '\n' ∉ statement then statement
  else
    '\n' :: spaces 8 ++ (statement.flatMap (indentFeed (spaces 8)) ++ '\n' :: spaces 4)

theorem formatStatement_eq (statement : List Char) :
    formatStatement statement =
      spaces 4 ++ (callStart ++ ((argument statement).flatMap escapeChar ++ callEnd)) := by
  unfold formatStatement argument
  simp only [escapeTemplate_eq, newline_mem_escape]
  have feed : escapeChar '\n' = ['\n'] := by decide
  split_ifs
  · rw [intercalate_splitLines, escape_indentFeed]
    simp [escape_spaces, feed]
  · simp

end Lines

section Bodies

variable {statements : List (List Char)} (lines : List (List Char))

theorem behind_append (start rest : List Char) : behind start (start ++ rest) = some rest := by
  rw [behind, if_pos (List.prefix_append start rest), List.drop_left]

theorem readBody_skip {front : List Char} (blank : ∀ char ∈ front, JsNumber.isWhiteSpace char)
    (budget : ℕ) (rest : List Char) : readBody budget (front ++ rest) = readBody budget rest := by
  cases budget with
  | zero => rfl
  | succ budget =>
      have same : (front ++ rest).dropWhile JsNumber.isWhiteSpace =
          rest.dropWhile JsNumber.isWhiteSpace :=
        List.dropWhile_append_of_pos blank
      rw [readBody, readBody, same]

theorem isWhiteSpace_of_mem_spaces {count : ℕ} {char : Char} (member : char ∈ spaces count) :
    JsNumber.isWhiteSpace char = true := by
  rw [List.eq_of_mem_replicate member]
  decide

theorem readBody_newline (budget : ℕ) (rest : List Char) :
    readBody budget ('\n' :: rest) = readBody budget rest :=
  readBody_skip (List.all_eq_true.mp (by decide) : ∀ char ∈ ['\n'], _) budget rest

theorem readBody_call (text rest : List Char) (budget : ℕ) :
    readBody (budget + 1) (callStart ++ (text.flatMap escapeChar ++ callEnd) ++ rest) =
      (readBody budget rest).map fun calls => normalizeNewlines text :: calls := by
  have start : callStart = 'a' :: callStart.tail := by decide
  have kept : (callStart ++ (text.flatMap escapeChar ++ callEnd) ++ rest).dropWhile
      JsNumber.isWhiteSpace = callStart ++ (text.flatMap escapeChar ++ callEnd) ++ rest := by
    rw [start]
    rfl
  have noComment : behind ['/', '/'] (callStart ++ (text.flatMap escapeChar ++ callEnd) ++ rest) =
      none := by
    rw [start]
    rfl
  have called : behind callStart (callStart ++ (text.flatMap escapeChar ++ callEnd) ++ rest) =
      some (text.flatMap escapeChar ++ backtick :: ([')', ';'] ++ rest)) := by
    rw [List.append_assoc, behind_append, callEnd]
    simp
  rw [readBody]
  simp only [kept, noComment, called, readTemplate_escape, Option.bind_some]
  rw [behind_append, Option.bind_some]

theorem readBody_comment {name : List Char} (oneLine : name.any JsText.isLineTerminator = false)
    (rest : List Char) (budget : ℕ) :
    readBody (budget + 1) (commentStart ++ name ++ '\n' :: rest) = readBody budget rest := by
  have start : commentStart = ['/', '/'] ++ commentStart.drop 2 := by decide
  have mark : ∀ char ∈ commentStart.drop 2, !JsText.isLineTerminator char :=
    List.all_eq_true.mp (by decide)
  have inner : ∀ char ∈ commentStart.drop 2 ++ name, !JsText.isLineTerminator char := by
    intro char member
    rcases List.mem_append.mp member with front | back
    · exact mark char front
    · rw [List.any_eq_false] at oneLine
      simpa using oneLine char back
  have behindMark : behind ['/', '/'] (commentStart ++ name ++ '\n' :: rest) =
      some (commentStart.drop 2 ++ name ++ '\n' :: rest) := by
    rw [start, List.append_assoc, List.append_assoc, behind_append]
    simp
  have kept : (commentStart ++ name ++ '\n' :: rest).dropWhile JsNumber.isWhiteSpace =
      commentStart ++ name ++ '\n' :: rest := by
    rw [start]
    rfl
  have left : (commentStart.drop 2 ++ name ++ '\n' :: rest).dropWhile
      (fun char => !JsText.isLineTerminator char) = '\n' :: rest := by
    rw [List.dropWhile_append_of_pos inner]
    rfl
  rw [readBody]
  simp only [kept, behindMark, left]
  rw [readBody_newline]

theorem readBody_end (budget : ℕ) : readBody (budget + 1) fileEnd = some [] := by
  have noComment : behind ['/', '/'] fileEnd = none := by decide
  have noCall : behind callStart fileEnd = none := by decide
  have ends : behind ['}', ')', ';'] fileEnd = some ['\n'] := by decide
  have kept : fileEnd.dropWhile JsNumber.isWhiteSpace = fileEnd := by decide
  rw [readBody]
  simp only [kept, noComment, noCall, ends]
  decide

theorem newline_first (tail : List Char) :
    ∃ rest, lines.flatMap (fun line => '\n' :: line) ++ '\n' :: tail = '\n' :: rest := by
  cases lines with
  | nil => exact ⟨tail, rfl⟩
  | cons line lines => exact ⟨_, rfl⟩

theorem readBody_entries (oneLine : ∀ text ∈ statements, commentPrefix <+: text →
      (text.drop commentPrefix.length).any JsText.isLineTerminator = false) {budget : ℕ}
    (enough : statements.length < budget) :
    readBody budget
        ((statements.flatMap fun text => (Entry.ofText text).lines).flatMap
          (fun line => '\n' :: line) ++ '\n' :: fileEnd) =
      some ((statements.filter fun text => ¬ commentPrefix <+: text).map fun text =>
        normalizeNewlines (argument text)) := by
  induction statements generalizing budget with
  | nil =>
      rcases Nat.exists_eq_succ_of_ne_zero (Nat.ne_of_gt enough) with ⟨budget, rfl⟩
      exact (readBody_newline _ _).trans (readBody_end budget)
  | cons text statements ih =>
      rcases Nat.exists_eq_succ_of_ne_zero (Nat.ne_of_gt (Nat.zero_lt_of_lt enough)) with
        ⟨budget, rfl⟩
      have rest := ih (fun other among => oneLine other (List.mem_cons_of_mem text among))
        (Nat.lt_of_succ_lt_succ enough)
      have here := oneLine text List.mem_cons_self
      rw [List.flatMap_cons, List.flatMap_append, List.append_assoc]
      by_cases isComment : commentPrefix <+: text
      · rw [List.filter_cons_of_neg (by simpa using isComment), ← rest, Entry.ofText,
          if_pos isComment]
        have flat : ∀ tail : List Char,
            (Entry.comment (text.drop commentPrefix.length)).lines.flatMap
                (fun line => '\n' :: line) ++ '\n' :: tail =
              '\n' :: '\n' :: (spaces 4 ++
                (commentStart ++ text.drop commentPrefix.length ++ '\n' :: tail)) := by
          intro tail
          simp [Entry.lines]
        rcases newline_first (statements.flatMap fun text => (Entry.ofText text).lines) fileEnd with
          ⟨tail, isTail⟩
        rw [isTail, flat, readBody_newline, readBody_newline,
          readBody_skip (fun char => isWhiteSpace_of_mem_spaces), readBody_comment (here isComment),
          readBody_newline]
      · rw [List.filter_cons_of_pos (by simpa using isComment), List.map_cons, Entry.ofText,
          if_neg isComment]
        have flat : ∀ tail : List Char,
            (Entry.statement text).lines.flatMap (fun line => '\n' :: line) ++ tail =
              '\n' :: (spaces 4 ++
                (callStart ++ ((argument text).flatMap escapeChar ++ callEnd) ++ tail)) := by
          intro tail
          simp [Entry.lines, formatStatement_eq]
        rw [flat, readBody_newline, readBody_skip (fun char => isWhiteSpace_of_mem_spaces),
          readBody_call, rest, Option.map_some]

theorem length_le_intercalate : lines.length ≤ (['\n'].intercalate lines).length + 1 := by
  cases lines with
  | nil => exact Nat.zero_le _
  | cons line lines =>
      have short : lines.length ≤ (lines.flatMap fun line => ['\n'] ++ line).length := by
        rw [List.length_flatMap]
        refine le_trans ?_ (List.length_le_sum_of_one_le _ ?_)
        · rw [List.length_map]
        · intro count member
          rcases List.mem_map.mp member with ⟨text, _, rfl⟩
          exact Nat.succ_pos _
      rw [intercalate_cons_flatMap, List.length_append, List.length_cons]
      omega

theorem readBody_intercalate (budget : ℕ) :
    readBody budget (['\n'].intercalate lines ++ '\n' :: fileEnd) =
      readBody budget (lines.flatMap (fun line => '\n' :: line) ++ '\n' :: fileEnd) := by
  cases lines with
  | nil => rfl
  | cons line lines =>
      rw [← readBody_newline, intercalate_cons_flatMap]
      rfl

theorem lines_ne_nil (entry : Entry) : entry.lines ≠ [] := by
  cases entry with
  | statement text => exact List.cons_ne_nil _ _
  | comment name => exact List.cons_ne_nil _ _

theorem evaluate_file (oneLine : ∀ text ∈ statements, commentPrefix <+: text →
      (text.drop commentPrefix.length).any JsText.isLineTerminator = false) :
    evaluate (buildMigrationFileContent statements) =
      some ((statements.filter fun text => ¬ commentPrefix <+: text).map fun text =>
        normalizeNewlines (argument text)) := by
  have entries : statements.length ≤
      (statements.flatMap fun text => (Entry.ofText text).lines).length := by
    rw [List.length_flatMap]
    refine le_trans ?_ (List.length_le_sum_of_one_le _ ?_)
    · rw [List.length_map]
    · intro count member
      rcases List.mem_map.mp member with ⟨text, _, rfl⟩
      exact List.length_pos_iff.mpr (lines_ne_nil _)
  have lines := length_le_intercalate
    (statements.flatMap fun text => (Entry.ofText text).lines)
  rw [evaluate, buildMigrationFileContent, List.append_assoc, behind_append, Option.bind_some,
    readBody_intercalate]
  refine readBody_entries oneLine ?_
  rw [List.length_append, List.length_cons]
  omega

end Bodies

section Quotes

variable {lexis : Lexis} {mode : Mode} {gap : Gap} {char : Char} {text rest : List Char} (count : ℕ)

theorem Mode.next_of_blank (blank : isSqlSpace char = true) :
    mode.next lexis char = mode.blank char := if_pos blank

theorem Mode.quoted_blank (char : Char) : (mode.blank char).quoted = mode.quoted := by
  cases mode with
  | lineComment =>
      rw [Mode.blank]
      split_ifs <;> rfl
  | _ => rfl

theorem Mode.blank_feed_space : (mode.blank '\n').blank ' ' = mode.blank '\n' := by
  cases mode <;> rfl

theorem Gap.widen_feed_space :
    (gap.widen mode '\n').widen (mode.blank '\n') ' ' = gap.widen mode '\n' := by
  cases mode <;> cases gap <;> rfl

theorem isSqlSpace_of_mem_spaces {count : ℕ} (member : char ∈ spaces count) :
    isSqlSpace char = true := by
  rw [List.eq_of_mem_replicate member]
  decide

theorem isSqlSpace_of_mem_indent {count : ℕ} (member : char ∈ '\n' :: spaces count) :
    isSqlSpace char = true := by
  rcases List.mem_cons.mp member with rfl | space
  · decide
  · exact isSqlSpace_of_mem_spaces space

theorem significant_blank (outside : mode.quoted = false) (blank : isSqlSpace char = true)
    (rest : List Char) :
    significant lexis mode gap (char :: rest) =
      significant lexis (mode.blank char) (gap.widen mode char) rest := by
  rw [significant, outside, if_neg Bool.false_ne_true, if_pos blank, Mode.next_of_blank blank]

theorem significant_indent (outside : mode.quoted = false) (count : ℕ) (rest : List Char) :
    significant lexis mode gap ('\n' :: (spaces count ++ rest)) =
      significant lexis mode gap ('\n' :: rest) := by
  have onwards : significant lexis (mode.blank '\n') (gap.widen mode '\n') (spaces count ++ rest) =
      significant lexis (mode.blank '\n') (gap.widen mode '\n') rest := by
    induction count with
    | zero => rfl
    | succ count ih =>
        rw [spaces, List.replicate_succ, List.cons_append,
          significant_blank ((mode.quoted_blank '\n').trans outside) (by decide),
          Mode.blank_feed_space, Gap.widen_feed_space]
        exact ih
  rw [significant_blank outside (by decide), onwards, significant_blank outside (by decide)]

theorem significant_leading (rest : List Char) :
    significant lexis .start .space ('\n' :: (spaces count ++ rest)) =
      significant lexis .start .space rest := by
  rw [significant_indent rfl, significant_blank rfl (by decide)]
  rfl

theorem significant_nil_of_blank {back : List Char} (blank : ∀ char ∈ back, isSqlSpace char = true)
    (outside : mode.quoted = false) : significant lexis mode gap back = [] := by
  induction back generalizing mode gap with
  | nil => rfl
  | cons char back ih =>
      rw [significant_blank outside (blank char List.mem_cons_self)]
      exact ih (fun other among => blank other (List.mem_cons_of_mem char among))
        ((mode.quoted_blank char).trans outside)

theorem significant_trailing {back : List Char} (blank : ∀ char ∈ back, isSqlSpace char = true)
    (closed : (mode.behind lexis text).quoted = false) :
    significant lexis mode gap (text ++ back) = significant lexis mode gap text := by
  induction text generalizing mode gap with
  | nil => exact significant_nil_of_blank blank closed
  | cons char text ih =>
      have onwards : ((mode.next lexis char).behind lexis text).quoted = false := closed
      rw [List.cons_append, significant, significant, ih onwards, ih onwards]

theorem quotedText_eq (text : List Char) : quotedText lexis mode text =
    ((significant lexis mode gap text).filter Prod.fst).map Prod.snd := by
  induction text generalizing mode gap with
  | nil => rfl
  | cons char text ih =>
      rw [quotedText, significant]
      split_ifs
      · rw [List.filter_cons_of_pos rfl, List.map_cons, ← ih]
      · exact ih
      · rw [List.filter_append, List.filter_cons_of_neg Bool.false_ne_true, List.map_append, ← ih]
        cases gap <;> rfl

theorem quotedText_of_sameSql {left right : List Char} (same : SameSql lexis left right) :
    quotedText lexis .start left = quotedText lexis .start right := by
  rw [SameSql] at same
  exact (quotedText_eq left).trans (same ▸ (quotedText_eq right).symm)

theorem quotedText_blank (outside : mode.quoted = false) (blank : isSqlSpace char = true) :
    quotedText lexis mode (char :: rest) = quotedText lexis (mode.blank char) rest := by
  rw [quotedText, outside, if_neg Bool.false_ne_true, Mode.next_of_blank blank]

theorem quoted_of_not_mem (free : char ∉ quotedText lexis mode (char :: rest)) :
    mode.quoted = false := by
  by_contra inside
  rw [quotedText, if_pos (by simpa using inside)] at free
  exact free List.mem_cons_self

theorem not_mem_quotedText_next {found : Char}
    (free : found ∉ quotedText lexis mode (char :: rest)) :
    found ∉ quotedText lexis (mode.next lexis char) rest := by
  rw [quotedText] at free
  split_ifs at free
  · exact fun member => free (List.mem_cons_of_mem char member)
  · exact free

theorem Mode.blank_return : mode.blank '\r' = mode.blank '\n' := by
  cases mode <;> rfl

theorem Gap.widen_return : gap.widen mode '\r' = gap.widen mode '\n' := by
  cases mode <;> cases gap <;> rfl

theorem Mode.blank_feed_feed : (mode.blank '\n').blank '\n' = mode.blank '\n' := by
  cases mode <;> rfl

theorem Gap.widen_feed_feed :
    (gap.widen mode '\n').widen (mode.blank '\n') '\n' = gap.widen mode '\n' := by
  cases mode <;> cases gap <;> rfl

theorem significant_normalizeNewlines (noReturn : '\r' ∉ quotedText lexis mode text) :
    significant lexis mode gap (normalizeNewlines text) = significant lexis mode gap text := by
  fun_induction normalizeNewlines text generalizing mode gap with
  | case1 => rfl
  | case2 text ih =>
      have outside := quoted_of_not_mem noReturn
      have still : (mode.blank '\n').quoted = false := (mode.quoted_blank '\n').trans outside
      rw [quotedText_blank outside (by decide), Mode.blank_return,
        quotedText_blank still (by decide), Mode.blank_feed_feed] at noReturn
      rw [significant_blank outside (by decide), ih noReturn,
        significant_blank outside (by decide), Mode.blank_return, Gap.widen_return,
        significant_blank still (by decide), Mode.blank_feed_feed, Gap.widen_feed_feed]
  | case3 text _ ih =>
      have outside := quoted_of_not_mem noReturn
      rw [quotedText_blank outside (by decide), Mode.blank_return] at noReturn
      rw [significant_blank outside (by decide), ih noReturn,
        significant_blank outside (by decide), Mode.blank_return, Gap.widen_return]
  | case4 char text _ _ ih =>
      have onwards := not_mem_quotedText_next noReturn
      rw [significant, significant, ih onwards, ih onwards]

theorem return_not_mem_normalizeNewlines (text : List Char) : '\r' ∉ normalizeNewlines text := by
  fun_induction normalizeNewlines text with
  | case1 => exact List.not_mem_nil
  | case2 text ih => simpa using ih
  | case3 text _ ih => simpa using ih
  | case4 char text _ notReturn ih => simpa using ⟨fun same => notReturn same.symm, ih⟩

theorem Mode.behind_append (front back : List Char) :
    mode.behind lexis (front ++ back) = (mode.behind lexis front).behind lexis back :=
  List.foldl_append

theorem quotedText_append (front back : List Char) :
    quotedText lexis mode (front ++ back) =
      quotedText lexis mode front ++ quotedText lexis (mode.behind lexis front) back := by
  induction front generalizing mode with
  | nil => rfl
  | cons char front ih =>
      rw [List.cons_append, quotedText, quotedText, ih]
      split_ifs <;> rfl

theorem quotedText_of_blank {front : List Char} (blank : ∀ char ∈ front, isSqlSpace char = true) :
    quotedText lexis mode front = if mode.quoted then front else [] := by
  induction front generalizing mode with
  | nil => simp [quotedText]
  | cons char front ih =>
      have behind : (mode.next lexis char).quoted = mode.quoted := by
        rw [Mode.next_of_blank (blank char List.mem_cons_self), Mode.quoted_blank]
      rw [quotedText, ih fun other among => blank other (List.mem_cons_of_mem char among), behind]
      split_ifs <;> rfl

theorem Mode.behind_indent : mode.behind lexis ('\n' :: spaces count) = mode.blank '\n' := by
  have onwards : (mode.blank '\n').behind lexis (spaces count) = mode.blank '\n' := by
    induction count with
    | zero => rfl
    | succ count ih =>
        have space : (mode.blank '\n').next lexis ' ' = mode.blank '\n' :=
          (Mode.next_of_blank (by decide)).trans Mode.blank_feed_space
        rw [spaces, List.replicate_succ, Mode.behind, List.foldl_cons, space]
        exact ih
  exact onwards

theorem Mode.next_feed : mode.next lexis '\n' = mode.blank '\n' := Mode.next_of_blank (by decide)

theorem quotedText_indentFeed (text : List Char) :
    quotedText lexis mode (text.flatMap (indentFeed (spaces count))) =
        (quotedText lexis mode text).flatMap (indentFeed (spaces count)) ∧
      mode.behind lexis (text.flatMap (indentFeed (spaces count))) = mode.behind lexis text := by
  induction text generalizing mode with
  | nil => exact ⟨rfl, rfl⟩
  | cons char text ih =>
      have onwards := @ih (mode.next lexis char)
      rw [List.flatMap_cons, quotedText_append, Mode.behind_append]
      by_cases feed : char = '\n'
      · have indented : indentFeed (spaces count) char = '\n' :: spaces count := if_pos feed
        rw [feed, Mode.next_feed] at onwards
        rw [indented, Mode.behind_indent, onwards.1, onwards.2,
          quotedText_of_blank fun other => isSqlSpace_of_mem_indent, feed, quotedText,
          Mode.next_feed]
        refine ⟨?_, by rw [Mode.behind, Mode.behind, List.foldl_cons, Mode.next_feed]⟩
        split_ifs
        · rw [List.flatMap_cons, indentFeed, if_pos rfl]
        · rfl
      · have single : indentFeed (spaces count) char = [char] := if_neg feed
        have next : mode.behind lexis [char] = mode.next lexis char := rfl
        rw [single, next, onwards.1, onwards.2, quotedText, quotedText, quotedText]
        refine ⟨?_, rfl⟩
        split_ifs
        · rw [List.flatMap_cons, single]
        · rfl

theorem significant_indentFeed (noFeed : '\n' ∉ quotedText lexis mode text) :
    significant lexis mode gap (text.flatMap (indentFeed (spaces count))) =
      significant lexis mode gap text := by
  induction text generalizing mode gap with
  | nil => rfl
  | cons char text ih =>
      have onwards := not_mem_quotedText_next noFeed
      rw [List.flatMap_cons]
      by_cases feed : char = '\n'
      · have indented : indentFeed (spaces count) char = '\n' :: spaces count := if_pos feed
        rw [feed] at noFeed onwards
        have outside := quoted_of_not_mem noFeed
        rw [indented, List.cons_append, significant_indent outside, feed,
          significant_blank outside (by decide), significant_blank outside (by decide),
          ← Mode.next_feed, ih onwards]
      · have single : indentFeed (spaces count) char = [char] := if_neg feed
        rw [single, List.singleton_append, significant, significant, ih onwards, ih onwards]

end Quotes

section Replay

variable {lexis : Lexis} {statement : List Char}

theorem behind_argument (statement : List Char) :
    Mode.start.behind lexis ('\n' :: spaces 8 ++ statement.flatMap (indentFeed (spaces 8))) =
      Mode.start.behind lexis statement := by
  rw [Mode.behind_append, Mode.behind_indent]
  exact (quotedText_indentFeed 8 statement).2

theorem quotedText_argument (feed : '\n' ∈ statement) :
    quotedText lexis .start (argument statement) =
      (quotedText lexis .start statement).flatMap (indentFeed (spaces 8)) ++
        quotedText lexis (Mode.start.behind lexis statement) ('\n' :: spaces 4) := by
  have leading : quotedText lexis .start ('\n' :: spaces 8) = [] :=
    quotedText_of_blank fun char => isSqlSpace_of_mem_indent
  rw [argument, if_neg (not_not_intro feed), ← List.append_assoc, quotedText_append,
    behind_argument, quotedText_append, leading, Mode.behind_indent, List.nil_append]
  exact congrArg (· ++ _) (quotedText_indentFeed 8 statement).1

theorem length_indentFeed (count : ℕ) (text : List Char) :
    (text.flatMap (indentFeed (spaces count))).length = text.length + text.count '\n' * count := by
  induction text with
  | nil => simp
  | cons char text ih =>
      rw [List.flatMap_cons, List.length_append, ih, List.count_cons, List.length_cons, indentFeed]
      split_ifs <;> simp_all [spaces] <;> ring

theorem quotedText_subset (mode : Mode) (text : List Char) :
    quotedText lexis mode text ⊆ text := by
  induction text generalizing mode with
  | nil => exact List.Subset.refl _
  | cons char text ih =>
      rw [quotedText]
      split_ifs
      · exact List.cons_subset_cons char (ih _)
      · exact List.Subset.trans (ih _) (List.subset_cons_self char text)

theorem return_not_mem_argument (noReturn : '\r' ∉ quotedText lexis .start statement) :
    '\r' ∉ quotedText lexis .start (argument statement) := by
  by_cases feed : '\n' ∈ statement
  · rw [quotedText_argument feed, List.mem_append, not_or]
    constructor
    · intro member
      rcases List.mem_flatMap.mp member with ⟨char, among, isReturn⟩
      rw [indentFeed] at isReturn
      split_ifs at isReturn
      · exact absurd isReturn (by decide)
      · rw [List.mem_singleton.mp isReturn] at noReturn
        exact noReturn among
    · intro member
      exact absurd (quotedText_subset _ _ member) (by decide)
  · rw [argument, if_pos feed]
    exact noReturn

theorem sameSql_argument_iff (statement : List Char) :
    SameSql lexis statement (normalizeNewlines (argument statement)) ↔ Clean lexis statement := by
  constructor
  · intro same
    have quoted := quotedText_of_sameSql same
    have noReturn : '\r' ∉ quotedText lexis .start statement := by
      rw [quoted]
      exact fun member =>
        return_not_mem_normalizeNewlines _ (quotedText_subset _ _ member)
    rw [quotedText_of_sameSql
      (significant_normalizeNewlines (return_not_mem_argument noReturn))] at quoted
    by_cases feed : '\n' ∈ statement
    · -- Each quoted line feed and an open mark make the quoted text longer.
      have lengths := congrArg List.length quoted
      rw [quotedText_argument feed, List.length_append, length_indentFeed] at lengths
      have noFeed : (quotedText lexis .start statement).count '\n' = 0 := by omega
      refine ⟨fun char member => ⟨?_, ?_⟩, fun _ => ?_⟩
      · rintro rfl
        exact List.count_eq_zero.mp noFeed member
      · rintro rfl
        exact noReturn member
      · by_contra isOpen
        rw [quotedText_of_blank fun char => isSqlSpace_of_mem_indent,
          if_pos (by simpa using isOpen), List.length_cons] at lengths
        omega
    · refine ⟨fun char member => ⟨?_, ?_⟩, fun member => absurd member feed⟩
      · rintro rfl
        exact feed (quotedText_subset _ _ member)
      · rintro rfl
        exact noReturn member
  · intro clean
    have noReturn : '\r' ∉ quotedText lexis .start statement :=
      fun member => (clean.oneLine _ member).2 rfl
    have noFeed : '\n' ∉ quotedText lexis .start statement :=
      fun member => (clean.oneLine _ member).1 rfl
    rw [SameSql, significant_normalizeNewlines (return_not_mem_argument noReturn), argument]
    split_ifs with feed
    · have closed : (Mode.start.behind lexis ('\n' :: spaces 8 ++
          statement.flatMap (indentFeed (spaces 8)))).quoted = false := by
        rw [behind_argument]
        exact clean.closed feed
      rw [← List.append_assoc,
        significant_trailing (fun char => isSqlSpace_of_mem_indent) closed, List.cons_append,
        significant_leading, significant_indentFeed 8 noFeed]
    · rfl

theorem Clean.of_all
    (oneLine :
      (quotedText lexis .start statement).all (fun char => char ≠ '\n' && char ≠ '\r') = true)
    (closed : (Mode.start.behind lexis statement).quoted = false) : Clean lexis statement := by
  refine ⟨fun char member => ?_, fun _ => closed⟩
  simpa using List.all_eq_true.mp oneLine char member

/-- The file executes the statements of the plan, up to white space outside of quotes. -/
def Replays (lexis : Lexis) (statements : List (List Char)) : Prop :=
  ∃ calls, evaluate (buildMigrationFileContent statements) = some calls ∧
    (statements.filter fun text => ¬ commentPrefix <+: text).Forall₂ (SameSql lexis) calls

/-- A plan is replayed exactly when its statements are clean, in any reading of SQL. -/
theorem replays_iff (lexis : Lexis) {statements : List (List Char)}
    (oneLine : ∀ text ∈ statements, commentPrefix <+: text →
      (text.drop commentPrefix.length).any JsText.isLineTerminator = false) :
    Replays lexis statements ↔
      ∀ text ∈ statements, ¬ commentPrefix <+: text → Clean lexis text := by
  have calls := evaluate_file oneLine
  have texts : (∃ calls, evaluate (buildMigrationFileContent statements) = some calls ∧
      (statements.filter fun text => ¬ commentPrefix <+: text).Forall₂ (SameSql lexis) calls) ↔
      ∀ text ∈ statements.filter fun text => ¬ commentPrefix <+: text,
        SameSql lexis text (normalizeNewlines (argument text)) := by
    simp only [calls, Option.some.injEq, exists_eq_left', List.forall₂_map_right_iff,
      List.forall₂_same]
  rw [Replays, texts]
  simp only [sameSql_argument_iff, List.mem_filter, decide_eq_true_eq, and_imp]

theorem replays_plan : Replays .scanner ["INSERT INTO t\nVALUES ('a\\' b')".toList,
    commentPrefix ++ ['t'], "-- it's\nDO $a$ BEGIN 'c; $a$".toList] := by
  refine (replays_iff .scanner (by decide +kernel)).mpr fun text among statement => ?_
  simp only [List.mem_cons, List.not_mem_nil, or_false] at among
  rcases among with rfl | rfl | rfl
  · exact .of_all (by decide +kernel) (by decide +kernel)
  · exact absurd (List.prefix_append commentPrefix ['t']) statement
  · exact .of_all (by decide +kernel) (by decide +kernel)

/-- A line feed in a quoted value is replayed with eight spaces behind it. -/
theorem quoted_lines_indented : ¬ Replays .scanner ["INSERT INTO t VALUES ('a\nb')".toList] := by
  rintro ⟨calls, read, same⟩
  have found : evaluate (buildMigrationFileContent ["INSERT INTO t VALUES ('a\nb')".toList]) =
      some ["\n        INSERT INTO t VALUES ('a\n        b')\n    ".toList] := by
    decide +kernel
  have differ : ¬ SameSql .scanner "INSERT INTO t VALUES ('a\nb')".toList
      "\n        INSERT INTO t VALUES ('a\n        b')\n    ".toList := by
    unfold SameSql
    decide +kernel
  have kept : ["INSERT INTO t VALUES ('a\nb')".toList].filter
      (fun text => ¬ commentPrefix <+: text) = ["INSERT INTO t VALUES ('a\nb')".toList] := by
    decide +kernel
  rw [found] at read
  cases read
  rw [kept, List.forall₂_cons] at same
  exact differ same.1

end Replay

end ServerFoundation.Migrations
