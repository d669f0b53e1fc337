import ServerFoundation.Schema.ColumnDefaults

/-!
# Defaults in the catalogue

Casts are removed piece by piece between quotation marks, so what is left of a quoted text can
be compared with the text. A default is kept when its text is taken for the text or the number
that it is.
-/

namespace ServerFoundation.Schema

open Sql

section Casts

variable (text : List Char) {front : Char → Bool} {char mark : Char}

theorem takeWhile_cut (stops : front char = false) (text rest : List Char) :
    (text ++ char :: rest).takeWhile front = text.takeWhile front := by
  induction text with
  | nil => rw [List.nil_append, List.takeWhile_cons_of_neg (by simp [stops])]; rfl
  | cons first text ih =>
      by_cases taken : front first = true
      · rw [List.cons_append, List.takeWhile_cons_of_pos taken, List.takeWhile_cons_of_pos taken,
          ih]
      · rw [List.cons_append, List.takeWhile_cons_of_neg taken, List.takeWhile_cons_of_neg taken]

theorem dropWhile_cut (stops : front char = false) (text rest : List Char) :
    (text ++ char :: rest).dropWhile front = text.dropWhile front ++ char :: rest := by
  induction text with
  | nil => rw [List.nil_append, List.dropWhile_cons_of_neg (by simp [stops])]; rfl
  | cons first text ih =>
      by_cases taken : front first = true
      · rw [List.cons_append, List.dropWhile_cons_of_pos taken, List.dropWhile_cons_of_pos taken,
          ih]
      · rw [List.cons_append, List.dropWhile_cons_of_neg taken, List.dropWhile_cons_of_neg taken]
        rfl

/-- A character that belongs to no cast. -/
def OutsideCasts (mark : Char) : Prop := isCastChar mark = false ∧ mark ∉ [':', '[', ']']

theorem quote_outside : OutsideCasts '\'' := ⟨by decide, by decide⟩

theorem brackets_cut (outside : OutsideCasts mark) (text rest : List Char) :
    ['[', ']'] <+: text ++ mark :: rest ↔ ['[', ']'] <+: text := by
  have other : '[' ≠ mark ∧ ']' ≠ mark := by
    constructor <;> rintro rfl <;> exact outside.2 (by decide)
  rcases text with _ | ⟨first, _ | ⟨second, text⟩⟩ <;> simp [other.1, other.2]

theorem castLength_other {first second : Char} (other : ¬ (first = ':' ∧ second = ':'))
    (tail : List Char) : castLength (first :: second :: tail) = 0 := by
  unfold castLength
  split
  · rename_i shape
    simp only [List.cons.injEq] at shape
    exact absurd ⟨shape.1, shape.2.1⟩ other
  · rfl

theorem castLength_of_ne (other : char ≠ ':') (text : List Char) :
    castLength (char :: text) = 0 := by
  unfold castLength
  split
  · rename_i shape
    exact absurd (List.cons.inj shape).1 other
  · rfl

theorem castLength_cut (outside : OutsideCasts mark) (text rest : List Char) :
    castLength (text ++ mark :: rest) = castLength text := by
  rcases text with _ | ⟨first, _ | ⟨second, text⟩⟩
  · exact castLength_of_ne (fun colon => outside.2 (by rw [colon]; decide)) rest
  · have single : castLength [first] = 0 := by
      unfold castLength
      split
      · rename_i shape
        cases (List.cons.inj shape).2
      · rfl
    rw [single]
    exact castLength_other (fun colons => outside.2 (by rw [colons.2]; decide)) rest
  · by_cases colons : first = ':' ∧ second = ':'
    · rcases colons with ⟨rfl, rfl⟩
      simp only [List.cons_append, castLength]
      rw [takeWhile_cut outside.1, dropWhile_cut outside.1]
      simp only [brackets_cut outside]
    · rw [castLength_other colons]
      exact castLength_other colons _

theorem castLength_le : castLength text ≤ text.length := by
  unfold castLength
  split
  · rename_i rest
    have parts := congrArg List.length
      (List.takeWhile_append_dropWhile (p := isCastChar) (l := rest))
    rw [List.length_append] at parts
    split_ifs with none brackets
    · exact Nat.zero_le _
    · have two := brackets.length_le
      simp only [List.length_cons, List.length_nil] at two ⊢
      omega
    · simp only [List.length_cons]
      omega
  · exact Nat.zero_le _

theorem removeCasts_cons_of_ne (other : char ≠ ':') (text : List Char) :
    removeCasts 0 (char :: text) = char :: removeCasts 0 text := by
  rw [removeCasts, castLength_of_ne other]

theorem removeCasts_cut (outside : OutsideCasts mark) {skipped : ℕ} {text : List Char}
    (enough : skipped ≤ text.length) (rest : List Char) :
    removeCasts skipped (text ++ mark :: rest) =
      removeCasts skipped text ++ mark :: removeCasts 0 rest := by
  induction text generalizing skipped with
  | nil =>
      cases Nat.le_zero.mp enough
      exact removeCasts_cons_of_ne (fun colon => outside.2 (by rw [colon]; decide)) rest
  | cons char text ih =>
      rw [List.cons_append]
      cases skipped with
      | succ skipped =>
          rw [removeCasts, removeCasts, ih (Nat.le_of_succ_le_succ enough)]
      | zero =>
          have same : castLength (char :: (text ++ mark :: rest)) = castLength (char :: text) :=
            castLength_cut outside (char :: text) rest
          have within := castLength_le (char :: text)
          rw [removeCasts, removeCasts, same]
          cases length : castLength (char :: text) with
          | zero =>
              simp only
              rw [ih (Nat.zero_le _)]
              rfl
          | succ length' =>
              simp only
              rw [length, List.length_cons] at within
              rw [ih (Nat.le_of_succ_le_succ within)]

theorem removeCasts_sublist (skipped : ℕ) (text : List Char) :
    (removeCasts skipped text).Sublist text := by
  induction text generalizing skipped with
  | nil => cases skipped <;> exact List.Sublist.slnil
  | cons char text ih =>
      cases skipped with
      | succ skipped => exact (ih skipped).cons char
      | zero =>
          rw [removeCasts]
          split
          · exact (ih 0).cons_cons char
          · exact (ih _).cons char

theorem quoteInduction {motive : List Char → Prop}
    (plain : ∀ text, '\'' ∉ text → motive text)
    (quote : ∀ front back, '\'' ∉ front → motive back → motive (front ++ '\'' :: back))
    (text : List Char) : motive text := by
  by_cases member : '\'' ∈ text
  · rcases List.eq_append_cons_of_mem member with ⟨front, back, isText, free⟩
    have shorter : back.length < text.length := by
      rw [isText, List.length_append, List.length_cons]
      omega
    rw [isText]
    exact quote front back free (quoteInduction plain quote back)
  · exact plain text member
termination_by text.length

theorem removeCasts_doubled : removeCasts 0 (doubled text) = doubled (removeCasts 0 text) := by
  induction text using quoteInduction with
  | plain text free =>
      have freeLeft : '\'' ∉ removeCasts 0 text := fun member =>
        free ((removeCasts_sublist 0 text).mem member)
      rw [doubled_of_not_mem free, doubled_of_not_mem freeLeft]
  | quote front back free ih =>
      have freeLeft : '\'' ∉ removeCasts 0 front := fun member =>
        free ((removeCasts_sublist 0 front).mem member)
      have mark : removeCasts 0 ('\'' :: doubled back) = '\'' :: removeCasts 0 (doubled back) := rfl
      rw [doubled_append, doubled_quote, doubled_of_not_mem free,
        removeCasts_cut quote_outside (Nat.zero_le _), mark, ih,
        removeCasts_cut quote_outside (Nat.zero_le _), doubled_append, doubled_quote,
        doubled_of_not_mem freeLeft]

theorem count_removeCasts : (removeCasts 0 text).count '\'' = text.count '\'' := by
  induction text using quoteInduction with
  | plain text free =>
      rw [List.count_eq_zero.mpr free, List.count_eq_zero.mpr fun member =>
        free ((removeCasts_sublist 0 text).mem member)]
  | quote front back free ih =>
      rw [removeCasts_cut quote_outside (Nat.zero_le _), List.count_append, List.count_append,
        List.count_cons_self, List.count_cons_self, ih, List.count_eq_zero.mpr free,
        List.count_eq_zero.mpr fun member => free ((removeCasts_sublist 0 front).mem member)]

theorem removeCasts_of_length_le {skipped : ℕ} {text : List Char} (all : text.length ≤ skipped) :
    removeCasts skipped text = [] := by
  induction text generalizing skipped with
  | nil => cases skipped <;> rfl
  | cons char text ih =>
      rcases Nat.exists_eq_add_of_le' (Nat.le_trans (Nat.succ_le_succ (Nat.zero_le _)) all) with
        ⟨skipped, rfl⟩
      exact ih (Nat.le_of_succ_le_succ all)

variable {cast : CastType}

theorem CastType.Plain.text_eq (plain : cast.Plain) :
    cast.text = ':' :: ':' :: (cast.name.name ++ cast.suffix) := by
  rw [CastType.text, plain.1, CatalogueName.text, if_neg (by simp [plain.2])]
  rfl

theorem removeCasts_castType (plain : cast.Plain) : removeCasts 0 cast.text = [] := by
  rcases cast.name.words plain.2 with ⟨nonempty, words⟩
  have name : ∀ char ∈ cast.name.name, isCastChar char = true := List.all_eq_true.mp words
  have length : castLength cast.text = cast.text.length := by
    rw [plain.text_eq, castLength,
      List.takeWhile_append_of_pos name, List.dropWhile_append_of_pos name]
    have stops : ∀ suffix : List Char, suffix = [] ∨ suffix = ['[', ']'] →
        suffix.takeWhile isCastChar = [] ∧ suffix.dropWhile isCastChar = suffix := by
      rintro suffix (rfl | rfl) <;> decide
    rw [CastType.suffix]
    cases cast.list with
    | false =>
        simp only [Bool.false_eq_true, if_false, List.takeWhile_nil, List.dropWhile_nil,
          List.append_nil, if_neg nonempty]
        simp
        omega
    | true =>
        have suffix := stops ['[', ']'] (Or.inr rfl)
        simp only [if_true, suffix, List.append_nil, if_neg nonempty, List.prefix_rfl]
        simp
        omega
  have shape : cast.text = ':' :: cast.text.tail := rfl
  have positive : cast.text.length = cast.text.tail.length + 1 := rfl
  rw [shape, removeCasts, ← shape, length, positive]
  exact removeCasts_of_length_le le_rfl

theorem removeCasts_of_not_mem {text : List Char} (free : ':' ∉ text) :
    removeCasts 0 text = text := by
  induction text with
  | nil => rfl
  | cons char text ih =>
      rw [List.mem_cons, not_or] at free
      rw [removeCasts_cons_of_ne (Ne.symm free.1), ih free.2]

theorem CastType.not_mem_suffix (other : char ∉ ['[', ']']) : char ∉ cast.suffix := by
  rw [CastType.suffix]
  split
  · exact other
  · exact List.not_mem_nil

theorem CatalogueName.not_mem_name {name : CatalogueName} (plain : name.quoted = false)
    (outside : isCastChar mark = false) : mark ∉ name.name := fun member => by
  have inside := List.all_eq_true.mp (name.words plain).2 mark member
  rw [outside] at inside
  cases inside

theorem removeCasts_of_not_plain (other : ¬ cast.Plain) :
    ∃ front mark back, removeCasts 0 cast.text = front ++ mark :: back ∧ '\'' ∉ mark :: back := by
  have cut (front back : List Char) {mark : Char} (outside : OutsideCasts mark)
      (whole : cast.text = front ++ mark :: back) (colon : ':' ∉ back)
      (quote : '\'' ∉ mark :: back) :
      ∃ front mark back, removeCasts 0 cast.text = front ++ mark :: back ∧ '\'' ∉ mark :: back :=
    ⟨_, mark, back, by
      rw [whole, removeCasts_cut outside (Nat.zero_le _), removeCasts_of_not_mem colon], quote⟩
  by_cases plain : cast.name.quoted = false
  · have qualified : cast.schemas ≠ [] := fun none => other ⟨none, plain⟩
    rcases List.eq_nil_or_concat cast.schemas with none | ⟨schemas, schema, isLast⟩
    · exact absurd none qualified
    have isName : cast.name.text = cast.name.name := if_neg (by simp [plain])
    refine cut (':' :: ':' :: (schemas.flatMap (fun schema => schema.text ++ ['.']) ++ schema.text))
      (cast.name.name ++ cast.suffix) (⟨by decide, by decide⟩ : OutsideCasts '.') ?_ ?_ ?_
    · rw [CastType.text, isLast, isName]
      simp
    · rw [List.mem_append, not_or]
      exact ⟨cast.name.not_mem_name plain (by decide), cast.not_mem_suffix (by decide)⟩
    · rw [List.mem_cons, List.mem_append, not_or, not_or]
      exact ⟨by decide, cast.name.not_mem_name plain (by decide), cast.not_mem_suffix (by decide)⟩
  · have isName : cast.name.text = '"' :: cast.name.name.flatMap
        (fun char => if char = '"' then ['"', '"'] else [char]) ++ ['"'] :=
      if_pos (by simpa using plain)
    refine cut (':' :: ':' :: (cast.schemas.flatMap (fun schema => schema.text ++ ['.']) ++
      '"' :: cast.name.name.flatMap fun char => if char = '"' then ['"', '"'] else [char])) _
      (⟨by decide, by decide⟩ : OutsideCasts '"') ?_ (cast.not_mem_suffix (by decide)) ?_
    · rw [CastType.text, isName]
      simp
    · rw [List.mem_cons, not_or]
      exact ⟨by decide, cast.not_mem_suffix (by decide)⟩

end Casts

section Quotes

variable (text : List Char)

theorem stripQuotes_enclosed (inner : List Char) :
    stripQuotes ('\'' :: (inner ++ ['\''])) =
      if inner.any JsText.isLineTerminator = false then inner else '\'' :: (inner ++ ['\'']) := by
  rw [stripQuotes]
  simp

theorem stripQuotes_cases :
    stripQuotes text = text ∨ text = '\'' :: (stripQuotes text ++ ['\'']) := by
  unfold stripQuotes
  split
  · rename_i inner
    split_ifs with ends
    · refine Or.inr ?_
      have last : inner.getLast? = some '\'' := ends.1
      rw [List.dropLast_append_getLast? _ last]
    · exact Or.inl rfl
  · exact Or.inl rfl

theorem stripQuotes_of_not_mem {text : List Char} (free : '\'' ∉ text) :
    stripQuotes text = text := by
  rcases stripQuotes_cases text with same | enclosed
  · exact same
  · rw [enclosed] at free
    exact absurd List.mem_cons_self free

theorem length_stripQuotes :
    (stripQuotes text).length + text.count '\'' =
      text.length + (stripQuotes text).count '\'' := by
  rcases stripQuotes_cases text with same | enclosed
  · rw [same]
  · have lengths := congrArg List.length enclosed
    have counts := congrArg (List.count '\'') enclosed
    simp only [List.length_cons, List.length_append, List.length_nil, List.count_cons_self,
      List.count_append, List.count_nil] at lengths counts
    omega

theorem length_doubled :
    (doubled text).length = text.length + text.count '\'' ∧
      (doubled text).count '\'' = 2 * text.count '\'' := by
  induction text with
  | nil => exact ⟨rfl, rfl⟩
  | cons char text ih =>
      by_cases mark : char = '\''
      · rw [mark, doubled_quote]
        simp only [List.length_cons, List.count_cons_self, ih.1, ih.2]
        exact ⟨by omega, by omega⟩
      · rw [doubled_cons mark, List.count_cons_of_ne mark, List.count_cons_of_ne mark]
        simp only [List.length_cons, ih.1, ih.2]
        exact ⟨by omega, trivial⟩

theorem stripQuotes_doubled_iff {text : List Char}
    (oneLine : text.any JsText.isLineTerminator = false) :
    stripQuotes (doubled text) = text ↔
      '\'' ∉ text ∨ ∃ inner, '\'' ∉ inner ∧ text = '\'' :: inner ++ ['\''] := by
  constructor
  · intro same
    by_cases free : '\'' ∉ text
    · exact Or.inl free
    refine Or.inr ?_
    have some := List.count_pos_iff.mpr (not_not.mp free)
    have sizes := length_doubled text
    rcases stripQuotes_cases (doubled text) with unchanged | enclosed
    · rw [unchanged] at same
      have lengths := congrArg List.length same
      omega
    · rw [same] at enclosed
      have counts := congrArg (List.count '\'') enclosed
      simp only [List.count_cons_self, List.count_append, List.count_nil] at counts
      have two : text.count '\'' = 2 := by omega
      cases text with
      | nil => cases two
      | cons first rest =>
          have isMark : first = '\'' := by
            by_contra other
            rw [doubled_cons other] at enclosed
            exact other (List.cons.inj enclosed).1
          rw [isMark, doubled_quote, List.cons_append] at enclosed
          rw [isMark, List.count_cons_self] at two
          rcases List.eq_append_cons_of_mem (List.count_pos_iff.mp (by omega : 0 < rest.count '\''))
            with ⟨inner, back, rfl, innerFree⟩
          rw [List.count_append, List.count_cons_self, List.count_eq_zero.mpr innerFree] at two
          have backFree : '\'' ∉ back := List.count_eq_zero.mp (by omega)
          have tails : doubled (inner ++ '\'' :: back) = (inner ++ '\'' :: back) ++ ['\''] :=
            (List.cons.inj (List.cons.inj enclosed).2).2
          rw [doubled_append, doubled_quote, doubled_of_not_mem innerFree,
            doubled_of_not_mem backFree, List.append_assoc, List.append_cancel_left_eq] at tails
          cases back with
          | nil => exact ⟨inner, innerFree, by rw [isMark]; rfl⟩
          | cons char back =>
              have isChar : '\'' = char := (List.cons.inj (List.cons.inj tails).2).1
              rw [isChar] at backFree
              exact absurd List.mem_cons_self backFree
  · rintro (free | ⟨inner, free, rfl⟩)
    · rw [doubled_of_not_mem free, stripQuotes_of_not_mem free]
    · have shape : doubled ('\'' :: inner ++ ['\'']) =
          '\'' :: (('\'' :: inner ++ ['\'']) ++ ['\'']) := by
        rw [List.cons_append, doubled_quote, doubled_append, doubled_of_not_mem free]
        simp [doubled]
      rw [shape, stripQuotes_enclosed, if_pos oneLine]

end Quotes

section Sequences

variable {part : List Char}

theorem prefix_cut {mark : Char} (free : mark ∉ part) (text rest : List Char) :
    part <+: text ++ mark :: rest ↔ part <+: text := by
  induction text generalizing part with
  | nil =>
      cases part with
      | nil => simp
      | cons first part => simp [Ne.symm (List.ne_of_not_mem_cons free)]
  | cons char text ih =>
      cases part with
      | nil => simp
      | cons first part =>
          rw [List.cons_append, List.cons_prefix_cons, List.cons_prefix_cons,
            ih (List.not_mem_of_not_mem_cons free)]

theorem infix_cut {mark : Char} (free : mark ∉ part) (nonempty : part ≠ [])
    (text rest : List Char) :
    part <:+: text ++ mark :: rest ↔ part <:+: text ∨ part <:+: rest := by
  induction text with
  | nil =>
      have behind : ¬ part <+: mark :: rest := fun starts =>
        nonempty (List.prefix_nil.mp ((prefix_cut free [] rest).mp starts))
      simp [List.infix_cons_iff, behind, nonempty]
  | cons char text ih =>
      rw [List.cons_append, List.infix_cons_iff, List.infix_cons_iff, ih, ← List.cons_append,
        prefix_cut free, or_assoc]

theorem infix_doubled (free : '\'' ∉ part) (nonempty : part ≠ []) (text : List Char) :
    part <:+: doubled text ↔ part <:+: text := by
  induction text using quoteInduction with
  | plain text none => rw [doubled_of_not_mem none]
  | quote front back none ih =>
      have between := infix_cut free nonempty [] (doubled back)
      rw [List.nil_append, List.infix_nil] at between
      rw [doubled_append, doubled_of_not_mem none, doubled_quote, infix_cut free nonempty, between,
        infix_cut free nonempty, ih]
      simp [nonempty]

theorem not_hasSequence_of_not_mem {dialect : Dialect} {text : List Char} (free : '(' ∉ text) :
    ¬ HasSequence dialect (some text) := fun found =>
  free (found.2.subset (by decide))

end Sequences

section Numerals

variable {text : List Char}

theorem parseDecimal_of_plain (digits : text.takeWhile Char.isDigit ≠ [])
    (behind : text.dropWhile Char.isDigit = [] ∨ ∃ fraction, fraction.all Char.isDigit = true ∧
      text.dropWhile Char.isDigit = '.' :: fraction) :
    (JsNumber.parseDecimal text).isSome ∧ ∀ char ∈ text, Json.isNumberChar char = true := by
  have whole : ∀ char ∈ text.takeWhile Char.isDigit, char.isDigit = true :=
    fun char => List.mem_takeWhile_imp
  have split := List.takeWhile_append_dropWhile (p := Char.isDigit) (l := text)
  rcases behind with empty | ⟨fraction, areDigits, shape⟩
  · rw [empty] at split
    rw [← split, JsNumber.parseDecimal_whole _ [] whole digits rfl nofun]
    refine ⟨rfl, fun char member => ?_⟩
    rw [List.append_nil] at member
    exact Json.isNumberChar_of_isDigit (whole char member)
  · rw [List.all_eq_true] at areDigits
    have read := JsNumber.parseDecimal_fraction _ fraction [] whole areDigits digits rfl
    rw [shape] at split
    rw [List.append_nil, split] at read
    refine ⟨by rw [read]; rfl, fun char member => ?_⟩
    rw [← split, List.mem_append, List.mem_cons] at member
    rcases member with inWhole | rfl | inFraction
    · exact Json.isNumberChar_of_isDigit (whole char inWhole)
    · decide
    · exact Json.isNumberChar_of_isDigit (areDigits char inFraction)

theorem digits_of_isPlainDecimal {rest : List Char} (plain : isPlainDecimal ('-' :: rest) = true) :
    rest.takeWhile Char.isDigit ≠ [] ∧ (rest.dropWhile Char.isDigit = [] ∨
      ∃ fraction, fraction.all Char.isDigit = true ∧
        rest.dropWhile Char.isDigit = '.' :: fraction) := by
  unfold isPlainDecimal at plain
  simp only [Bool.and_eq_true, decide_eq_true_eq] at plain
  rcases plain with ⟨digits, behind⟩
  refine ⟨digits, ?_⟩
  split at behind
  · rename_i empty
    exact Or.inl empty
  · rename_i fraction shape
    exact Or.inr ⟨fraction, (Bool.and_eq_true_iff.mp behind).2, shape⟩
  · cases behind

theorem ofText_of_isPlainDecimal (plain : isPlainDecimal text = true) :
    JsNumber.ofText (String.ofList text) ≠ .nan := by
  have unsigned : ∀ {rest : List Char}, isPlainDecimal ('-' :: rest) = true →
      (JsNumber.parseDecimal rest).isSome ∧ ∀ char ∈ rest, Json.isNumberChar char = true :=
    fun signed => parseDecimal_of_plain (digits_of_isPlainDecimal signed).1
      (digits_of_isPlainDecimal signed).2
  have signed := plain
  unfold isPlainDecimal at signed
  split at signed
  · rename_i rest
    rcases unsigned plain with ⟨read, chars⟩
    rcases Option.isSome_iff_exists.mp read with ⟨value, read⟩
    rw [JsNumber.ofText_of_isNumberChar (List.cons_ne_nil '-' rest) (by simp)]
    · rw [JsNumber.readSigned, (JsNumber.readSigned_of_parseDecimal read).2]
      intro noNumber
      have real := JsNumber.round_ne_nan value
      cases rounded : JsNumber.round value <;> rw [rounded] at noNumber real
      · cases noNumber
      · cases noNumber
      · exact real rfl
    · intro char member
      rcases List.mem_cons.mp member with rfl | inRest
      · decide
      · exact chars char inRest
  · have digits := (digits_of_isPlainDecimal signed).1
    rcases unsigned signed with ⟨read, chars⟩
    rcases Option.isSome_iff_exists.mp read with ⟨value, read⟩
    rw [JsNumber.ofText_of_isNumberChar, (JsNumber.readSigned_of_parseDecimal read).1]
    · exact JsNumber.round_ne_nan value
    · rintro rfl
      exact digits rfl
    · intro plus
      rcases List.head?_eq_some_iff.mp plus with ⟨rest, rfl⟩
      exact digits rfl
    · exact chars

theorem outside_of_toLower {char : Char} (lower : char.toLower = 'u' ∨ char.toLower = 's') :
    JsNumber.isNumeralChar char = false ∧ JsNumber.isWhiteSpace char = false := by
  have letter : char ∈ ['u', 'U', 's', 'S'] := by
    by_cases upper : char.isUpper = true
    · have bounds : 65 ≤ char.toNat ∧ char.toNat ≤ 90 := by
        simpa [Char.isUpper, UInt32.le_iff_toNat_le] using upper
      rw [← Char.ofNat_toNat char] at lower ⊢
      generalize char.toNat = code at bounds lower
      rcases bounds with ⟨low, high⟩
      revert lower
      interval_cases code <;> decide
    · rw [toLower_of_not_isUpper (by simpa using upper)] at lower
      rcases lower with rfl | rfl <;> decide
  simp only [List.mem_cons, List.not_mem_nil, or_false] at letter
  rcases letter with rfl | rfl | rfl | rfl <;> decide

theorem ofText_of_isWord {word : String} (among : word ∈ ["null", "true", "false"])
    (isText : isWord word text = true) : JsNumber.ofText (String.ofList text) = .nan := by
  have same : text.map Char.toLower = word.toList := of_decide_eq_true isText
  have letter : ∃ lower ∈ word.toList, lower = 'u' ∨ lower = 's' := by
    simp only [List.mem_cons, List.not_mem_nil, or_false] at among
    rcases among with rfl | rfl | rfl
    · exact ⟨'u', by decide, Or.inl rfl⟩
    · exact ⟨'u', by decide, Or.inl rfl⟩
    · exact ⟨'s', by decide, Or.inr rfl⟩
  rcases letter with ⟨lower, member, isLetter⟩
  rw [← same] at member
  rcases List.mem_map.mp member with ⟨char, inText, rfl⟩
  rcases outside_of_toLower isLetter with ⟨outside, full⟩
  exact JsNumber.ofText_eq_nan outside full (by rw [String.toList_ofList]; exact inText)

theorem ofText_of_mark {char : Char} (mark : char = '\'' ∨ char = ':' ∨ char = '(')
    (member : char ∈ text) : JsNumber.ofText (String.ofList text) = .nan := by
  refine JsNumber.ofText_eq_nan ?_ ?_ (by rw [String.toList_ofList]; exact member)
  · rcases mark with rfl | rfl | rfl <;> decide
  · rcases mark with rfl | rfl | rfl <;> decide

end Numerals

section Values

variable (flag : Bool)

theorem valuesMatch_iff {left right : DefaultValue} :
    valuesMatch left right = true ↔ left.toText = right.toText ∨
      (left.toNumber = right.toNumber ∧ left.toNumber ≠ .nan) := by
  simp only [valuesMatch, Bool.or_eq_true, Bool.and_eq_true, decide_eq_true_eq]
  constructor
  · rintro ((same | text) | number)
    · exact Or.inl (congrArg DefaultValue.toText same.1)
    · exact Or.inl text
    · exact Or.inr ⟨number.2, number.1.1⟩
  · rintro (text | number)
    · exact Or.inl (Or.inr text)
    · exact Or.inr ⟨⟨number.2, number.1 ▸ number.2⟩, number.1⟩

/-- The value that an initialiser declares; a date declares an expression. -/
def declaredValue (dialect : Dialect) : Initializer → Option DefaultValue
  | .string value => some (.string value)
  | .number value => some (.number value.val)
  | .boolean value =>
      some (if dialect = .mysql then .string (if value then "1" else "0") else .boolean value)
  | .date => none

theorem ofText_digit :
    JsNumber.ofText (if flag then "1" else "0") = .finite (if flag then 1 else 0) := by
  cases flag <;> decide +kernel

theorem toNumber_declaredValue {dialect : Dialect} {value : Initializer} {found : DefaultValue}
    (isValue : declaredValue dialect value = some found) : found.toNumber = value.toNumber := by
  cases value with
  | string text => cases isValue; rfl
  | number number => cases isValue; rfl
  | boolean flag =>
      cases isValue
      cases dialect with
      | mysql => exact ofText_digit flag
      | postgres => cases flag <;> rfl
  | date => cases isValue

variable {toUpperCase : List Char → List Char} {dialect : Dialect} {cast : CastType}
  {type : String} {column : ColumnSchema} {value stored : Initializer}
  {found given result : DefaultValue}

theorem declared_value (column : ColumnSchema)
    (isValue : declaredValue dialect value = some found) :
    (declared dialect column value).autoIncrement = false ∧
      (declared dialect column value).defaultValue = some found ∧
      (declared dialect column value).defaultExpression = none := by
  cases value <;> cases isValue <;> exact ⟨rfl, rfl, rfl⟩

theorem reportedDefault_value (isStored : declaredValue dialect stored = some given) :
    reportedDefault dialect cast (declared dialect column stored) =
      reportedLiteral dialect cast given := by
  have shape := declared_value column isStored
  rw [reportedDefault, shape.2.1, shape.2.2]
  rfl

theorem readBack_value (isStored : declaredValue dialect stored = some given)
    (apart : ¬ HasSequence dialect (reportedLiteral dialect cast given)) :
    (readBack dialect cast type (declared dialect column stored)).defaultValue =
      readDefault dialect type (reportedLiteral dialect cast given) := by
  have shape := declared_value column isStored
  simp [readBack, reportedDefault_value isStored, shape.1, apart]

theorem not_hasSequence_mysql (reported : Option (List Char)) : ¬ HasSequence .mysql reported :=
  fun found => absurd found.1 nofun

theorem autoIncrement_of_read (read :
    (readBack dialect cast type (declared dialect column stored)).defaultValue = some result) :
    (readBack dialect cast type (declared dialect column stored)).autoIncrement = false := by
  have own : (declared dialect column stored).autoIncrement = false := by
    cases stored <;> rfl
  by_contra counted
  have isCounted : (readBack dialect cast type (declared dialect column stored)).autoIncrement =
      true := by simpa using counted
  have found : HasSequence dialect
      (reportedDefault dialect cast (declared dialect column stored)) := by
    simpa [readBack, own] using isCounted
  rw [readBack, if_pos ⟨found.1, by simpa [own] using found⟩] at read
  cases read

theorem matches_iff (isValue : declaredValue dialect value = some found)
    (read : (readBack dialect cast type (declared dialect column stored)).defaultValue =
      some result) :
    Matches toUpperCase dialect cast type column value stored ↔
        valuesMatch found result = true := by
  have left := declared_value column isValue
  have increment := autoIncrement_of_read read
  have expression :
      (readBack dialect cast type (declared dialect column stored)).defaultExpression = none := rfl
  rw [Matches, defaultsMatch, left.1, left.2.1, left.2.2, increment, read, expression]
  rfl

theorem not_matches_date (increment :
    (readBack dialect cast type (declared dialect column stored)).autoIncrement = false) :
    ¬ Matches toUpperCase dialect cast type column .date stored := by
  have expression :
      (readBack dialect cast type (declared dialect column stored)).defaultExpression = none := rfl
  have written : expressionOf (some "CURRENT_TIMESTAMP") = some "CURRENT_TIMESTAMP" := rfl
  rw [Matches, defaultsMatch, increment, expression]
  cases (readBack dialect cast type (declared dialect column stored)).defaultValue with
  | none => simp [declared, applyDefaultInitializer]
  | some result => simp [declared, applyDefaultInitializer, written, normalizeExpression]

theorem ofText_nan : JsNumber.ofText "NaN" = .nan :=
  JsNumber.ofText_eq_nan (by decide) (by decide) (by decide : 'N' ∈ _)

theorem ofText_flag : JsNumber.ofText (DefaultValue.boolean flag).toText = .nan := by
  cases flag with
  | false => exact JsNumber.ofText_eq_nan (by decide) (by decide) (by decide : 's' ∈ _)
  | true => exact JsNumber.ofText_eq_nan (by decide) (by decide) (by decide : 'u' ∈ _)

theorem ofText_toText (isValue : declaredValue dialect value = some found)
    (real : JsNumber.ofText found.toText ≠ .nan) :
    found.toNumber = JsNumber.ofText found.toText := by
  cases value with
  | string text => cases isValue; rfl
  | number number => cases isValue; exact (JsNumber.ofText_text number.property).symm
  | boolean flag =>
      cases isValue
      cases dialect with
      | mysql => rfl
      | postgres => exact absurd (ofText_flag flag) real
  | date => cases isValue

section

variable (isStored : declaredValue dialect stored = some given)
include isStored

theorem kept_of_reading
    (read : (readBack dialect cast type (declared dialect column stored)).defaultValue =
      some result) (same : valuesMatch given result = true)
    (number : result.toNumber = given.toNumber)
    (texts : ∀ value found, declaredValue dialect value = some found → value ≠ stored →
      found.toText = result.toText →
        found.toNumber = given.toNumber ∧ found.toNumber ≠ .nan) :
    DefaultKept toUpperCase dialect cast type column stored where
  same := (matches_iff isStored read).mpr same
  different value other matched := by
    cases isValue : declaredValue dialect value with
    | none =>
        cases value with
        | date => exact absurd matched (not_matches_date (autoIncrement_of_read read))
        | _ => cases isValue
    | some found =>
        have equal := valuesMatch_iff.mp ((matches_iff isValue read).mp matched)
        rw [← toNumber_declaredValue isValue, ← toNumber_declaredValue isStored]
        rcases equal with text | numbers
        · exact texts value found isValue other text
        · exact ⟨numbers.1.trans number, numbers.2⟩

theorem kept_of_number {text : String}
    (read : (readBack dialect cast type (declared dialect column stored)).defaultValue =
      some (.number (JsNumber.ofText text))) (isNumber : given.toNumber = JsNumber.ofText text)
    (real : JsNumber.ofText text ≠ .nan) :
    DefaultKept toUpperCase dialect cast type column stored := by
  refine kept_of_reading isStored read
    (valuesMatch_iff.mpr (Or.inr ⟨isNumber, isNumber ▸ real⟩)) isNumber.symm ?_
  intro value found isValue _ sameText
  have number : JsNumber.ofText found.toText = JsNumber.ofText text := by
    rw [sameText]
    exact JsNumber.ofText_text (JsNumber.isDouble_ofText text)
  have isFound := ofText_toText isValue (number ▸ real)
  rw [isFound, number, isNumber]
  exact ⟨rfl, real⟩

theorem kept_of_text {text : String}
    (read : (readBack dialect cast type (declared dialect column stored)).defaultValue =
      some (.string text)) (isText : given.toText = text)
    (isNumber : given.toNumber = JsNumber.ofText text) (notNaN : text ≠ "NaN")
    (noFlag : dialect = .postgres → text ≠ "true" ∧ text ≠ "false") :
    DefaultKept toUpperCase dialect cast type column stored := by
  refine kept_of_reading isStored read (valuesMatch_iff.mpr (Or.inl isText)) isNumber.symm ?_
  intro value found isValue other sameText
  have isFound : found.toText = text := sameText
  by_cases real : JsNumber.ofText text = .nan
  · -- Without a number, only the string itself has this text.
    have onlyString : ∀ {value found}, declaredValue dialect value = some found →
        found.toText = text → value = .string text := by
      intro value found isValue isFound
      cases value with
      | string other => cases isValue; rw [← isFound]; rfl
      | number number =>
          cases isValue
          have shown : String.ofList number.val.text = text := isFound
          have noNumber := JsNumber.ofText_text number.property
          rw [shown, real] at noNumber
          rw [← noNumber] at shown
          exact absurd shown.symm notNaN
      | boolean flag =>
          cases isValue
          cases dialect with
          | mysql =>
              have isFlag : declaredValue .mysql (.boolean flag) =
                some (.string (if flag then "1" else "0")) := rfl
              rw [← isFound] at real
              exact absurd ((toNumber_declaredValue isFlag).symm.trans real) nofun
          | postgres =>
              cases flag with
              | true => exact absurd isFound.symm (noFlag rfl).1
              | false => exact absurd isFound.symm (noFlag rfl).2
      | date => cases isValue
    exact absurd ((onlyString isValue isFound).trans (onlyString isStored isText).symm) other
  · have number := ofText_toText isValue (isFound ▸ real)
    rw [number, isFound, isNumber]
    exact ⟨rfl, real⟩

end

theorem not_kept_of_null (noNumber : stored.toNumber = .nan)
    (isStored : declaredValue dialect stored = some given)
    (read : (readBack dialect cast type (declared dialect column stored)).defaultValue =
      some .null) : ¬ DefaultKept toUpperCase dialect cast type column stored := by
  intro kept
  have isValue : declaredValue dialect (.number ⟨.finite 0, rfl⟩) = some (.number (.finite 0)) :=
    rfl
  have matched : Matches toUpperCase dialect cast type column _ stored :=
    (matches_iff isValue read).mpr
    (valuesMatch_iff.mpr (Or.inr ⟨rfl, nofun⟩))
  have equal := kept.different _ (by rintro rfl; cases noNumber) matched
  rw [noNumber] at equal
  exact equal.2 equal.1

theorem not_kept_of_boolean {flag : Bool}
    (read : (readBack .mysql cast type (declared .mysql column stored)).defaultValue =
      some (.boolean flag)) : ¬ DefaultKept toUpperCase .mysql cast type column stored := by
  intro kept
  have word := ofText_flag flag
  by_cases same : stored = .string (DefaultValue.boolean flag).toText
  · have isFlag : declaredValue .mysql (.boolean flag) =
        some (.string (if flag then "1" else "0")) := rfl
    have matched : Matches toUpperCase .mysql cast type column (.boolean flag) stored := by
      refine (matches_iff isFlag read).mpr (valuesMatch_iff.mpr (Or.inr ?_))
      rw [toNumber_declaredValue isFlag]
      exact ⟨rfl, nofun⟩
    have equal := kept.different _ (by rw [same]; nofun) matched
    rw [same] at equal
    exact equal.2 (equal.1.trans word)
  · have isValue : declaredValue .mysql (.string (DefaultValue.boolean flag).toText) =
        some (.string (DefaultValue.boolean flag).toText) := rfl
    have matched : Matches toUpperCase .mysql cast type column _ stored :=
      (matches_iff isValue read).mpr (valuesMatch_iff.mpr (Or.inl rfl))
    exact (kept.different _ (Ne.symm same) matched).2 word

theorem not_kept_of_text {text : String} (noNumber : JsNumber.ofText text = .nan)
    (read : (readBack dialect cast type (declared dialect column stored)).defaultValue =
      some (.string text))
    (twin : ∃ value found, value ≠ .string text ∧ declaredValue dialect value = some found ∧
      found.toText = text) : ¬ DefaultKept toUpperCase dialect cast type column stored := by
  intro kept
  by_cases same : stored = .string text
  · rcases twin with ⟨value, found, other, isValue, isText⟩
    have matched : Matches toUpperCase dialect cast type column value stored :=
      (matches_iff isValue read).mpr (valuesMatch_iff.mpr (Or.inl isText))
    have equal := kept.different value (by rw [same]; exact other) matched
    rw [same] at equal
    exact equal.2 (equal.1.trans noNumber)
  · have matched : Matches toUpperCase dialect cast type column (.string text) stored :=
      (matches_iff rfl read).mpr (valuesMatch_iff.mpr (Or.inl rfl))
    exact (kept.different _ (Ne.symm same) matched).2 noNumber

theorem nan_twin : ∃ value found, value ≠ Initializer.string "NaN" ∧
    declaredValue dialect value = some found ∧ found.toText = "NaN" :=
  ⟨.number ⟨.nan, trivial⟩, .number .nan, nofun, rfl, by decide⟩

theorem flag_twin : ∃ value found,
    value ≠ Initializer.string (DefaultValue.boolean flag).toText ∧
      declaredValue .postgres value = some found ∧
        found.toText = (DefaultValue.boolean flag).toText :=
  ⟨.boolean flag, .boolean flag, nofun, rfl, rfl⟩

end Values

section Readings

variable {text : List Char} {type : String} {column : ColumnSchema}
  {toUpperCase : List Char → List Char}

theorem normalizeDefault_plain (notNull : isWord "null" text = false) (noFlag : BooleanType type →
      text ≠ ['1'] ∧ text ≠ ['0'] ∧ isWord "true" text = false ∧ isWord "false" text = false) :
    normalizeDefault (some text) type =
      some (if isPlainDecimal text then .number (JsNumber.ofText (String.ofList text))
        else .string (String.ofList (stripQuotes text))) := by
  rw [normalizeDefault, Option.map_some, notNull, if_neg Bool.false_ne_true, if_neg, if_neg]
  · rintro ⟨isBoolean, flag | flag⟩
    · exact (noFlag isBoolean).2.1 flag
    · rw [(noFlag isBoolean).2.2.2] at flag
      cases flag
  · rintro ⟨isBoolean, flag | flag⟩
    · exact (noFlag isBoolean).1 flag
    · rw [(noFlag isBoolean).2.2.1] at flag
      cases flag

theorem normalizeDefault_flag (notNull : isWord "null" text = false) (isBoolean : BooleanType type)
    (flag : text = ['1'] ∨ text = ['0'] ∨ isWord "true" text = true ∨
      isWord "false" text = true) :
    ∃ flag, normalizeDefault (some text) type = some (.boolean flag) := by
  rw [normalizeDefault, Option.map_some, notNull, if_neg Bool.false_ne_true]
  by_cases yes : text = ['1'] ∨ isWord "true" text = true
  · exact ⟨true, by rw [if_pos ⟨isBoolean, yes⟩]⟩
  · have no : text = ['0'] ∨ isWord "false" text = true := by
      rw [not_or] at yes
      rcases flag with one | zero | word | word
      · exact absurd one yes.1
      · exact Or.inl zero
      · exact absurd word yes.2
      · exact Or.inr word
    exact ⟨false, by rw [if_neg fun found => yes found.2, if_pos ⟨isBoolean, no⟩]⟩

theorem kept_of_plain {dialect : Dialect} {cast : CastType} {readType : String}
    {stored : Initializer} {given : DefaultValue}
    (isStored : declaredValue dialect stored = some given)
    (read : (readBack dialect cast type (declared dialect column stored)).defaultValue =
      normalizeDefault (some text) readType) (isText : given.toText = String.ofList text)
    (isNumber : given.toNumber = JsNumber.ofText (String.ofList text))
    (notNull : isWord "null" text = false) (noFlag : BooleanType readType →
      text ≠ ['1'] ∧ text ≠ ['0'] ∧ isWord "true" text = false ∧ isWord "false" text = false)
    (unquoted : stripQuotes text = text) (notNaN : text ≠ "NaN".toList)
    (noWord : dialect = .postgres → text ≠ "true".toList ∧ text ≠ "false".toList) :
    DefaultKept toUpperCase dialect cast type column stored := by
  rw [normalizeDefault_plain notNull noFlag, unquoted] at read
  by_cases plain : isPlainDecimal text = true
  · rw [if_pos plain] at read
    exact kept_of_number isStored read isNumber (ofText_of_isPlainDecimal plain)
  · rw [if_neg plain] at read
    refine kept_of_text isStored read isText isNumber ?_ fun isPostgres => ⟨?_, ?_⟩
    · exact fun same => notNaN (by rw [← same, String.toList_ofList])
    · exact fun same => (noWord isPostgres).1 (by rw [← same, String.toList_ofList])
    · exact fun same => (noWord isPostgres).2 (by rw [← same, String.toList_ofList])

theorem normalizeDefault_nan (type : String) :
    normalizeDefault (some "NaN".toList) type = some (.string "NaN") := by
  rw [normalizeDefault_plain (by decide) (fun _ => by decide), if_neg (by decide)]
  rfl

theorem ordinary_of_kept {dialect : Dialect} {cast : CastType} {readType : String} {text : String}
    (read : (readBack dialect cast type (declared dialect column (.string text))).defaultValue =
      normalizeDefault (some text.toList) readType)
    (kept : DefaultKept toUpperCase dialect cast type column (.string text)) :
    isWord "null" text.toList = false ∧ text.toList ≠ "NaN".toList := by
  have isStored : declaredValue dialect (.string text) = some (.string text) := rfl
  constructor
  · by_contra isNull
    have word : isWord "null" text.toList = true := by simpa using isNull
    have noNumber : JsNumber.ofText text = .nan := by
      rw [← String.ofList_toList (s := text)]
      exact ofText_of_isWord (by decide : "null" ∈ _) word
    have stored : (Initializer.string text).toNumber = .nan := noNumber
    rw [normalizeDefault, Option.map_some, if_pos word] at read
    exact not_kept_of_null stored isStored read kept
  · intro isNaN
    rw [isNaN, normalizeDefault_nan] at read
    exact not_kept_of_text ofText_nan read nan_twin kept

end Readings

section Postgres

variable {text : String}

theorem toList_literal (text : String) :
    (literal (.string text)).toList = '\'' :: (doubled text.toList ++ ['\'']) := by
  simp [literal, doubleQuotes, doubled]

theorem reportedLiteral_string (cast : CastType) (text : String) :
    reportedLiteral .postgres cast (.string text) =
      some ('\'' :: (doubled text.toList ++ '\'' :: cast.text)) := by
  simp [reportedLiteral, toList_literal]

theorem hasSequence_iff {cast : CastType} (plain : cast.Plain) (text : String) :
    HasSequence .postgres (reportedLiteral .postgres cast (.string text)) ↔
      "nextval(".toList <:+: text.toList := by
  have free : '(' ∉ cast.text := by
    rw [plain.text_eq]
    simp only [List.mem_cons, List.mem_append, not_or]
    exact ⟨by decide, by decide, cast.name.not_mem_name plain.2 (by decide),
      cast.not_mem_suffix (by decide)⟩
  have outside : ¬ "nextval(".toList <:+: cast.text := fun found =>
    free (found.subset (by decide))
  have opening : "nextval(".toList <:+: [] ++ '\'' :: _ ↔ _ :=
    infix_cut (by decide) (by decide) [] (doubled text.toList ++ '\'' :: cast.text)
  rw [List.nil_append] at opening
  rw [HasSequence, reportedLiteral_string, Option.getD_some, opening,
    infix_cut (by decide) (by decide), infix_doubled (by decide) (by decide)]
  constructor
  · rintro ⟨-, none | inText | inCast⟩
    · exact absurd none (by decide)
    · exact inText
    · exact absurd inCast outside
  · exact fun inText => ⟨rfl, .inr (.inl inText)⟩

theorem normalizePostgresDefault_string (cast : CastType) (text : String) :
    normalizePostgresDefault (reportedLiteral .postgres cast (.string text)) =
      normalizeDefault (some (stripQuotes ('\'' :: (doubled (removeCasts 0 text.toList) ++
        '\'' :: removeCasts 0 cast.text)))) "" := by
  have left : removeCasts 0 ('\'' :: (doubled text.toList ++ '\'' :: cast.text)) =
      '\'' :: (doubled (removeCasts 0 text.toList) ++ '\'' :: removeCasts 0 cast.text) := by
    rw [removeCasts_cons_of_ne (by decide), removeCasts_cut quote_outside (Nat.zero_le _),
      removeCasts_doubled]
  rw [normalizePostgresDefault, reportedLiteral_string, Option.map_some, left]

theorem isWord_of_mark {word : String} (free : '\'' ∉ word.toList) {text : List Char}
    (mark : '\'' ∈ text) : isWord word text = false := by
  refine decide_eq_false fun same => free ?_
  rw [← same]
  exact List.mem_map.mpr ⟨'\'', mark, by decide⟩

theorem normalizeDefault_marked {text : List Char} (mark : '\'' ∈ text) :
    normalizeDefault (some text) "" = some (.string (String.ofList (stripQuotes text))) := by
  have noNumber : isPlainDecimal text = false := by
    by_contra plain
    exact ofText_of_isPlainDecimal (by simpa using plain) (ofText_of_mark (Or.inl rfl) mark)
  rw [normalizeDefault_plain (isWord_of_mark (by decide) mark)
    (fun isBoolean => absurd isBoolean (by decide)), noNumber, if_neg Bool.false_ne_true]

variable {toUpperCase : List Char → List Char} {cast : CastType} {type : String}
  {column : ColumnSchema}

theorem normalizeDefault_untyped (text : List Char) :
    normalizeDefault (some text) "" = some .null ∧ isWord "null" text = true ∨
      (∃ number, normalizeDefault (some text) "" = some (.number number) ∧ number.IsDouble ∧
        number ≠ .nan) ∨
      normalizeDefault (some text) "" = some (.string (String.ofList (stripQuotes text))) := by
  by_cases isNull : isWord "null" text = true
  · exact Or.inl ⟨by rw [normalizeDefault, Option.map_some, if_pos isNull], isNull⟩
  rw [normalizeDefault_plain (by simpa using isNull)
    (fun isBoolean => absurd isBoolean (by decide))]
  by_cases plain : isPlainDecimal text = true
  · rw [if_pos plain]
    exact Or.inr (Or.inl ⟨_, rfl, JsNumber.isDouble_ofText _, ofText_of_isPlainDecimal plain⟩)
  · rw [if_neg plain]
    exact Or.inr (Or.inr rfl)

theorem not_kept_of_sequence
    (found : HasSequence .postgres (reportedLiteral .postgres cast (.string text))) :
    ¬ DefaultKept toUpperCase .postgres cast type column (.string text) := by
  intro kept
  have isStored : declaredValue .postgres (.string text) = some (.string text) := rfl
  have counted : (readBack .postgres cast type
      (declared .postgres column (.string text))).autoIncrement = true := by
    simp [readBack, reportedDefault_value isStored, found]
  have matched : Matches toUpperCase .postgres cast type column (.number ⟨.nan, trivial⟩)
      (.string text) := by
    simp [Matches, defaultsMatch, counted]
  have numbers := kept.different (.number ⟨.nan, trivial⟩) (by simp) matched
  exact numbers.2 rfl

/-- A text whose default is read with a plain cast. -/
structure PlainlyRead (cast : CastType) (text : String) : Prop where
  plain : cast.Plain
  apart : ¬ HasSequence .postgres (reportedLiteral .postgres cast (.string text))

theorem read_postgres (plainly : PlainlyRead cast text) :
    (readBack .postgres cast type (declared .postgres column (.string text))).defaultValue =
      normalizeDefault
        (some (stripQuotes ('\'' :: (doubled (removeCasts 0 text.toList) ++ ['\''])))) "" := by
  have isStored : declaredValue .postgres (.string text) = some (.string text) := rfl
  rw [readBack_value isStored plainly.apart, ← removeCasts_castType plainly.plain]
  exact normalizePostgresDefault_string cast text

theorem plain_of_same
    (apart : ¬ HasSequence .postgres (reportedLiteral .postgres cast (.string text)))
    (same : Matches toUpperCase .postgres cast type column (.string text) (.string text)) :
    cast.Plain := by
  by_contra other
  rcases removeCasts_of_not_plain other with ⟨front, mark, back, left, free⟩
  have isStored : declaredValue .postgres (.string text) = some (.string text) := rfl
  have enclosing : stripQuotes ('\'' :: (doubled (removeCasts 0 text.toList) ++
      '\'' :: (front ++ mark :: back))) = '\'' :: (doubled (removeCasts 0 text.toList) ++
        '\'' :: (front ++ mark :: back)) := by
    rcases stripQuotes_cases ('\'' :: (doubled (removeCasts 0 text.toList) ++
      '\'' :: (front ++ mark :: back))) with kept | enclosed
    · exact kept
    · have last := congrArg List.getLast? ((by simp : ('\'' ::
        (doubled (removeCasts 0 text.toList) ++ '\'' :: front)) ++ mark :: back = _).trans enclosed)
      rw [List.getLast?_append_of_ne_nil _ (List.cons_ne_nil mark back)] at last
      have isQuote := last.trans (List.getLast?_concat (l := '\'' :: _))
      exact absurd (List.mem_of_getLast? isQuote) free
  have read : (readBack .postgres cast type
      (declared .postgres column (.string text))).defaultValue = _ :=
    (readBack_value isStored apart).trans (normalizePostgresDefault_string cast text)
  rw [left, enclosing, normalizeDefault_marked List.mem_cons_self, enclosing] at read
  rcases valuesMatch_iff.mp ((matches_iff isStored read).mp same) with equal | numbers
  · have counts := congrArg (fun text => text.toList.count '\'') equal
    have doubles := (length_doubled (removeCasts 0 text.toList)).2
    rw [count_removeCasts] at doubles
    simp only [DefaultValue.toText, String.toList_ofList, List.count_cons_self,
      List.count_append] at counts
    omega
  · have noNumber : (DefaultValue.string (String.ofList ('\'' ::
        (doubled (removeCasts 0 text.toList) ++ '\'' :: (front ++ mark :: back))))).toNumber =
          .nan := by
      rw [DefaultValue.toNumber]
      exact ofText_of_mark (Or.inl rfl) List.mem_cons_self
    exact numbers.2 (numbers.1.trans noNumber)

theorem removeCasts_of_same (plainly : PlainlyRead cast text)
    (same : Matches toUpperCase .postgres cast type column (.string text) (.string text)) :
    removeCasts 0 text.toList = text.toList := by
  by_contra shorter
  have colon : ':' ∈ text.toList := by
    by_contra free
    exact shorter (removeCasts_of_not_mem free)
  have noNumber : JsNumber.ofText text = .nan := by
    rw [← String.ofList_toList (s := text)]
    exact ofText_of_mark (Or.inr (Or.inl rfl)) colon
  have isStored : declaredValue .postgres (.string text) = some (.string text) := rfl
  have sameText : ∀ {result : DefaultValue},
      (readBack .postgres cast type (declared .postgres column (.string text))).defaultValue =
        some result → text = result.toText := by
    intro result read
    rcases valuesMatch_iff.mp ((matches_iff isStored read).mp same) with equal | numbers
    · exact equal
    · exact absurd noNumber numbers.2
  rcases normalizeDefault_untyped
      (stripQuotes ('\'' :: (doubled (removeCasts 0 text.toList) ++ ['\'']))) with
    null | ⟨number, isNumber, double, real⟩ | string
  · rw [sameText ((read_postgres plainly).trans null.1)] at colon
    exact absurd colon (by decide)
  · rw [sameText ((read_postgres plainly).trans isNumber), DefaultValue.toText,
      JsNumber.ofText_text double] at noNumber
    exact real noNumber
  · -- The marks are balanced, so the other characters have to be, too.
    have isText := congrArg String.toList (sameText ((read_postgres plainly).trans string))
    rw [DefaultValue.toText, String.toList_ofList] at isText
    have outer := length_stripQuotes ('\'' :: (doubled (removeCasts 0 text.toList) ++ ['\'']))
    have inner := length_stripQuotes
      (stripQuotes ('\'' :: (doubled (removeCasts 0 text.toList) ++ ['\''])))
    rw [← isText] at inner
    have sizes := length_doubled (removeCasts 0 text.toList)
    have counts := count_removeCasts text.toList
    simp only [List.length_cons, List.length_append, List.length_nil, List.count_cons_self,
      List.count_append, List.count_nil] at outer
    exact shorter ((removeCasts_sublist 0 text.toList).eq_of_length (by omega))

theorem oneLine_of_same (plainly : PlainlyRead cast text)
    (same : Matches toUpperCase .postgres cast type column (.string text) (.string text)) :
    text.toList.any JsText.isLineTerminator = false := by
  by_contra several
  have isStored : declaredValue .postgres (.string text) = some (.string text) := rfl
  have terminator : (doubled text.toList).any JsText.isLineTerminator = true := by
    rw [Bool.not_eq_false, List.any_eq_true] at several
    rcases several with ⟨char, member, breaks⟩
    exact List.any_eq_true.mpr ⟨char, mem_doubled.mpr member, breaks⟩
  have kept : stripQuotes ('\'' :: (doubled text.toList ++ ['\''])) =
      '\'' :: (doubled text.toList ++ ['\'']) := by
    rw [stripQuotes_enclosed, if_neg (by rw [terminator]; exact nofun)]
  have read : (readBack .postgres cast type
      (declared .postgres column (.string text))).defaultValue = _ := read_postgres plainly
  rw [removeCasts_of_same plainly same, kept, normalizeDefault_marked List.mem_cons_self,
    kept] at read
  rcases valuesMatch_iff.mp ((matches_iff isStored read).mp same) with equal | numbers
  · have lengths := congrArg (fun text => text.toList.length) equal
    simp only [DefaultValue.toText, String.toList_ofList, List.length_cons, List.length_append,
      List.length_nil, (length_doubled text.toList).1] at lengths
    omega
  · have noNumber : (DefaultValue.string (String.ofList
        ('\'' :: (doubled text.toList ++ ['\''])))).toNumber = .nan := by
      rw [DefaultValue.toNumber]
      exact ofText_of_mark (Or.inl rfl) List.mem_cons_self
    exact numbers.2 (numbers.1.trans noNumber)

theorem read_postgres_line (plainly : PlainlyRead cast text)
    (casts : removeCasts 0 text.toList = text.toList)
    (oneLine : text.toList.any JsText.isLineTerminator = false) :
    (readBack .postgres cast type (declared .postgres column (.string text))).defaultValue =
      normalizeDefault (some (doubled text.toList)) "" := by
  have inner : (doubled text.toList).any JsText.isLineTerminator = false := by
    rw [List.any_eq_false] at oneLine ⊢
    exact fun char member => oneLine char (mem_doubled.mp member)
  rw [read_postgres plainly, casts, stripQuotes_enclosed, if_pos inner]

theorem words_of_kept (flag : Bool)
    (read : (readBack .postgres cast type (declared .postgres column (.string text))).defaultValue =
      normalizeDefault (some text.toList) "")
    (kept : DefaultKept toUpperCase .postgres cast type column (.string text)) :
    text.toList ≠ (DefaultValue.boolean flag).toText.toList := by
  intro isFlag
  have isStored : declaredValue .postgres (.string text) = some (.string text) := rfl
  have noNumber := ofText_flag flag
  have isRead : normalizeDefault (some (DefaultValue.boolean flag).toText.toList) "" =
      some (.string (DefaultValue.boolean flag).toText) := by
    cases flag <;> decide +kernel
  rw [isFlag, isRead] at read
  exact not_kept_of_text noNumber read (flag_twin flag) kept

theorem stripQuotes_of_same (plainly : PlainlyRead cast text) (mark : '\'' ∈ text.toList)
    (casts : removeCasts 0 text.toList = text.toList)
    (oneLine : text.toList.any JsText.isLineTerminator = false)
    (same : Matches toUpperCase .postgres cast type column (.string text) (.string text)) :
    stripQuotes (doubled text.toList) = text.toList := by
  have isStored : declaredValue .postgres (.string text) = some (.string text) := rfl
  have read : (readBack .postgres cast type
      (declared .postgres column (.string text))).defaultValue = _ :=
    (read_postgres_line plainly casts oneLine).trans
      (normalizeDefault_marked (mem_doubled.mpr mark))
  rcases valuesMatch_iff.mp ((matches_iff isStored read).mp same) with equal | numbers
  · have shown := congrArg String.toList equal
    rw [DefaultValue.toText, DefaultValue.toText, String.toList_ofList] at shown
    exact shown.symm
  · have noNumber : JsNumber.ofText text = .nan := by
      rw [← String.ofList_toList (s := text)]
      exact ofText_of_mark (Or.inl rfl) mark
    exact absurd noNumber numbers.2

theorem postgres_string_iff (text : String) :
    DefaultKept toUpperCase .postgres cast type column (.string text) ↔
      ReadableText .postgres cast type text.toList := by
  have isStored : declaredValue .postgres (.string text) = some (.string text) := rfl
  have whole : String.ofList text.toList = text := String.ofList_toList
  constructor
  · intro kept
    have apart : ¬ HasSequence .postgres (reportedLiteral .postgres cast (.string text)) :=
      fun found => not_kept_of_sequence found kept
    have plain := plain_of_same apart kept.same
    have plainly : PlainlyRead cast text := ⟨plain, apart⟩
    have called := (hasSequence_iff plain text).not.mp apart
    have casts := removeCasts_of_same plainly kept.same
    have oneLine := oneLine_of_same plainly kept.same
    by_cases free : '\'' ∉ text.toList
    · have read : (readBack .postgres cast type
          (declared .postgres column (.string text))).defaultValue = _ :=
        read_postgres_line plainly casts oneLine
      rw [doubled_of_not_mem free] at read
      rcases ordinary_of_kept read kept with ⟨notNull, notNaN⟩
      have notTrue : text.toList ≠ "true".toList := words_of_kept true read kept
      have notFalse : text.toList ≠ "false".toList := words_of_kept false read kept
      exact ⟨notNull, notNaN, plain, called, notTrue, notFalse, casts, oneLine, Or.inl free⟩
    · have mark := not_not.mp free
      have same := stripQuotes_of_same plainly mark casts oneLine kept.same
      have differs : ∀ word : String, '\'' ∉ word.toList → text.toList ≠ word.toList :=
        fun word free same => free (same ▸ mark)
      exact ⟨isWord_of_mark (by decide) mark, differs _ (by decide), plain, called,
        differs _ (by decide), differs _ (by decide), casts, oneLine,
        (stripQuotes_doubled_iff oneLine).mp same⟩
  · rintro ⟨notNull, notNaN, plain, called, notTrue, notFalse, casts, oneLine, marks⟩
    have plainly : PlainlyRead cast text := ⟨plain, (hasSequence_iff plain text).not.mpr called⟩
    have read : (readBack .postgres cast type
        (declared .postgres column (.string text))).defaultValue = _ :=
      read_postgres_line plainly casts oneLine
    by_cases free : '\'' ∉ text.toList
    · rw [doubled_of_not_mem free] at read
      exact kept_of_plain isStored read whole.symm (by rw [whole]; rfl) notNull
        (fun isBoolean => absurd isBoolean (by decide)) (stripQuotes_of_not_mem free) notNaN
        fun _ => ⟨notTrue, notFalse⟩
    · rw [normalizeDefault_marked (mem_doubled.mpr (not_not.mp free)),
        (stripQuotes_doubled_iff oneLine).mpr marks, whole] at read
      exact kept_of_text isStored read rfl rfl (fun same => notNaN (by rw [same]))
        fun _ => ⟨fun same => notTrue (by rw [same]), fun same => notFalse (by rw [same])⟩

end Postgres

section Results

variable {toUpperCase : List Char → List Char} {cast : CastType} {type : String}
  {column : ColumnSchema} (dialect : Dialect)

theorem mysql_string_iff (text : String) :
    DefaultKept toUpperCase .mysql cast type column (.string text) ↔
      ReadableText .mysql cast type text.toList := by
  have isStored : declaredValue .mysql (.string text) = some (.string text) := rfl
  have read : (readBack .mysql cast type (declared .mysql column (.string text))).defaultValue =
      normalizeDefault (some text.toList) type :=
    readBack_value isStored (not_hasSequence_mysql _)
  have whole : String.ofList text.toList = text := String.ofList_toList
  constructor
  · intro kept
    rcases ordinary_of_kept read kept with ⟨notNull, notNaN⟩
    have noFlag : BooleanType type → text.toList ≠ ['1'] ∧ text.toList ≠ ['0'] ∧
        isWord "true" text.toList = false ∧ isWord "false" text.toList = false := by
      intro isBoolean
      by_contra flag
      have found : text.toList = ['1'] ∨ text.toList = ['0'] ∨
          isWord "true" text.toList = true ∨ isWord "false" text.toList = true := by
        simp only [not_and_or, not_not, Bool.not_eq_false] at flag
        exact flag
      rcases normalizeDefault_flag notNull isBoolean found with ⟨flag, isFlag⟩
      exact not_kept_of_boolean (read.trans isFlag) kept
    refine ⟨notNull, notNaN, ?_, noFlag⟩
    by_cases free : '\'' ∉ text.toList
    · exact stripQuotes_of_not_mem free
    have noNumber : JsNumber.ofText text = .nan := by
      rw [← whole]
      exact ofText_of_mark (Or.inl rfl) (not_not.mp free)
    have notPlain : ¬ isPlainDecimal text.toList = true := fun plain =>
      ofText_of_isPlainDecimal plain (by rw [whole]; exact noNumber)
    rw [normalizeDefault_plain notNull noFlag, if_neg notPlain] at read
    rcases valuesMatch_iff.mp ((matches_iff isStored read).mp kept.same) with
      equal | numbers
    · have shown := congrArg String.toList equal
      rw [DefaultValue.toText, DefaultValue.toText, String.toList_ofList] at shown
      exact shown.symm
    · exact absurd noNumber numbers.2
  · rintro ⟨notNull, notNaN, unquoted, noFlag⟩
    exact kept_of_plain isStored read whole.symm (by rw [whole]; rfl) notNull noFlag unquoted notNaN
      nofun

theorem mark_not_mem_text {number : JsNumber} (double : number.IsDouble) {mark : Char}
    (isMark : mark = '\'' ∨ mark = ':' ∨ mark = '(') : mark ∉ number.text := by
  intro member
  have noNumber := JsNumber.ofText_text double
  rw [ofText_of_mark isMark member] at noNumber
  rw [← noNumber] at member
  rcases isMark with rfl | rfl | rfl <;> exact absurd member (by decide)

/-- The type by which the text of a number or a flag is read. -/
def readType (dialect : Dialect) (type : String) : String :=
  match dialect with
  | .mysql => type
  | .postgres => ""

theorem read_number (number : JsNumber.Double) :
    (readBack dialect cast type (declared dialect column (.number number))).defaultValue =
      normalizeDefault (some number.val.text) (readType dialect type) := by
  have isStored : declaredValue dialect (.number number) = some (.number number.val) := rfl
  have apart : ¬ HasSequence dialect (reportedLiteral dialect cast (.number number.val)) :=
    not_hasSequence_of_not_mem (mark_not_mem_text number.property (Or.inr (Or.inr rfl)))
  rw [readBack_value isStored apart]
  cases dialect with
  | mysql => rfl
  | postgres =>
      change normalizeDefault (some (stripQuotes (removeCasts 0 number.val.text))) "" = _
      rw [removeCasts_of_not_mem (mark_not_mem_text number.property (Or.inr (Or.inl rfl))),
        stripQuotes_of_not_mem (mark_not_mem_text number.property (Or.inl rfl))]
      rfl

theorem notNull_text {number : JsNumber} (double : number.IsDouble) :
    isWord "null" number.text = false := by
  by_contra isText
  have word : isWord "null" number.text = true := by simpa using isText
  have noNumber := JsNumber.ofText_text double
  rw [ofText_of_isWord (by decide : "null" ∈ _) word] at noNumber
  rw [← noNumber] at word
  exact absurd word (by decide)

theorem number_iff (number : JsNumber.Double) :
    DefaultKept toUpperCase dialect cast type column (.number number) ↔
      Readable dialect cast type (.number number) := by
  have isStored : declaredValue dialect (.number number) = some (.number number.val) := rfl
  have read : (readBack dialect cast type (declared dialect column (.number number))).defaultValue =
    _ := read_number dialect number
  have value := JsNumber.ofText_text number.property
  constructor
  · intro kept
    constructor
    · intro isNaN
      rw [isNaN, JsNumber.text, normalizeDefault_nan] at read
      exact not_kept_of_text ofText_nan read nan_twin kept
    · rintro rfl isBoolean
      by_contra flag
      have found : number.val.text = ['1'] ∨ number.val.text = ['0'] ∨
          isWord "true" number.val.text = true ∨ isWord "false" number.val.text = true := by
        simp only [not_and_or, not_not] at flag
        rcases flag with one | zero
        · rw [one]
          exact Or.inl (by decide +kernel)
        · rw [zero]
          exact Or.inr (Or.inl (by decide))
      rcases normalizeDefault_flag (notNull_text number.property) isBoolean found with
        ⟨flag, isFlag⟩
      exact not_kept_of_boolean (read.trans isFlag) kept
  · rintro ⟨notNaN, noFlag⟩
    have noWord : ∀ word ∈ ["null", "true", "false"], isWord word number.val.text = false := by
      intro word among
      by_contra isText
      rw [ofText_of_isWord among (by simpa using isText)] at value
      exact notNaN value.symm
    have differs : ∀ {text : String} {other : JsNumber},
        JsNumber.ofText text = other → number.val ≠ other → number.val.text ≠ text.toList := by
      intro text other isOther notOther same
      rw [same, String.ofList_toList, isOther] at value
      exact notOther value.symm
    have unquoted := stripQuotes_of_not_mem (mark_not_mem_text number.property (Or.inl rfl))
    refine kept_of_plain isStored read rfl value.symm (noWord _ (by decide)) (fun isBoolean => ?_)
      unquoted (differs ofText_nan notNaN)
      fun _ => ⟨differs (ofText_flag true) notNaN, differs (ofText_flag false) notNaN⟩
    cases dialect with
    | postgres => exact absurd isBoolean (by decide : ¬ BooleanType "")
    | mysql =>
        have noFlag := noFlag rfl isBoolean
        exact ⟨differs (ofText_digit true) noFlag.1, differs (ofText_digit false) noFlag.2,
          noWord _ (by decide), noWord _ (by decide)⟩

theorem boolean_iff (flag : Bool) :
    DefaultKept toUpperCase dialect cast type column (.boolean flag) ↔
      Readable dialect cast type (.boolean flag) := by
  cases dialect with
  | mysql =>
      have isStored : declaredValue .mysql (.boolean flag) =
          some (.string (if flag then "1" else "0")) := rfl
      have read : (readBack .mysql cast type
        (declared .mysql column (.boolean flag))).defaultValue =
          normalizeDefault (some [if flag then '1' else '0']) type := by
        rw [readBack_value isStored (not_hasSequence_mysql _)]
        cases flag <;> rfl
      constructor
      · intro kept
        refine ⟨rfl, fun isBoolean => ?_⟩
        have notNull : isWord "null" [if flag then '1' else '0'] = false := by
          cases flag <;> decide
        rcases normalizeDefault_flag notNull isBoolean (by cases flag <;> simp) with
          ⟨found, isFound⟩
        exact not_kept_of_boolean (read.trans isFound) kept
      · rintro ⟨_, notBoolean⟩
        refine kept_of_plain isStored read ?_ ?_ ?_ (fun isBoolean => absurd isBoolean notBoolean)
          ?_ ?_ nofun
        all_goals cases flag <;> decide +kernel
  | postgres =>
      have isStored : declaredValue .postgres (.boolean flag) = some (.boolean flag) := rfl
      have read : (readBack .postgres cast type
          (declared .postgres column (.boolean flag))).defaultValue =
            some (.string (DefaultValue.boolean flag).toText) := by
        have free : '(' ∉ (if flag then "true" else "false").toList := by cases flag <;> decide
        rw [readBack_value isStored (not_hasSequence_of_not_mem free)]
        change normalizePostgresDefault (some (if flag then "true" else "false").toList) = _
        cases flag <;> decide +kernel
      have noNumber := ofText_flag flag
      exact ⟨fun kept => absurd kept (not_kept_of_text noNumber read (flag_twin flag)),
        fun readable => nomatch readable.1⟩

/-- A default survives the catalogue, and passes for no other one, exactly when it is readable. -/
theorem default_kept_iff (toUpperCase : List Char → List Char) (dialect : Dialect)
    (cast : CastType) (type : String) (column : ColumnSchema) (stored : Initializer) :
    DefaultKept toUpperCase dialect cast type column stored ↔
        Readable dialect cast type stored := by
  cases stored with
  | string text =>
      cases dialect with
      | mysql => exact mysql_string_iff text
      | postgres => exact postgres_string_iff text
  | number number => exact number_iff dialect number
  | boolean flag => exact boolean_iff dialect flag
  | date =>
      have increment : (readBack dialect cast type (declared dialect column .date)).autoIncrement =
          false := by
        cases dialect <;> rfl
      exact ⟨fun kept => not_matches_date increment kept.same, fun readable => readable.elim⟩

/-- The creation time of an entity is declared as an expression and read back as a string. -/
theorem date_not_kept : ¬ DefaultKept (List.map Char.toUpper) .mysql
    ⟨[], ⟨"text".toList, false, by decide⟩, false⟩ "datetime"
      { stateColumn with name := "created", type := "datetime" } .date := by
  intro kept
  exact absurd kept.same (by unfold Matches; decide +kernel)

end Results

end ServerFoundation.Schema
