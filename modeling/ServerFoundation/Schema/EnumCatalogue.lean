import Mathlib
import ServerFoundation.Schema.EnumTypes

/-!
# Enumerations survive the catalogue

Each of the rewritings acts on the quoted values one by one, because a quotation mark is
neither white space nor part of a word. An enumeration comes back as it was declared when
the rewritings leave each of its values alone.
-/

namespace ServerFoundation.Schema

open Sql

section Casing

variable {lower : List Char} {text : List Char}

/-- Characters that are not upper case stay; the others become letters that are not. -/
inductive Lowered (isUpper : Char → Bool) : List Char → List Char → Prop where
  | nil : Lowered isUpper [] []
  | keeps {char : Char} {text lower : List Char} (small : isUpper char = false)
      (rest : Lowered isUpper text lower) : Lowered isUpper (char :: text) (char :: lower)
  | lowers {char : Char} {text letters lower : List Char} (upper : isUpper char = true)
      (small : ∀ letter ∈ letters, isUpper letter = false)
      (areLetters : ∀ letter ∈ letters,
        letter.isLower = true ∨ 0x80 ≤ letter.toNat ∧ JsNumber.isWhiteSpace letter = false)
      (rest : Lowered isUpper text lower) : Lowered isUpper (char :: text) (letters ++ lower)

/-- `String.prototype.toLowerCase`. -/
structure LowerCasing where
  toLowerCase : List Char → List Char
  isUpper : Char → Bool
  ascii : ∀ char : Char, char.toNat < 0x80 → isUpper char = char.isUpper
  lowered : ∀ text, Lowered isUpper text (toLowerCase text)

variable {isUpper : Char → Bool}

theorem Lowered.append_inv {front back : List Char}
    (lowered : Lowered isUpper (front ++ back) lower) :
    ∃ left right, lower = left ++ right ∧ Lowered isUpper front left ∧
      Lowered isUpper back right := by
  induction front generalizing lower with
  | nil => exact ⟨[], lower, rfl, .nil, lowered⟩
  | cons char front ih =>
      cases lowered with
      | keeps small rest =>
          rcases ih rest with ⟨left, right, rfl, isFront, isBack⟩
          exact ⟨char :: left, right, rfl, .keeps small isFront, isBack⟩
      | lowers upper small areLetters rest =>
          rcases ih rest with ⟨left, right, rfl, isFront, isBack⟩
          exact ⟨_ ++ left, right, (List.append_assoc _ _ _).symm,
            .lowers upper small areLetters isFront, isBack⟩

theorem Lowered.eq_of_small (lowered : Lowered isUpper text lower)
    (small : ∀ char ∈ text, isUpper char = false) : lower = text := by
  induction lowered with
  | nil => rfl
  | keeps _ _ ih => rw [ih fun char member => small char (List.mem_cons_of_mem _ member)]
  | lowers upper =>
      rw [small _ List.mem_cons_self] at upper
      cases upper

theorem Lowered.small (lowered : Lowered isUpper text lower) :
    ∀ char ∈ lower, isUpper char = false := by
  induction lowered with
  | nil => simp
  | keeps small _ ih => simpa [small] using ih
  | lowers _ small _ _ ih =>
      intro char member
      rcases List.mem_append.mp member with first | others
      · exact small char first
      · exact ih char others

theorem Lowered.mem_of_mem (lowered : Lowered isUpper text lower) {char : Char}
    (ascii : char.toNat < 0x80) (notLower : char.isLower = false) (member : char ∈ lower) :
    char ∈ text := by
  induction lowered with
  | nil => cases member
  | keeps _ _ ih =>
      rcases List.mem_cons.mp member with rfl | others
      · exact List.mem_cons_self
      · exact List.mem_cons_of_mem _ (ih others)
  | lowers _ _ areLetters _ ih =>
      rcases List.mem_append.mp member with first | others
      · rcases areLetters char first with isLower | ⟨beyond, _⟩
        · rw [notLower] at isLower
          cases isLower
        · omega
      · exact List.mem_cons_of_mem _ (ih others)

end Casing

section Doubled

variable {char : Char} {text : List Char} {word : List Char}

/-- A text with its quotation marks doubled. -/
def doubled (text : List Char) : List Char :=
  text.flatMap fun char => if char = '\'' then ['\'', '\''] else [char]

theorem doubled_cons (other : char ≠ '\'') (text : List Char) :
    doubled (char :: text) = char :: doubled text := by
  simp [doubled, other]

theorem doubled_quote (text : List Char) :
    doubled ('\'' :: text) = '\'' :: '\'' :: doubled text := rfl

theorem doubled_append (front back : List Char) :
    doubled (front ++ back) = doubled front ++ doubled back :=
  List.flatMap_append

theorem doubled_of_not_mem (plain : '\'' ∉ text) : doubled text = text := by
  induction text with
  | nil => rfl
  | cons char text ih =>
      rw [List.mem_cons, not_or] at plain
      rw [doubled_cons (Ne.symm plain.1), ih plain.2]

theorem mem_doubled : char ∈ doubled text ↔ char ∈ text := by
  induction text with
  | nil => rfl
  | cons first text ih =>
      by_cases quote : first = '\''
      · subst quote
        simp [doubled_quote, ih]
      · simp [doubled_cons quote, ih]

theorem undouble_doubled (text : List Char) : undouble (doubled text) = text := by
  induction text with
  | nil => rfl
  | cons char text ih =>
      by_cases quote : char = '\''
      · subst quote
        rw [doubled_quote, undouble, ih]
      · rw [doubled_cons quote, undouble, ih]
        rintro _ isQuote
        exact absurd isQuote quote

theorem Lowered.of_doubled {isUpper : Char → Bool} (quoteSmall : isUpper '\'' = false)
    {lower : List Char} (lowered : Lowered isUpper (doubled text) lower) :
    ∃ small, lower = doubled small ∧ Lowered isUpper text small := by
  induction text generalizing lower with
  | nil =>
      cases lowered
      exact ⟨[], rfl, .nil⟩
  | cons char text ih =>
      by_cases quote : char = '\''
      · subst quote
        rw [doubled_quote] at lowered
        cases lowered with
        | keeps _ rest =>
            cases rest with
            | keeps _ rest =>
                rcases ih rest with ⟨small, rfl, isSmall⟩
                exact ⟨'\'' :: small, rfl, .keeps quoteSmall isSmall⟩
            | lowers upper => exact absurd upper (by simp [quoteSmall])
        | lowers upper => exact absurd upper (by simp [quoteSmall])
      · rw [doubled_cons quote] at lowered
        cases lowered with
        | keeps small rest =>
            rcases ih rest with ⟨others, rfl, isSmall⟩
            exact ⟨char :: others, (doubled_cons quote _).symm, .keeps small isSmall⟩
        | @lowers _ _ letters _ upper small areLetters rest =>
            rcases ih rest with ⟨others, rfl, isSmall⟩
            have plain : '\'' ∉ letters := fun member => absurd (areLetters _ member) (by decide)
            refine ⟨letters ++ others, ?_, .lowers upper small areLetters isSmall⟩
            rw [doubled_append, doubled_of_not_mem plain]

theorem collapse_cons_of_not_space (full : JsNumber.isWhiteSpace char = false) (behindSpace : Bool)
    (text : List Char) : collapse behindSpace (char :: text) = char :: collapse false text := by
  simp [collapse, full]

theorem collapse_doubled (behindSpace : Bool) (text : List Char) :
    collapse behindSpace (doubled text) = doubled (collapse behindSpace text) := by
  induction text generalizing behindSpace with
  | nil => rfl
  | cons char text ih =>
      by_cases quote : char = '\''
      · subst quote
        rw [doubled_quote, collapse_cons_of_not_space rfl, collapse_cons_of_not_space rfl,
          collapse_cons_of_not_space rfl, ih, doubled_quote]
      · rw [doubled_cons quote, collapse, collapse]
        split_ifs
        · exact ih true
        · rw [ih, doubled_append]
          rfl
        · rw [ih, doubled_cons quote]

theorem behindWord_cut (outside : char ∉ word) (front back : List Char) :
    behindWord word (front ++ char :: back) = (behindWord word front).map (· ++ char :: back) := by
  induction word generalizing front with
  | nil => simp [behindWord]
  | cons letter word ih =>
      rw [List.mem_cons, not_or] at outside
      cases front with
      | nil => simp [behindWord, Ne.symm outside.1]
      | cons first front =>
          simp only [List.cons_append, behindWord]
          split_ifs
          · exact ih outside.2 front
          · rfl

theorem behindWord_doubled (plain : '\'' ∉ word) (text : List Char) :
    behindWord word (doubled text) = (behindWord word text).map doubled := by
  induction word generalizing text with
  | nil => simp [behindWord]
  | cons letter word ih =>
      rw [List.mem_cons, not_or] at plain
      cases text with
      | nil => rfl
      | cons char text =>
          by_cases quote : char = '\''
          · subst quote
            simp [doubled_quote, behindWord, Ne.symm plain.1]
          · rw [doubled_cons quote, behindWord, behindWord]
            split_ifs
            · exact ih plain.2 text
            · rfl

theorem eq_append_of_behindWord {rest : List Char} (found : behindWord word text = some rest) :
    text = word ++ rest := by
  induction word generalizing text with
  | nil =>
      cases found
      rfl
  | cons letter word ih =>
      cases text with
      | nil => cases found
      | cons char text =>
          rw [behindWord] at found
          split_ifs at found with same
          rw [ih found, same, List.cons_append]

theorem eq_append_of_unsignedHere (here : unsignedHere text = true) :
    ∃ rest, text = unsignedWord ++ rest := by
  cases found : behindWord unsignedWord text with
  | none => simp [unsignedHere, found] at here
  | some rest => exact ⟨rest, eq_append_of_behindWord found⟩

theorem unsignedHere_doubled (text : List Char) :
    unsignedHere (doubled text) = unsignedHere text := by
  rw [unsignedHere, unsignedHere, behindWord_doubled (by decide), Option.any_map]
  congr 1
  funext rest
  cases rest with
  | nil => rfl
  | cons char rest =>
      by_cases quote : char = '\''
      · subst quote
        rfl
      · rw [doubled_cons quote]
        rfl

theorem unsignedHere_cut (outside : isWordChar char = false) (front back : List Char) :
    unsignedHere (front ++ char :: back) = unsignedHere front := by
  have notLetter : char ∉ unsignedWord := by
    intro member
    have isWord : ∀ letter ∈ unsignedWord, isWordChar letter = true :=
      List.all_eq_true.mp (by decide)
    rw [isWord char member] at outside
    cases outside
  rw [unsignedHere, unsignedHere, behindWord_cut notLetter, Option.any_map]
  congr 1
  funext rest
  cases rest with
  | nil => simp [outside]
  | cons first rest => rfl

theorem removeUnsigned_cut (outside : isWordChar char = false) {skipped : ℕ} {behindLetter : Bool}
    {front : List Char} (within : skipped ≤ front.length) (back : List Char) :
    removeUnsigned skipped behindLetter (front ++ char :: back) =
      removeUnsigned skipped behindLetter front ++ char :: removeUnsigned 0 false back := by
  induction front generalizing skipped behindLetter with
  | nil =>
      cases Nat.le_zero.mp within
      have notHere : unsignedHere (char :: back) = false := unsignedHere_cut outside [] back
      simp [removeUnsigned, notHere, outside]
  | cons first front ih =>
      rw [List.length_cons] at within
      cases skipped with
      | zero =>
          have same := unsignedHere_cut outside (first :: front) back
          rw [List.cons_append] at same
          rw [List.cons_append, removeUnsigned, removeUnsigned, same]
          split_ifs with here
          · rw [Bool.and_eq_true] at here
            rcases eq_append_of_unsignedHere here.2 with ⟨rest, shown⟩
            apply ih
            have length := congrArg List.length shown
            simp only [List.length_cons, List.length_append] at length
            have eight : unsignedWord.length = 8 := rfl
            omega
          · rw [ih (Nat.zero_le _), List.cons_append]
      | succ skipped =>
          rw [List.cons_append, removeUnsigned, removeUnsigned]
          exact ih (by omega)

theorem removeUnsigned_doubled {skipped : ℕ} {behindLetter : Bool}
    (plain : '\'' ∉ text.take skipped) :
    removeUnsigned skipped behindLetter (doubled text) =
      doubled (removeUnsigned skipped behindLetter text) := by
  induction text generalizing skipped behindLetter with
  | nil => cases skipped <;> rfl
  | cons char text ih =>
      cases skipped with
      | zero =>
          by_cases quote : char = '\''
          · subst quote
            have skip : ∀ behindLetter rest, removeUnsigned 0 behindLetter ('\'' :: rest) =
                '\'' :: removeUnsigned 0 false rest := fun behindLetter rest =>
              removeUnsigned_cut rfl (Nat.zero_le ([] : List Char).length) rest
            rw [doubled_quote, skip, skip, skip, ih (by simp), doubled_quote]
          · have same := unsignedHere_doubled (char :: text)
            rw [doubled_cons quote] at same
            rw [doubled_cons quote, removeUnsigned, removeUnsigned, same]
            split_ifs with here
            · rw [Bool.and_eq_true] at here
              rcases eq_append_of_unsignedHere here.2 with ⟨rest, shown⟩
              apply ih
              rw [(List.cons.inj shown).2]
              simp
            · rw [ih (by simp), doubled_cons quote]
      | succ skipped =>
          rw [List.take_succ_cons, List.mem_cons, not_or] at plain
          rw [doubled_cons (Ne.symm plain.1), removeUnsigned, removeUnsigned]
          exact ih plain.2

end Doubled

section Items

/-- A value in the list of an enumeration. -/
def quotedItem (value : List Char) : List Char := '\'' :: doubled value ++ ['\'']

/-- The text of an enumeration. -/
def enumText (values : List (List Char)) : List Char :=
  ['e', 'n', 'u', 'm'] ++ '(' :: ([','].intercalate (values.map quotedItem) ++ [')'])

/-- A rewriting that quotation marks and other delimiters cut into independent pieces. -/
structure ActsOnQuotes (rewriting : Bool → List Char → List Char) : Prop where
  cut : ∀ {char : Char}, char ∈ ['\'', ',', '(', ')'] → ∀ behind front back,
    rewriting behind (front ++ char :: back) = rewriting behind front ++ char ::
      rewriting false back
  ofDoubled : ∀ text, rewriting false (doubled text) = doubled (rewriting false text)
  nil : ∀ behind, rewriting behind [] = []
  word : rewriting false ['e', 'n', 'u', 'm'] = ['e', 'n', 'u', 'm']

theorem ActsOnQuotes.collapse : ActsOnQuotes collapse where
  cut := by
    intro char delimiter behind front back
    have full : JsNumber.isWhiteSpace char = false := by
      simp only [List.mem_cons, List.not_mem_nil, or_false] at delimiter
      rcases delimiter with rfl | rfl | rfl | rfl <;> decide
    induction front generalizing behind with
    | nil => exact collapse_cons_of_not_space full behind back
    | cons first front ih =>
        simp only [List.cons_append, Schema.collapse]
        split_ifs <;> simp [ih]
  ofDoubled := collapse_doubled false
  nil := fun _ => rfl
  word := rfl

theorem ActsOnQuotes.removeUnsigned : ActsOnQuotes (removeUnsigned 0) where
  cut := by
    intro char delimiter behind front back
    have outside : isWordChar char = false := by
      simp only [List.mem_cons, List.not_mem_nil, or_false] at delimiter
      rcases delimiter with rfl | rfl | rfl | rfl <;> decide
    exact removeUnsigned_cut outside (Nat.zero_le _) back
  ofDoubled := fun text => removeUnsigned_doubled (by simp)
  nil := fun _ => rfl
  word := rfl

variable {rewriting : Bool → List Char → List Char}

theorem ActsOnQuotes.cons (acts : ActsOnQuotes rewriting) {char : Char}
    (delimiter : char ∈ ['\'', ',', '(', ')']) (rest : List Char) :
    rewriting false (char :: rest) = char :: rewriting false rest := by
  have cut := acts.cut delimiter false [] rest
  rwa [acts.nil, List.nil_append, List.nil_append] at cut

theorem ActsOnQuotes.quotedItem_append (acts : ActsOnQuotes rewriting) (value rest : List Char) :
    rewriting false (quotedItem value ++ rest) =
      quotedItem (rewriting false value) ++ rewriting false rest := by
  have shape : ∀ value rest : List Char,
      quotedItem value ++ rest = '\'' :: (doubled value ++ '\'' :: rest) := by
    intro value rest
    simp [quotedItem]
  rw [shape, shape, acts.cons (by decide), acts.cut (by decide), acts.ofDoubled]

theorem ActsOnQuotes.enumText (acts : ActsOnQuotes rewriting) (values : List (List Char)) :
    rewriting false (enumText values) = enumText (values.map (rewriting false)) := by
  have items : ∀ values : List (List Char),
      rewriting false ([','].intercalate (values.map quotedItem) ++ [')']) =
        [','].intercalate ((values.map (rewriting false)).map quotedItem) ++ [')'] := by
    intro values
    induction values with
    | nil =>
        simpa [acts.nil] using acts.cons (by decide : ')' ∈ ['\'', ',', '(', ')']) []
    | cons value values ih =>
        cases values with
        | nil =>
            have closed := acts.cons (by decide : ')' ∈ ['\'', ',', '(', ')']) []
            rw [acts.nil] at closed
            simpa [closed] using acts.quotedItem_append value [')']
        | cons second others =>
            have shape : ∀ (value second : List Char) (others : List (List Char)),
                [','].intercalate ((value :: second :: others).map quotedItem) ++ [')'] =
                  quotedItem value ++
                    ',' :: ([','].intercalate ((second :: others).map quotedItem) ++ [')']) := by
              intro value second others
              simp [List.intercalate_cons_cons]
            rw [shape, acts.quotedItem_append, acts.cons (by decide), ih]
            simp only [List.map_cons] at shape ⊢
            rw [shape]
  rw [Schema.enumText, acts.cut (by decide), acts.word, items]
  rfl

variable {isUpper : Char → Bool}

theorem Lowered.of_enumText (ascii : ∀ char : Char, char.toNat < 0x80 → isUpper char = char.isUpper)
    {values : List (List Char)} {lower : List Char}
    (lowered : Lowered isUpper (enumText values) lower) :
    ∃ smalls, lower = enumText smalls ∧ List.Forall₂ (Lowered isUpper) values smalls := by
  have stays : ∀ {text lower : List Char}, Lowered isUpper text lower →
      (text.all fun char => char.toNat < 0x80 && !char.isUpper) = true → lower = text := by
    intro text lower lowered plain
    refine lowered.eq_of_small fun char member => ?_
    have small := List.all_eq_true.mp plain char member
    simp only [Bool.and_eq_true, decide_eq_true_eq, Bool.not_eq_true'] at small
    rw [ascii char small.1, small.2]
  have item : ∀ {value lower : List Char}, Lowered isUpper (quotedItem value) lower →
      ∃ small, lower = quotedItem small ∧ Lowered isUpper value small := by
    intro value lower lowered
    have opened : Lowered isUpper (['\''] ++ (doubled value ++ ['\''])) lower := by
      simpa [quotedItem] using lowered
    rcases opened.append_inv with ⟨left, behind, rfl, isLeft, isBehind⟩
    rcases isBehind.append_inv with ⟨middle, right, rfl, isMiddle, isRight⟩
    rcases isMiddle.of_doubled (by rw [ascii _ (by decide)]; rfl) with ⟨small, rfl, isSmall⟩
    refine ⟨small, ?_, isSmall⟩
    rw [stays isLeft (by decide), stays isRight (by decide)]
    rfl
  have items : ∀ {values : List (List Char)} {lower : List Char},
      Lowered isUpper ([','].intercalate (values.map quotedItem)) lower →
      ∃ smalls, lower = [','].intercalate (smalls.map quotedItem) ∧
        List.Forall₂ (Lowered isUpper) values smalls := by
    intro values
    induction values with
    | nil =>
        intro lower lowered
        cases lowered
        exact ⟨[], rfl, .nil⟩
    | cons value values ih =>
        intro lower lowered
        cases values with
        | nil =>
            rcases item (by simpa using lowered) with ⟨small, rfl, isSmall⟩
            exact ⟨[small], by simp, .cons isSmall .nil⟩
        | cons second others =>
            rw [List.map_cons, List.map_cons, List.intercalate_cons_cons] at lowered
            rcases lowered.append_inv with ⟨front, back, rfl, isFront, isBack⟩
            rcases isFront.append_inv with ⟨left, comma, rfl, isLeft, isComma⟩
            rcases item isLeft with ⟨small, rfl, isSmall⟩
            rcases ih isBack with ⟨smalls, rfl, areSmall⟩
            refine ⟨small :: smalls, ?_, .cons isSmall areSmall⟩
            rw [stays isComma (by decide)]
            cases areSmall
            simp [List.intercalate_cons_cons]
  have opened : Lowered isUpper (['e', 'n', 'u', 'm', '('] ++
      ([','].intercalate (values.map quotedItem) ++ [')'])) lower := by
    simpa [enumText] using lowered
  rcases opened.append_inv with ⟨left, behind, rfl, isLeft, isBehind⟩
  rcases isBehind.append_inv with ⟨middle, right, rfl, isMiddle, isRight⟩
  rcases items isMiddle with ⟨smalls, rfl, areSmall⟩
  refine ⟨smalls, ?_, areSmall⟩
  rw [stays isLeft (by decide), stays isRight (by decide)]
  simp [enumText]

end Items

section Reading

variable {text : List Char} {char : Char} {values : List (List Char)}

/-- An item of the list of an enumeration as it is taken apart. -/
def readItem (item : List Char) : List Char := undouble (stripQuotes (JsNumber.trim item))

theorem trim_enclosed {first last : Char} (firstFull : JsNumber.isWhiteSpace first = false)
    (lastFull : JsNumber.isWhiteSpace last = false) (inner : List Char) :
    JsNumber.trim (first :: (inner ++ [last])) = first :: (inner ++ [last]) := by
  simp [JsNumber.trim, firstFull, lastFull]

theorem readItem_quotedItem {value : List Char}
    (oneLine : value.any JsText.isLineTerminator = false) :
    readItem (quotedItem value) = value := by
  have inner : (doubled value).any JsText.isLineTerminator = false := by
    rw [List.any_eq_false] at oneLine ⊢
    exact fun char member => oneLine char (mem_doubled.mp member)
  have trimmed : JsNumber.trim (quotedItem value) = quotedItem value :=
    trim_enclosed (by decide) (by decide) _
  rw [readItem, trimmed, quotedItem, List.cons_append, stripQuotes]
  simp [inner, undouble_doubled]

theorem mem_of_mem_undouble (member : char ∈ undouble text) : char ∈ text := by
  fun_induction undouble text with
  | case1 rest ih =>
      rcases List.mem_cons.mp member with rfl | others
      · exact List.mem_cons_self
      · exact List.mem_cons_of_mem _ (List.mem_cons_of_mem _ (ih others))
  | case2 first rest _ ih =>
      rcases List.mem_cons.mp member with rfl | others
      · exact List.mem_cons_self
      · exact List.mem_cons_of_mem _ (ih others)
  | case3 => cases member

theorem mem_of_mem_stripQuotes (member : char ∈ stripQuotes text) : char ∈ text := by
  unfold stripQuotes at member
  split at member
  · split_ifs at member
    · exact List.mem_cons_of_mem _ (List.dropLast_subset _ member)
    · exact member
  · exact member

theorem mem_of_mem_readItem {item : List Char} (member : char ∈ readItem item) : char ∈ item := by
  have trimmed := mem_of_mem_stripQuotes (mem_of_mem_undouble member)
  rw [JsNumber.trim, List.mem_reverse] at trimmed
  exact (List.dropWhile_sublist _).mem
    (List.mem_reverse.mp ((List.dropWhile_sublist _).mem trimmed))

theorem comma_not_mem_quotedItem {value : List Char} (plain : ',' ∉ value) :
    ',' ∉ quotedItem value := by
  simpa [quotedItem, mem_doubled] using plain

theorem splitCommas_items (given : values ≠ []) (plain : ∀ value ∈ values, ',' ∉ value) :
    JsText.splitCommas ([','].intercalate (values.map quotedItem)) = values.map quotedItem := by
  induction values with
  | nil => exact absurd rfl given
  | cons value values ih =>
      have first := comma_not_mem_quotedItem (plain value List.mem_cons_self)
      cases values with
      | nil => simpa using JsText.splitCommas_of_not_mem first
      | cons second others =>
          have rest := ih nofun fun value member => plain value (List.mem_cons_of_mem _ member)
          rw [List.map_cons, List.map_cons, List.intercalate_cons_cons, List.append_assoc,
            List.singleton_append, JsText.splitCommas_append first, ← List.map_cons, rest]

theorem enumBody_enumText (oneLine : ∀ value ∈ values, value.any JsText.isLineTerminator = false) :
    enumBody (enumText values) = some ([','].intercalate (values.map quotedItem)) := by
  have inner : ([','].intercalate (values.map quotedItem)).any JsText.isLineTerminator = false := by
    induction values with
    | nil => rfl
    | cons value values ih =>
        have first : (quotedItem value).any JsText.isLineTerminator = false := by
          have plain := List.any_eq_false.mp (oneLine value List.mem_cons_self)
          rw [List.any_eq_false]
          intro char member
          simp only [quotedItem, List.cons_append, List.mem_cons, List.mem_append, mem_doubled,
            List.not_mem_nil, or_false] at member
          rcases member with rfl | inValue | rfl
          · decide
          · exact plain char inValue
          · decide
        have rest := ih fun value member => oneLine value (List.mem_cons_of_mem _ member)
        cases values with
        | nil => simpa using first
        | cons second others =>
            rw [List.map_cons, List.map_cons, List.intercalate_cons_cons, List.any_append,
              List.any_append, first, ← List.map_cons, rest]
            rfl
  simpa [enumBody, enumText, behindWord, JsNumber.isWhiteSpace] using inner

theorem eq_space_of_mem_collapse {behindSpace : Bool} (member : char ∈ collapse behindSpace text) :
    char = ' ' ∨ char ∈ text ∧ JsNumber.isWhiteSpace char = false := by
  induction text generalizing behindSpace with
  | nil => cases member
  | cons first text ih =>
      rw [collapse] at member
      split_ifs at member with isSpace behind
      · exact (ih member).imp_right (And.imp_left (List.mem_cons_of_mem _))
      · rcases List.mem_cons.mp member with rfl | others
        · exact Or.inl rfl
        · exact (ih others).imp_right (And.imp_left (List.mem_cons_of_mem _))
      · rcases List.mem_cons.mp member with rfl | others
        · exact Or.inr ⟨List.mem_cons_self, by simpa using isSpace⟩
        · exact (ih others).imp_right (And.imp_left (List.mem_cons_of_mem _))

theorem removeUnsigned_sublist (skipped : ℕ) (behindLetter : Bool) (text : List Char) :
    (removeUnsigned skipped behindLetter text).Sublist text := by
  induction text generalizing skipped behindLetter with
  | nil => cases skipped <;> exact List.Sublist.refl _
  | cons char text ih =>
      cases skipped with
      | zero =>
          rw [removeUnsigned]
          split_ifs
          · exact (ih _ _).cons _
          · exact (ih _ _).cons_cons _
      | succ skipped => exact (ih _ _).cons _

theorem removeUnsigned_of_not_hasUnsigned {behindLetter : Bool}
    (without : hasUnsigned behindLetter text = false) :
    removeUnsigned 0 behindLetter text = text := by
  induction text generalizing behindLetter with
  | nil => rfl
  | cons char text ih =>
      rw [hasUnsigned, Bool.or_eq_false_iff] at without
      rw [removeUnsigned, without.1, ih without.2]
      rfl

theorem length_removeUnsigned_lt {behindLetter : Bool}
    (word : hasUnsigned behindLetter text = true) :
    (removeUnsigned 0 behindLetter text).length < text.length := by
  induction text generalizing behindLetter with
  | nil => cases word
  | cons char text ih =>
      rw [removeUnsigned]
      split_ifs with here
      · exact Nat.lt_succ_of_le (removeUnsigned_sublist 7 true text).length_le
      · rw [hasUnsigned, Bool.or_eq_true] at word
        exact Nat.succ_lt_succ (ih (word.resolve_left here))

theorem length_collapse_le (behindSpace : Bool) (text : List Char) :
    (collapse behindSpace text).length ≤ text.length := by
  induction text generalizing behindSpace with
  | nil => exact le_refl _
  | cons char text ih =>
      rw [collapse]
      split_ifs
      · exact (ih true).trans (Nat.le_succ _)
      · exact Nat.succ_le_succ (ih true)
      · exact Nat.succ_le_succ (ih false)

end Reading

section Survival

variable (casing : LowerCasing) {char : Char}

/-- What becomes of a value that is in lower case. -/
def rewritten (value : List Char) : List Char := removeUnsigned 0 false (collapse false value)

/-- Lower case, no commas, no white space but single spaces, and not the word `unsigned`. -/
structure Survives (value : String) : Prop where
  lowerCase : ∀ char ∈ value.toList, casing.isUpper char = false
  noComma : ',' ∉ value.toList
  spaces : collapse false value.toList = value.toList
  signed : hasUnsigned false value.toList = false

variable {casing}

theorem eq_space_of_mem_rewritten {value : List Char} (member : char ∈ rewritten value) :
    char = ' ' ∨ char ∈ value ∧ JsNumber.isWhiteSpace char = false :=
  eq_space_of_mem_collapse ((removeUnsigned_sublist 0 false _).mem member)

theorem rewritten_oneLine (value : List Char) :
    (rewritten value).any JsText.isLineTerminator = false := by
  rw [List.any_eq_false]
  intro char member
  rcases eq_space_of_mem_rewritten member with rfl | ⟨_, full⟩
  · decide
  · intro ends
    have isSpace : JsNumber.isWhiteSpace char = true := by
      simp only [JsText.isLineTerminator, List.mem_cons, List.not_mem_nil, or_false,
        decide_eq_true_eq] at ends
      rcases ends with code | code | code | code <;> simp [JsNumber.isWhiteSpace, code]
    rw [full] at isSpace
    cases isSpace

theorem rewritten_of_survives {value : String} (survives : Survives casing value) :
    rewritten value.toList = value.toList := by
  rw [rewritten, survives.spaces, removeUnsigned_of_not_hasUnsigned survives.signed]

theorem survives_of_rewritten {value : String} {small : List Char} (noComma : ',' ∉ value.toList)
    (lowered : Lowered casing.isUpper value.toList small)
    (same : rewritten small = value.toList) : Survives casing value := by
  have lowerCase : ∀ char ∈ value.toList, casing.isUpper char = false := by
    intro char member
    rw [← same] at member
    rcases eq_space_of_mem_rewritten member with rfl | ⟨inSmall, _⟩
    · exact casing.ascii ' ' (by decide)
    · exact lowered.small char inSmall
  rw [lowered.eq_of_small lowerCase] at same
  have collapsed := length_collapse_le false value.toList
  have length := congrArg List.length same
  have signed : hasUnsigned false (collapse false value.toList) = false := by
    by_contra word
    have shorter := length_removeUnsigned_lt (eq_true_of_ne_false word)
    rw [rewritten] at length
    omega
  have spaces : collapse false value.toList = value.toList := by
    rwa [rewritten, removeUnsigned_of_not_hasUnsigned signed] at same
  rw [spaces] at signed
  exact ⟨lowerCase, noComma, spaces, signed⟩

theorem toList_reportedEnum (values : List String) :
    (reportedEnum values).toList = enumText (values.map String.toList) := by
  have item : ∀ value : String,
      (literal (.string value)).toList = quotedItem value.toList := by
    intro value
    simp [literal, doubleQuotes, quotedItem, doubled]
  simp only [reportedEnum, String.toList_append, String.toList_intercalate, List.map_map,
    enumText, Function.comp_def, item]
  rfl

theorem parse_reportedEnum (casing : LowerCasing) (values : List String) :
    ∃ smalls, List.Forall₂ (Lowered casing.isUpper) (values.map String.toList) smalls ∧
      parseRawSqlType casing.toLowerCase (reportedEnum values) .mysql =
        { type := "enum", size := none, scale := none, unsigned := none
          enumValues := some ((JsText.splitCommas
            ([','].intercalate ((smalls.map rewritten).map quotedItem))).map fun item =>
              String.ofList (readItem item)) } := by
  have lowered := casing.lowered (enumText (values.map String.toList))
  rcases lowered.of_enumText casing.ascii with ⟨smalls, shown, areSmall⟩
  have trimmed : ∀ values, JsNumber.trim (enumText values) = enumText values := by
    intro values
    exact trim_enclosed (by decide : JsNumber.isWhiteSpace 'e' = false) (by decide)
      (['n', 'u', 'm'] ++ '(' :: [','].intercalate (values.map quotedItem))
  have oneLine : ∀ value ∈ smalls.map rewritten, value.any JsText.isLineTerminator = false := by
    intro value member
    rcases List.mem_map.mp member with ⟨small, _, rfl⟩
    exact rewritten_oneLine small
  refine ⟨smalls, areSmall, ?_⟩
  have stages : (smalls.map (collapse false)).map (removeUnsigned 0 false) =
      smalls.map rewritten := by
    rw [List.map_map]
    rfl
  simp only [parseRawSqlType, toList_reportedEnum, trimmed, shown, ActsOnQuotes.collapse.enumText,
    ActsOnQuotes.removeUnsigned.enumText, stages, enumBody_enumText oneLine]
  rfl

variable {values : List String}

theorem parse_of_survives (given : values ≠ [])
    (survive : ∀ value ∈ values, Survives casing value) :
    (parseRawSqlType casing.toLowerCase (reportedEnum values) .mysql) =
      { type := "enum", size := none, scale := none, unsigned := none
        enumValues := some values } := by
  rcases parse_reportedEnum casing values with ⟨smalls, areSmall, parsed⟩
  have same : smalls.map rewritten = values.map String.toList := by
    clear parsed given
    induction values generalizing smalls with
    | nil =>
        cases areSmall
        rfl
    | cons value values ih =>
        rcases List.forall₂_cons_left_iff.mp areSmall with ⟨small, others, lowered, rest, rfl⟩
        have here := survive value List.mem_cons_self
        rw [List.map_cons, List.map_cons, lowered.eq_of_small here.lowerCase,
          rewritten_of_survives here,
          ih (fun value member => survive value (List.mem_cons_of_mem _ member)) others rest]
  have noComma : ∀ value ∈ values.map String.toList, ',' ∉ value := by
    intro value member
    rcases List.mem_map.mp member with ⟨text, inValues, rfl⟩
    exact (survive text inValues).noComma
  have oneLine : ∀ value ∈ values, (value.toList).any JsText.isLineTerminator = false := by
    intro value member
    rw [← rewritten_of_survives (survive value member)]
    exact rewritten_oneLine _
  rw [parsed, same, splitCommas_items (by simpa using given) noComma, List.map_map, List.map_map]
  congr 2
  calc values.map _ = values.map id := by
        apply List.map_congr_left
        intro value member
        simp only [Function.comp_apply, readItem_quotedItem (oneLine value member),
          String.ofList_toList, id]
    _ = values := List.map_id values

theorem exists_lowered {smalls : List (List Char)}
    (areSmall : List.Forall₂ (Lowered casing.isUpper) (values.map String.toList) smalls)
    {small : List Char} (member : small ∈ smalls) :
    ∃ value ∈ values, Lowered casing.isUpper value.toList small := by
  induction values generalizing smalls with
  | nil =>
      cases areSmall
      cases member
  | cons value values ih =>
      rcases List.forall₂_cons_left_iff.mp areSmall with ⟨first, others, lowered, rest, rfl⟩
      rcases List.mem_cons.mp member with rfl | among
      · exact ⟨value, List.mem_cons_self, lowered⟩
      · rcases ih rest among with ⟨found, inValues, isLowered⟩
        exact ⟨found, List.mem_cons_of_mem _ inValues, isLowered⟩

theorem survives_of_parse (given : values ≠ [])
    (parsed : (parseRawSqlType casing.toLowerCase (reportedEnum values) .mysql).enumValues =
      some values) : ∀ value ∈ values, Survives casing value := by
  rcases parse_reportedEnum casing values with ⟨smalls, areSmall, found⟩
  rw [found] at parsed
  simp only [Option.some.injEq] at parsed
  have noComma : ∀ value ∈ values, ',' ∉ value.toList := by
    intro value member comma
    rw [← parsed] at member
    rcases List.mem_map.mp member with ⟨item, among, rfl⟩
    rw [String.toList_ofList] at comma
    exact JsText.comma_not_mem_of_mem_splitCommas among (mem_of_mem_readItem comma)
  have plain : ∀ value ∈ smalls.map rewritten, ',' ∉ value := by
    intro value member comma
    rcases List.mem_map.mp member with ⟨small, among, rfl⟩
    rcases exists_lowered areSmall among with ⟨value, inValues, lowered⟩
    rcases eq_space_of_mem_rewritten comma with space | ⟨inSmall, _⟩
    · cases space
    · exact noComma value inValues (lowered.mem_of_mem (by decide) rfl inSmall)
  have some : smalls.map rewritten ≠ [] := by
    intro empty
    rw [List.map_eq_nil_iff] at empty
    rw [empty, List.forall₂_nil_right_iff, List.map_eq_nil_iff] at areSmall
    exact given areSmall
  have same : smalls.map rewritten = values.map String.toList := by
    rw [splitCommas_items some plain, List.map_map, List.map_map] at parsed
    rw [← parsed, List.map_map]
    apply List.map_congr_left
    intro small _
    simp only [Function.comp_apply, readItem_quotedItem (rewritten_oneLine small),
      String.toList_ofList]
  clear parsed found plain some given
  induction values generalizing smalls with
  | nil => nofun
  | cons value values ih =>
      rcases List.forall₂_cons_left_iff.mp areSmall with ⟨small, others, lowered, rest, rfl⟩
      rcases List.cons.inj same with ⟨first, same⟩
      intro text member
      rcases List.mem_cons.mp member with rfl | among
      · exact survives_of_rewritten (noComma text List.mem_cons_self) lowered first
      · exact ih others rest (fun value member => noComma value (List.mem_cons_of_mem _ member))
          same text among

/-- An unmodified enumeration is read as it was declared, and no change of its type is seen, if
and only if all its values survive. -/
theorem enum_survives_iff (casing : LowerCasing) {values : List String} (given : values ≠ [])
    (row : CatalogueType) (reported : row.columnType = reportedEnum values)
    (declared database : ColumnSchema) :
    ((readMySQLType casing.toLowerCase row database).type = "enum" ∧
        (readMySQLType casing.toLowerCase row database).enumValues = some values ∧
        typesMatch (enumColumn values declared)
          (readMySQLType casing.toLowerCase row database) .mysql = true) ↔
      ∀ value ∈ values, Survives casing value := by
  constructor
  · rintro ⟨_, found, _⟩
    refine survives_of_parse given ?_
    rwa [← reported]
  · intro survive
    have parsed := parse_of_survives given survive
    rw [← reported] at parsed
    simp [readMySQLType, parsed, inferSize, inferScale, enumColumn, typesMatch, typeAlias,
      booleanTinyintTypesMatch, relevantSize, sameSize]

theorem toLower_of_isUpper (upper : char.isUpper = true) :
    char.toLower.isUpper = false ∧ char.toLower.isLower = true := by
  have bounds : 65 ≤ char.toNat ∧ char.toNat ≤ 90 := by
    simpa [Char.isUpper, UInt32.le_iff_toNat_le] using upper
  rw [← Char.ofNat_toNat char]
  generalize char.toNat = code at bounds
  rcases bounds with ⟨low, high⟩
  interval_cases code <;> decide

theorem toLower_of_not_isUpper (small : char.isUpper = false) : char.toLower = char := by
  rw [Char.toLower, dif_neg]
  intro between
  simp only [Char.isUpper, decide_eq_false_iff_not] at small
  exact small between

/-- Lower case as far as ASCII goes. -/
def asciiCasing : LowerCasing where
  toLowerCase := List.map Char.toLower
  isUpper := Char.isUpper
  ascii := fun _ _ => rfl
  lowered := by
    intro text
    induction text with
    | nil => exact .nil
    | cons char text ih =>
        cases upper : char.isUpper with
        | true =>
            have letter := toLower_of_isUpper upper
            have small : ∀ lower ∈ [char.toLower], lower.isUpper = false := by
              simp [letter.1]
            exact .lowers upper small (by simp [letter.2]) ih
        | false =>
            rw [List.map_cons, toLower_of_not_isUpper upper]
            exact .keeps upper ih

/-- The column of the states of a job. -/
def stateColumn : ColumnSchema where
  name := "state"
  type := "enum"
  size := none
  scale := none
  unsigned := false
  nullable := false
  autoIncrement := false
  primaryKey := false
  defaultValue := none
  defaultExpression := none
  onUpdateExpression := none
  generated := none
  enumValues := none
  enumTypeName := none
  afterColumn := none

/-- The catalogue's row of an enumeration. -/
def enumRow (values : List String) : CatalogueType where
  columnType := reportedEnum values
  characterMaximum := some (.finite 8)
  numericPrecision := none
  numericScale := none

theorem enum_survives_iff_states :
    ((readMySQLType asciiCasing.toLowerCase (enumRow ["it's done", "queued"]) stateColumn).type =
        "enum" ∧
      (readMySQLType asciiCasing.toLowerCase (enumRow ["it's done", "queued"])
        stateColumn).enumValues = some ["it's done", "queued"] ∧
      typesMatch (enumColumn ["it's done", "queued"] stateColumn)
        (readMySQLType asciiCasing.toLowerCase (enumRow ["it's done", "queued"]) stateColumn)
        .mysql = true) ↔
      ∀ value ∈ ["it's done", "queued"], Survives asciiCasing value :=
  enum_survives_iff asciiCasing (List.cons_ne_nil _ _) (enumRow ["it's done", "queued"]) rfl
    stateColumn stateColumn

/-- Upper case comes back as lower case, and a comma takes a value apart. -/
theorem enum_changes :
    (readMySQLType asciiCasing.toLowerCase (enumRow ["Active", "a,b"]) stateColumn).enumValues =
        some ["active", "'a", "b'"] ∧
      typesMatch (enumColumn ["Active", "a,b"] stateColumn)
        (readMySQLType asciiCasing.toLowerCase (enumRow ["Active", "a,b"]) stateColumn) .mysql =
          false := by
  decide +kernel

end Survival

end ServerFoundation.Schema
