import ServerFoundation.Data.ThreeValued
import ServerFoundation.Sql.Skeleton

/-!
# The text of a condition

The text of a condition is cut into words and read with the precedence of SQL, where `AND` binds
tighter than `OR`. What is read is evaluated on a row in three-valued logic. A placeholder is read
as the value bound to it.
-/

namespace ServerFoundation.Sql

/-- What a column is compared with: a bound value, or the point that a bound text spells. -/
inductive Operand
  | bound (value : SqlValue)
  | point (value : SqlValue)

/-- What a condition asks of a row: whether a column is null, and how it compares. -/
structure Row where
  isNull : String → Bool
  compare : String → String → Operand → Truth
  /-- Nothing compares with a null. -/
  compare_null : ∀ operator column operand, isNull column = true →
    compare operator column operand = .unknown

/-- A condition as SQL reads it. -/
inductive Condition
  | never
  | isNull (column : String)
  | isNotNull (column : String)
  | compare (operator column : String) (operand : Operand)
  | oneOf (column : String) (operands : List Operand)
  | noneOf (column : String) (operands : List Operand)
  | and (left right : Condition)
  | or (left right : Condition)

/-- `column IN (operands)`, the disjunction of the equations. -/
def Row.oneOf (row : Row) (column : String) (operands : List Operand) : Truth :=
  .any (operands.map (row.compare "=" column))

/-- The value of a condition on a row. -/
def Condition.eval (row : Row) : Condition → Truth
  | .never => .fails
  | .isNull column => .ofBool (row.isNull column)
  | .isNotNull column => .ofBool !row.isNull column
  | .compare operator column operand => row.compare operator column operand
  | .oneOf column operands => row.oneOf column operands
  | .noneOf column operands => (row.oneOf column operands).not
  | .and left right => (left.eval row).and (right.eval row)
  | .or left right => (left.eval row).or (right.eval row)

section Words

/-- A letter of the text of a query, with names and bound values in their places. -/
inductive Letter
  | char (char : Char)
  | name (names : List String)
  | value (value : SqlValue)

/-- What a condition is written with. -/
inductive Token
  | opening
  | closing
  | comma
  | name (names : List String)
  | value (value : SqlValue)
  | and
  | or
  | is
  | not
  | null
  | isIn
  | geometry
  | operator (text : String)
  | word (text : List Char)

/-- The words that are no names. -/
def keywords : List (List Char × Token) :=
  [("AND".toList, .and), ("OR".toList, .or), ("IS".toList, .is), ("NOT".toList, .not),
    ("NULL".toList, .null), ("IN".toList, .isIn), ("ST_GeomFromText".toList, .geometry),
    ("=".toList, .operator "="), ("<>".toList, .operator "<>"), (">".toList, .operator ">"),
    (">=".toList, .operator ">="), ("<".toList, .operator "<"), ("<=".toList, .operator "<="),
    ("LIKE".toList, .operator "LIKE")]

/-- The token of a word that has ended. -/
def wordToken (word : List Char) : List Token :=
  if word = [] then [] else [(keywords.lookup word).getD (.word word)]

/-- The characters that end a word. -/
def separator : Char → Option (List Token)
  | ' ' => some []
  | ',' => some [.comma]
  | '(' => some [.opening]
  | ')' => some [.closing]
  | _ => none

/-- The tokens of a text, behind the letters of a word that has begun. -/
def tokens : List Char → List Letter → List Token
  | word, [] => wordToken word
  | word, .char char :: rest =>
      match separator char with
      | some ended => wordToken word ++ ended ++ tokens [] rest
      | none => tokens (word ++ [char]) rest
  | word, .name names :: rest => wordToken word ++ .name names :: tokens [] rest
  | word, .value value :: rest => wordToken word ++ .value value :: tokens [] rest

end Words

section Reading

/-- Where an operand stands. -/
inductive Place
  | comparison (operator column : String)
  | item (column : String) (negated : Bool) (operands : List Operand)

/-- What the reader expects next. -/
inductive Mode
  | start
  | literal
  | literalEquals
  | named (column : String)
  | isColumn (column : String)
  | isNotColumn (column : String)
  | notColumn (column : String)
  | list (column : String) (negated : Bool)
  | compared (place : Place)
  | geometry (place : Place)
  | geometryText (place : Place)
  | geometryEnd (place : Place) (value : SqlValue)
  | listed (column : String) (negated : Bool) (operands : List Operand)
  | done (condition : Condition)

/-- What stands before an operand at its level of parentheses: the alternatives before the last
`OR`, and the conjunction since then. -/
structure Frame where
  alternatives : Option Condition
  conjuncts : Option Condition

/-- Nothing stands before an operand. -/
def Frame.empty : Frame := ⟨none, none⟩

/-- The conjunction up to an operand. -/
def Frame.conjunction (frame : Frame) (condition : Condition) : Condition :=
  match frame.conjuncts with
  | none => condition
  | some before => .and before condition

/-- The condition at the end of a level. -/
def Frame.close (frame : Frame) (condition : Condition) : Condition :=
  match frame.alternatives with
  | none => frame.conjunction condition
  | some before => .or before (frame.conjunction condition)

/-- The reader, with the frames of the open parentheses. -/
structure Reader where
  mode : Mode
  frame : Frame
  outer : List Frame

/-- The operand in its place. -/
def Place.fill (operand : Operand) : Place → Mode
  | .comparison operator column => .done (.compare operator column operand)
  | .item column negated operands => .listed column negated (operands ++ [operand])

/-- The condition that a list of operands ends. -/
def listCondition (column : String) (negated : Bool) (operands : List Operand) : Condition :=
  if negated then .noneOf column operands else .oneOf column operands

/-- What the reader expects after a token that opens or closes nothing. -/
def Mode.next : Mode → Token → Option Mode
  | .start, .name [column] => some (.named column)
  | .start, .word ['1'] => some .literal
  | .literal, .operator "=" => some .literalEquals
  | .literalEquals, .word ['0'] => some (.done .never)
  | .named column, .is => some (.isColumn column)
  | .named column, .not => some (.notColumn column)
  | .named column, .isIn => some (.list column false)
  | .named column, .operator operator => some (.compared (.comparison operator column))
  | .isColumn column, .null => some (.done (.isNull column))
  | .isColumn column, .not => some (.isNotColumn column)
  | .isNotColumn column, .null => some (.done (.isNotNull column))
  | .notColumn column, .isIn => some (.list column true)
  | .notColumn column, .operator "LIKE" => some (.compared (.comparison "NOT LIKE" column))
  | .list column negated, .opening => some (.compared (.item column negated []))
  | .compared place, .value value => some (place.fill (.bound value))
  | .compared place, .geometry => some (.geometry place)
  | .geometry place, .opening => some (.geometryText place)
  | .geometryText place, .value value => some (.geometryEnd place value)
  | .geometryEnd place value, .closing => some (place.fill (.point value))
  | .listed column negated operands, .comma => some (.compared (.item column negated operands))
  | .listed column negated operands, .closing =>
      some (.done (listCondition column negated operands))
  | _, _ => none

/-- The reader takes one token. -/
def Reader.step (reader : Reader) (token : Token) : Option Reader :=
  match reader.mode, token, reader.outer with
  | .start, .opening, outer => some ⟨.start, .empty, reader.frame :: outer⟩
  | .done condition, .and, outer =>
      some ⟨.start, ⟨reader.frame.alternatives, some (reader.frame.conjunction condition)⟩, outer⟩
  | .done condition, .or, outer => some ⟨.start, ⟨some (reader.frame.close condition), none⟩, outer⟩
  | .done condition, .closing, frame :: outer =>
      some ⟨.done (reader.frame.close condition), frame, outer⟩
  | mode, token, outer => (mode.next token).map fun next => ⟨next, reader.frame, outer⟩

/-- A reader after several tokens. -/
def Reader.run (reader : Reader) (read : List Token) : Option Reader :=
  read.foldlM Reader.step reader

/-- The condition at the end of a text whose parentheses are closed. -/
def Reader.result (reader : Reader) : Option Condition :=
  match reader.mode, reader.outer with
  | .done condition, [] => some (reader.frame.close condition)
  | _, _ => none

end Reading

/-! ### What is read -/

section Tokens

/-- The letters are cut into the tokens wherever a word cannot go on behind them. -/
def Spells (letters : List Letter) (read : List Token) : Prop :=
  ∀ rest, (∀ char, rest.head? = some (.char char) → (separator char).isSome) →
    tokens [] (letters ++ rest) = read ++ tokens [] rest

end Tokens

section Frames

variable {frame : Frame} {condition : Condition} {row : Row}

/-- The value of the conjunction before an operand. -/
def Frame.before (frame : Frame) (row : Row) : Truth :=
  (frame.conjuncts.map (Condition.eval row)).getD .holds

/-- The value of the alternatives before an operand. -/
def Frame.otherwise (frame : Frame) (row : Row) : Truth :=
  (frame.alternatives.map (Condition.eval row)).getD .fails

theorem Frame.eval_conjunction (frame : Frame) (condition : Condition) (row : Row) :
    (frame.conjunction condition).eval row = (frame.before row).and (condition.eval row) := by
  unfold Frame.conjunction Frame.before
  cases frame.conjuncts <;> rfl

theorem Frame.eval_close (frame : Frame) (condition : Condition) (row : Row) :
    (frame.close condition).eval row =
      (frame.otherwise row).or ((frame.before row).and (condition.eval row)) := by
  rw [← frame.eval_conjunction condition row]
  unfold Frame.close Frame.otherwise
  cases frame.alternatives <;> rfl

end Frames

section Runs

theorem Reader.run_append (reader : Reader) (first second : List Token) :
    reader.run (first ++ second) = (reader.run first).bind fun middle => middle.run second := by
  simp only [Reader.run, List.foldlM_append]
  rfl

theorem Reader.run_cons (reader : Reader) (token : Token) (rest : List Token) :
    reader.run (token :: rest) = (reader.step token).bind fun middle => middle.run rest := rfl

/-- The tokens are read as a conjunct with the given value. -/
def ReadsConjunct (read : List Token) (value : Row → Truth) : Prop :=
  ∀ frame outer, ∃ after condition,
    Reader.run ⟨.start, frame, outer⟩ read = some ⟨.done condition, after, outer⟩ ∧
      after.alternatives = frame.alternatives ∧
      ∀ row, (after.before row).and (condition.eval row) = (frame.before row).and (value row)

/-- The tokens are read as alternatives with the given value. -/
def ReadsAlternatives (read : List Token) (value : Row → Truth) : Prop :=
  ∀ frame outer, frame.conjuncts = none → ∃ after condition,
    Reader.run ⟨.start, frame, outer⟩ read = some ⟨.done condition, after, outer⟩ ∧
      ∀ row, (after.close condition).eval row = (frame.otherwise row).or (value row)

variable {first second read : List Token} {firstValue secondValue value : Row → Truth}

theorem readsConjunct_of_run {condition : Condition}
    (isRead : ∀ frame outer, Reader.run ⟨.start, frame, outer⟩ read =
      some ⟨.done condition, frame, outer⟩) :
    ReadsConjunct read fun row => condition.eval row :=
  fun frame outer => ⟨frame, condition, isRead frame outer, rfl, fun _ => rfl⟩

theorem ReadsConjunct.and (left : ReadsConjunct first firstValue)
    (right : ReadsConjunct second secondValue) :
    ReadsConjunct (first ++ .and :: second) fun row => (firstValue row).and (secondValue row) := by
  intro frame outer
  rcases left frame outer with ⟨middle, leftCondition, leftRun, leftSame, leftEval⟩
  rcases right ⟨middle.alternatives, some (middle.conjunction leftCondition)⟩ outer with
    ⟨after, condition, rightRun, rightSame, rightEval⟩
  refine ⟨after, condition, ?_, rightSame.trans leftSame, fun row => ?_⟩
  · rw [Reader.run_append, leftRun, Option.bind_some, Reader.run_cons]
    exact rightRun
  · rw [rightEval row, ← Truth.and_assoc, ← leftEval row, ← middle.eval_conjunction]
    rfl

theorem ReadsConjunct.alternatives (isRead : ReadsConjunct read value) :
    ReadsAlternatives read value := by
  intro frame outer free
  rcases isRead frame outer with ⟨after, condition, isRun, same, evaluates⟩
  refine ⟨after, condition, isRun, fun row => ?_⟩
  have before : frame.before row = .holds := by simp [Frame.before, free]
  rw [after.eval_close, evaluates row, before, Truth.holds_and, Frame.otherwise, same,
    Frame.otherwise]

theorem ReadsAlternatives.or (left : ReadsAlternatives first firstValue)
    (right : ReadsAlternatives second secondValue) :
    ReadsAlternatives (first ++ .or :: second)
      fun row => (firstValue row).or (secondValue row) := by
  intro frame outer free
  rcases left frame outer free with ⟨middle, leftCondition, leftRun, leftEval⟩
  rcases right ⟨some (middle.close leftCondition), none⟩ outer rfl with
    ⟨after, condition, rightRun, rightEval⟩
  refine ⟨after, condition, ?_, fun row => ?_⟩
  · rw [Reader.run_append, leftRun, Option.bind_some, Reader.run_cons]
    exact rightRun
  · rw [rightEval row, ← Truth.or_assoc, ← leftEval row]
    rfl

theorem ReadsAlternatives.group (isRead : ReadsAlternatives read value) :
    ReadsConjunct (.opening :: (read ++ [.closing])) value := by
  intro frame outer
  rcases isRead .empty (frame :: outer) rfl with ⟨inner, condition, isRun, evaluates⟩
  refine ⟨frame, inner.close condition, ?_, rfl, fun row => ?_⟩
  · rw [Reader.run_cons]
    change Reader.run ⟨.start, .empty, frame :: outer⟩ (read ++ [.closing]) = _
    rw [Reader.run_append, isRun]
    rfl
  · rw [evaluates row]
    rfl

end Runs

end ServerFoundation.Sql
