import ServerFoundation.Data.OptionRel
import ServerFoundation.Sql.Filters
import ServerFoundation.Sql.ShownText

/-!
# What the clauses of a filter say

The truth of a condition of a filter record on a row, and how its clause is read. Clauses joined
by `AND` are read as one conjunct, those joined by `OR` as alternatives.
-/

namespace ServerFoundation.Sql

section Truth

variable (field : String) (column : Option ColumnMetadata) (dialect : Dialect)

/-- What a value of the condition is on the side of the database. -/
def operandOf (value : Data) : Operand :=
  ((serializeColumnValue column value dialect).map SqlValue.operand).getD
    (.bound (.data .undefined))

/-- The truth of a comparison. -/
def comparisonTruth (operator : String) (operand : Data) (row : Row) : Truth :=
  row.compare operator field (operandOf column dialect operand)

/-- The column is one of the listed values. -/
def inTruth (operand : Data) (row : Row) : Truth :=
  row.oneOf field (((inOperand operand).getD []).map (operandOf column dialect))

/-- The column is none of the listed values; where a null is listed, or nothing is, the column must
be there. -/
def ninTruth (operand : Data) (row : Row) : Truth :=
  let values := (ninOperand operand).getD []
  let nonNullValues := values.filter fun value => !value.isNullish
  let excluded := (row.oneOf field (nonNullValues.map (operandOf column dialect))).not
  if nonNullValues ≠ [] ∧ nonNullValues.length = values.length then excluded
  else (Truth.ofBool !row.isNull field).and excluded

/-- The truth of `$ne`. -/
def neTruth (operand : Data) (row : Row) : Truth :=
  match operand with
  | .null => .ofBool !row.isNull field
  | operand => comparisonTruth field column dialect "<>" operand row

/-- The operators of a condition, each with what it says. -/
def operatorTruths : List (String × (Data → Row → Truth)) :=
  [("$in", inTruth field column dialect),
    ("$nin", ninTruth field column dialect),
    ("$ne", neTruth field column dialect),
    ("$gt", comparisonTruth field column dialect ">"),
    ("$gte", comparisonTruth field column dialect ">="),
    ("$lt", comparisonTruth field column dialect "<"),
    ("$lte", comparisonTruth field column dialect "<="),
    ("$like", comparisonTruth field column dialect "LIKE"),
    ("$notLike", comparisonTruth field column dialect "NOT LIKE")]

/-- The tests of the operators that a value has. -/
def conditionTests (value : Data) : List (Row → Truth) :=
  (operatorTruths field column dialect).filterMap fun operator =>
    (value.get? operator.1).map operator.2

/-- Several operators are conjoined; a value without operators is equality, and null is
`IS NULL`. -/
def conditionTruth (value : Data) (row : Row) : Truth :=
  match conditionTests field column dialect value with
  | [] =>
      if value.isNullish then .ofBool (row.isNull field)
      else comparisonTruth field column dialect "=" value row
  | tests => .all (tests.map fun test => test row)

/-- Of an operand nothing is bound that passes for a fragment, and a list is not typed. -/
def plainOperand (operator : String) (operand : Data) : Bool :=
  if operator = "$in" ∨ operator = "$nin" then
    !operand.isTypedArray && (operand.asArray.getD []).all fun value => !value.forged
  else !operand.forged

/-- A condition binds its operands or, when it has none, itself. -/
def plainCondition (value : Data) : Bool :=
  ((conditionTests field column dialect value).length ≠ 0 || !value.forged) &&
    (operators field column dialect).all fun operator =>
      ((value.get? operator.1).map (plainOperand operator.1)).getD true

end Truth

section Words

theorem tokens_word (word : List Char) {rest : List Letter}
    (ends : ∀ char, rest.head? = some (.char char) → (separator char).isSome) :
    tokens word rest = wordToken word ++ tokens [] rest := by
  cases rest with
  | nil => simp [tokens, wordToken]
  | cons letter rest =>
      cases letter with
      | char char =>
          rcases Option.isSome_iff_exists.mp (ends char rfl) with ⟨ended, isEnded⟩
          simp [tokens, isEnded, wordToken]
      | name names => simp [tokens, wordToken]
      | value value => simp [tokens, wordToken]

/-- A text that stands between two parts, and the token that it is. -/
structure Separates (text : String) (mark : Token) : Prop where
  ends : ∀ rest char, (letters text ++ rest).head? = some (.char char) → (separator char).isSome
  spells : ∀ rest, tokens [] (letters text ++ rest) = mark :: tokens [] rest

theorem and_separates : Separates " AND " .and :=
  ⟨fun _ _ same => by cases same; rfl, fun _ => rfl⟩

theorem or_separates : Separates " OR " .or :=
  ⟨fun _ _ same => by cases same; rfl, fun _ => rfl⟩

theorem comma_separates : Separates ", " .comma :=
  ⟨fun _ _ same => by cases same; rfl, fun _ => rfl⟩

variable {text : String} {mark : Token} {first : List Letter} {read : List Token}

theorem Spells.join (separates : Separates text mark) (spelled : Spells first read)
    {others : List (List Letter)} {reads : List (List Token)}
    (each : List.Forall₂ Spells others reads) :
    Spells (first ++ others.flatMap (letters text ++ ·)) (read ++ reads.flatMap (mark :: ·)) := by
  intro rest ends
  have onwards : (∀ char, (others.flatMap (letters text ++ ·) ++ rest).head? = some (.char char) →
        (separator char).isSome) ∧
      tokens [] (others.flatMap (letters text ++ ·) ++ rest) =
        reads.flatMap (mark :: ·) ++ tokens [] rest := by
    induction each with
    | nil => exact ⟨ends, rfl⟩
    | @cons other read others reads head tail ih =>
        simp only [List.flatMap_cons, List.append_assoc]
        refine ⟨separates.ends _, ?_⟩
        rw [separates.spells, head _ ih.1, ih.2]
        rfl
  rw [List.append_assoc, spelled _ onwards.1, onwards.2, List.append_assoc]

/-- The tokens of an operand. -/
def Operand.tokens : Operand → List Token
  | .bound value => [.value value]
  | .point value => [.geometry, .opening, .value value, .closing]

theorem Operand.spells (operand : Operand) : Spells operand.letters operand.tokens := by
  intro rest _
  cases operand <;> rfl

theorem Operand.run (operand : Operand) (place : Place) (frame : Frame) (outer : List Frame) :
    Reader.run ⟨.compared place, frame, outer⟩ operand.tokens =
      some ⟨place.fill operand, frame, outer⟩ := by
  cases operand <;> rfl

theorem run_items (column : String) (negated : Bool) (before : List Operand) (operand : Operand)
    (operands : List Operand) (frame : Frame) (outer : List Frame) :
    Reader.run ⟨.compared (.item column negated before), frame, outer⟩
        (operand.tokens ++ operands.flatMap (.comma :: Operand.tokens ·)) =
      some ⟨.listed column negated (before ++ operand :: operands), frame, outer⟩ := by
  induction operands generalizing before operand with
  | nil => simpa [Place.fill] using operand.run (.item column negated before) frame outer
  | cons next operands ih =>
      rw [Reader.run_append, operand.run, Option.bind_some, List.flatMap_cons, List.cons_append,
        Reader.run_cons]
      change Reader.run ⟨.compared (.item column negated (before ++ [operand])), frame, outer⟩
        (next.tokens ++ operands.flatMap (.comma :: Operand.tokens ·)) = _
      rw [ih, List.append_assoc]
      rfl

end Words

section Clauses

variable {text : String} {read : List Token} {value : Data} {negated : Bool}

/-- A query that is read as a conjunct with the given truth. -/
def ClauseReads (query : SqlQuery) (value : Row → Truth) : Prop :=
  ∃ shown read, Shows query.toValue shown ∧ Spells shown read ∧ ReadsConjunct read value

/-- A query that is read as alternatives with the given truth. -/
def AlternativesRead (query : SqlQuery) (value : Row → Truth) : Prop :=
  ∃ shown read, Shows query.toValue shown ∧ Spells shown read ∧ ReadsAlternatives read value

variable {field : String} {column : Option ColumnMetadata} {dialect : Dialect} {query : SqlQuery}

theorem operandOf_of_some {serialized : SqlValue}
    (made : serializeColumnValue column value dialect = some serialized) :
    operandOf column dialect value = serialized.operand := by
  rw [operandOf, made]
  rfl

theorem isNull_reads (made : unaryClause field " IS NULL" = some query) :
    ClauseReads query fun row => .ofBool (row.isNull field) := by
  rcases Option.bind_eq_some_iff.mp made with ⟨name, isName, tagged⟩
  refine ⟨_, [.name [field], .is, .null],
    sqlTag_shows (.cons (identifier_shows isName) .nil) tagged, fun rest ends => ?_, ?_⟩
  · change .name [field] :: .is :: tokens "NULL".toList rest = _
    rw [tokens_word _ ends]
    rfl
  · exact @readsConjunct_of_run _ (.isNull field) fun _ _ => rfl

theorem isNotNull_reads (made : unaryClause field " IS NOT NULL" = some query) :
    ClauseReads query fun row => .ofBool !row.isNull field := by
  rcases Option.bind_eq_some_iff.mp made with ⟨name, isName, tagged⟩
  refine ⟨_, [.name [field], .is, .not, .null],
    sqlTag_shows (.cons (identifier_shows isName) .nil) tagged, fun rest ends => ?_, ?_⟩
  · change .name [field] :: .is :: .not :: tokens "NULL".toList rest = _
    rw [tokens_word _ ends]
    rfl
  · exact @readsConjunct_of_run _ (.isNotNull field) fun _ _ => rfl

theorem never_reads (made : sqlTag ["1 = 0"] [] = some query) :
    ClauseReads query fun _ => .fails := by
  refine ⟨_, [.word ['1'], .operator "=", .word ['0']], sqlTag_shows .nil made,
    fun rest ends => ?_, ?_⟩
  · change .word ['1'] :: .operator "=" :: tokens ['0'] rest = _
    rw [tokens_word _ ends]
    rfl
  · exact @readsConjunct_of_run _ .never fun _ _ => rfl

/-- The text of an operator and the words that it is read as. -/
structure Compares (text operator : String) (read : List Token) : Prop where
  spells : ∀ rest, tokens [] (letters text ++ rest) = read ++ tokens [] rest
  run : ∀ column frame outer, Reader.run ⟨.named column, frame, outer⟩ read =
    some ⟨.compared (.comparison operator column), frame, outer⟩

theorem comparison_reads {operator : String} (compares : Compares text operator read)
    {operand : Data} (unforged : operand.forged = false)
    (made : comparison field column dialect text operand = some query) :
    ClauseReads query (comparisonTruth field column dialect operator operand) := by
  rcases Option.bind_eq_some_iff.mp made with ⟨name, isName, serializes⟩
  rcases Option.bind_eq_some_iff.mp serializes with ⟨serialized, isSerialized, tagged⟩
  have shows := sqlTag_shows (.cons (identifier_shows isName)
    (.cons (serializeColumnValue_shows unforged isSerialized) .nil)) tagged
  refine ⟨_, .name [field] :: (read ++ serialized.operand.tokens), shows, fun rest ends => ?_, ?_⟩
  · change .name [field] :: tokens []
      (letters text ++ (serialized.operand.letters ++ []) ++ rest) = _
    rw [List.append_nil, List.append_assoc, compares.spells, serialized.operand.spells rest ends]
    simp
  · unfold comparisonTruth
    rw [operandOf_of_some isSerialized]
    refine @readsConjunct_of_run _ (.compare operator field serialized.operand)
      fun frame outer => ?_
    change Reader.run ⟨.named field, frame, outer⟩ (read ++ serialized.operand.tokens) = _
    rw [Reader.run_append, compares.run, Option.bind_some, serialized.operand.run]
    rfl

theorem listed_shows {values : List Data}
    (unforged : ∀ found ∈ value :: values, found.forged = false)
    (made : listed column dialect (value :: values) = some query) :
    Shows query.toValue ((operandOf column dialect value).letters ++
      (values.map (operandOf column dialect)).flatMap (letters ", " ++ Operand.letters ·)) := by
  rcases Option.bind_eq_some_iff.mp made with ⟨items, areItems, joined⟩
  have each := forall₂_of_mapM areItems
  have shows {found : Data} {item : SqlValue} (plain : found.forged = false)
      (isItem : (do
        let serialized ← serializeColumnValue column found dialect
        let item ← sqlTag ["", ""] [serialized]
        return item.toValue) = some item) :
      Shows item (operandOf column dialect found).letters := by
    rcases Option.bind_eq_some_iff.mp isItem with ⟨serialized, isSerialized, tags⟩
    rcases Option.bind_eq_some_iff.mp tags with ⟨tagged, isTagged, same⟩
    cases same
    have shown := sqlTag_shows (.cons (serializeColumnValue_shows plain isSerialized) .nil) isTagged
    rw [operandOf_of_some isSerialized]
    simpa [weaveLetters, interleaveLetters, letters] using shown
  cases each with
  | @cons _ item _ items isItem others =>
      have rest : List.Forall₂ Shows items
          ((values.map (operandOf column dialect)).map Operand.letters) := by
        have plain : ∀ found ∈ values, found.forged = false :=
          fun found member => unforged found (List.mem_cons_of_mem _ member)
        clear areItems joined made unforged
        induction others with
        | nil => exact .nil
        | @cons found item values items isFound _ ih =>
            exact .cons (shows (plain found List.mem_cons_self) isFound)
              (ih fun other member => plain other (List.mem_cons_of_mem _ member))
      have shown := join_shows (shows (unforged value List.mem_cons_self) isItem) rest joined
      simpa [List.flatMap_map] using shown

theorem spells_operands (operand : Operand) (operands : List Operand) (rest : List Letter) :
    tokens [] (operand.letters ++ operands.flatMap (letters ", " ++ Operand.letters ·) ++
        (letters ")" ++ rest)) =
      operand.tokens ++ operands.flatMap (.comma :: Operand.tokens ·) ++
        .closing :: tokens [] rest := by
  have each : List.Forall₂ Spells (operands.map Operand.letters) (operands.map Operand.tokens) := by
    induction operands with
    | nil => exact .nil
    | cons next operands ih => exact .cons next.spells ih
  have joined := Spells.join comma_separates operand.spells each
  simp only [List.flatMap_map] at joined
  exact joined (letters ")" ++ rest) fun char same => by cases same; rfl

/-- The text between a column and a list of values. -/
structure Lists (text : String) (negated : Bool) (read : List Token) : Prop where
  spells : ∀ rest, tokens [] (letters text ++ rest) = read ++ tokens [] rest
  run : ∀ column frame outer, Reader.run ⟨.named column, frame, outer⟩ read =
    some ⟨.compared (.item column negated []), frame, outer⟩

theorem in_lists : Lists " IN (" false [.isIn, .opening] := ⟨fun _ => rfl, fun _ _ _ => rfl⟩

theorem notIn_lists : Lists " NOT IN (" true [.not, .isIn, .opening] :=
  ⟨fun _ => rfl, fun _ _ _ => rfl⟩

/-- The tokens of a list of operands and of the parenthesis behind it. -/
def listTokens (field : String) (read : List Token) (operand : Operand)
    (operands : List Operand) : List Token :=
  .name [field] :: (read ++ (operand.tokens ++ operands.flatMap (.comma :: Operand.tokens ·) ++
    [.closing]))

theorem readsConjunct_list (lists : Lists text negated read) (field : String) (operand : Operand)
    (operands : List Operand) :
    ReadsConjunct (listTokens field read operand operands) fun row =>
      (listCondition field negated (operand :: operands)).eval row := by
  refine readsConjunct_of_run fun frame outer => ?_
  change Reader.run ⟨.named field, frame, outer⟩ (read ++ _) = _
  rw [Reader.run_append, lists.run, Option.bind_some, Reader.run_append, run_items]
  rfl

theorem spells_list (lists : Lists text negated read) (field : String) (operand : Operand)
    (operands : List Operand) :
    Spells (.name [field] :: (letters text ++ (operand.letters ++
        operands.flatMap (letters ", " ++ Operand.letters ·) ++ letters ")")))
      (listTokens field read operand operands) := by
  intro rest _
  change .name [field] :: tokens [] (letters text ++ (operand.letters ++
    operands.flatMap (letters ", " ++ Operand.letters ·) ++ letters ")") ++ rest) = _
  rw [List.append_assoc, lists.spells, List.append_assoc, spells_operands]
  simp [listTokens]

theorem membership_reads (lists : Lists text negated read) {values : List Data}
    (unforged : ∀ found ∈ value :: values, found.forged = false)
    (made : membership field column dialect text (value :: values) = some query) :
    ClauseReads query fun row => (listCondition field negated
      ((value :: values).map (operandOf column dialect))).eval row := by
  rcases Option.bind_eq_some_iff.mp made with ⟨name, isName, isListed⟩
  rcases Option.bind_eq_some_iff.mp isListed with ⟨items, areItems, tagged⟩
  have shows := sqlTag_shows (.cons (identifier_shows isName)
    (.cons (listed_shows unforged areItems) .nil)) tagged
  refine ⟨_, _, shows, ?_, readsConjunct_list lists field _ _⟩
  have spelled := spells_list lists field (operandOf column dialect value)
    (values.map (operandOf column dialect))
  simpa [weaveLetters, interleaveLetters, letters] using spelled

end Clauses

end ServerFoundation.Sql
