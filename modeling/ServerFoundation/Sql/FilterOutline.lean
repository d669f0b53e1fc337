import ServerFoundation.Data.OptionRel
import ServerFoundation.Sql.Filters

/-!
# The outline of a filter

What of a filter decides its text: the fields and groups in their order, the tests
on each field, the lengths of the lists and how each value is written. The values
themselves are left out, and the text is a function of the outline.
-/

namespace ServerFoundation.Sql

/-- A data value that JSON has and that does not pass for a fragment. -/
def Data.bindable (value : Data) : Bool := value.jsonLike && !value.forged

section Tests

/-- A test on the field of a condition. -/
inductive Test where
  | never
  | isNull
  | isNotNull
  | oneOf (forms : List Form)
  | noneOf (forms : List Form) (nulls : Bool)
  | compare (operator : String) (form : Form)
deriving DecidableEq

/-- What a list of values writes. -/
def formsPieces (forms : List Form) : List Piece :=
  joinPieces (textPieces ", ") (forms.map Form.pieces)

/-- What a test writes. -/
def Test.pieces (field : String) : Test → List Piece
  | never => textPieces "1 = 0"
  | isNull => .identifier [field] :: textPieces " IS NULL"
  | isNotNull => .identifier [field] :: textPieces " IS NOT NULL"
  | oneOf forms =>
      .identifier [field] :: (textPieces " IN (" ++ (formsPieces forms ++ textPieces ")"))
  | noneOf forms false =>
      .identifier [field] :: (textPieces " NOT IN (" ++ (formsPieces forms ++ textPieces ")"))
  | noneOf forms true =>
      .identifier [field] :: (textPieces " IS NOT NULL AND " ++ .identifier [field] ::
        (textPieces " NOT IN (" ++ (formsPieces forms ++ textPieces ")")))
  | compare operator form => .identifier [field] :: (textPieces operator ++ form.pieces)

variable (field : String) (column : Option ColumnMetadata) (dialect : Dialect)

/-- A test that names its field. -/
def tested (test : Test) : Option Test := (identifier [field]).map fun _ => test

/-- The outline of a comparison. -/
def compareTest (operator : String) (operand : Data) : Option Test :=
  tested field (.compare operator (columnForm column operand dialect))

/-- The forms of listed values. -/
def listForms (values : List Data) : List Form :=
  values.map fun value => columnForm column value dialect

/-- The outline of `$in`. -/
def inTest (operand : Data) : Option Test := do
  let values ← inOperand operand
  if values = [] then some .never
  else
    tested field (.oneOf (listForms (listColumn column operand) dialect values))

/-- The outline of `$nin`. -/
def ninTest (operand : Data) : Option Test := do
  let values ← ninOperand operand
  let nonNullValues := values.filter fun value => !value.isNullish
  if nonNullValues = [] then tested field .isNotNull
  else
    tested field
      (.noneOf (listForms (listColumn column operand) dialect nonNullValues)
        (nonNullValues.length ≠ values.length))

/-- The outline of `$ne`. -/
def neTest (operand : Data) : Option Test :=
  match operand with
  | .null => tested field .isNotNull
  | operand => compareTest field column dialect " <> " operand

/-- The operators of a condition, each with the test it stands for. -/
def operatorTests : List (String × (Data → Option Test)) :=
  [("$in", inTest field column dialect),
    ("$nin", ninTest field column dialect),
    ("$ne", neTest field column dialect),
    ("$gt", compareTest field column dialect " > "),
    ("$gte", compareTest field column dialect " >= "),
    ("$lt", compareTest field column dialect " < "),
    ("$lte", compareTest field column dialect " <= "),
    ("$like", compareTest field column dialect " LIKE "),
    ("$notLike", compareTest field column dialect " NOT LIKE ")]

/-- The tests of the operators a value has. -/
def operatorOutline (value : Data) : Option (List Test) :=
  ((operatorTests field column dialect).filterMap fun operator =>
    (value.get? operator.1).map operator.2).mapM id

/-- The tests of a condition. -/
def conditionOutline (value : Data) : Option (List Test) := do
  let tests ← operatorOutline field column dialect value
  if tests ≠ [] then some tests
  else if value.isNullish then (tested field .isNull).map fun test => [test]
  else (compareTest field column dialect " = " value).map fun test => [test]

/-- What the tests of a condition write. -/
def testsPieces (tests : List Test) : List Piece :=
  joinPieces (textPieces " AND ") (tests.map (Test.pieces field))

end Tests

section BoundValues

/-- The values that an operator binds. -/
def operandValues (key : String) (operand : Data) : List Data :=
  if key = "$in" then (inOperand operand).getD []
  else if key = "$nin" then
    ((ninOperand operand).getD []).filter fun value => !value.isNullish
  else [operand]

/-- The keys of the operators. -/
def operatorKeys : List String :=
  ["$in", "$nin", "$ne", "$gt", "$gte", "$lt", "$lte", "$like", "$notLike"]

/-- The values that a condition binds; it has none of its own beside its operators. -/
def conditionValues (value : Data) : List Data :=
  match operatorKeys.filterMap fun key => (value.get? key).map (operandValues key) with
  | [] => [value]
  | operands => operands.flatten

/-- The values that an entry binds, from those of the children it has as a group. -/
def entryValues (field : String) (value : Data) (children : List Data) : List Data :=
  if field = "$and" ∨ field = "$or" then children else conditionValues value

mutual

/-- The values that a filter record binds. -/
def filterValues : Data → List Data
  | .object entries => entriesValues entries
  | value => ((positionEntries value).getD []).flatMap fun entry => conditionValues entry.2

/-- The values that entries bind. -/
def entriesValues : List (String × Data) → List Data
  | [] => []
  | (field, .array children) :: rest =>
      entryValues field (.array children) (childrenValues children) ++ entriesValues rest
  | (field, value) :: rest => entryValues field value [] ++ entriesValues rest

/-- The values that the children of a group bind. -/
def childrenValues : List Data → List Data
  | [] => []
  | child :: rest => filterValues child ++ childrenValues rest

end

end BoundValues

section Clauses

/-- A clause of a filter record. -/
inductive Clause where
  | condition (field : String) (tests : List Test)
  | never
  | group (field : String) (children : List (List Clause))

mutual

/-- What a clause writes. -/
def Clause.pieces : Clause → List Piece
  | .condition field tests => testsPieces field tests
  | .never => textPieces "1 = 0"
  | .group field children =>
      textPieces "(" ++ (joinPieces (textPieces (if field = "$and" then " AND " else " OR "))
        (childrenPieces children) ++ textPieces ")")

/-- What each of several clauses writes. -/
def clausesPieces : List Clause → List (List Piece)
  | [] => []
  | clause :: rest => clause.pieces :: clausesPieces rest

/-- What each child of a group writes. -/
def childrenPieces : List (List Clause) → List (List Piece)
  | [] => []
  | child :: rest => joinPieces (textPieces " AND ") (clausesPieces child) :: childrenPieces rest

end

/-- What the clauses of a record write. -/
def recordPieces (clauses : List Clause) : List Piece :=
  joinPieces (textPieces " AND ") (clausesPieces clauses)

variable (columns : List ColumnMetadata) (dialect : Dialect)

/-- The clause that an entry of a filter record stands for. -/
def entryOutline (field : String) (value : Data) : Option Clause :=
  let column := resolveColumn columns field
  let name := (column.map ColumnMetadata.columnName).getD field
  (conditionOutline name column dialect value).map fun tests => .condition name tests

/-- The clause of a group, from the outlines of its children. -/
def groupOutline (field : String) (children : List (List Clause)) : List Clause :=
  if children.isEmpty then if field = "$or" then [.never] else []
  else [.group field children]

/-- The clauses of an entry, from the outlines of the children it has as a group. -/
def entryOutlines (field : String) (value : Data) (children : Option (List (List Clause))) :
    Option (List Clause) :=
  if field = "$and" ∨ field = "$or" then children.map (groupOutline field)
  else (entryOutline columns dialect field value).map fun clause => [clause]

mutual

/-- The outline of a filter record. -/
def filterOutline : Data → Option (List Clause)
  | .object entries => entriesOutline entries
  | value => do
      let entries ← positionEntries value
      entries.mapM fun entry => entryOutline columns dialect entry.1 entry.2

/-- The outline of the entries of a record. -/
def entriesOutline : List (String × Data) → Option (List Clause)
  | [] => some []
  | (field, .array children) :: rest => do
      let clauses ← entryOutlines columns dialect field (.array children)
        (childrenOutline children)
      let others ← entriesOutline rest
      return clauses ++ others
  | (field, value) :: rest => do
      let clauses ← entryOutlines columns dialect field value (some [])
      let others ← entriesOutline rest
      return clauses ++ others

/-- The outlines of the children of a group that have clauses. -/
def childrenOutline : List Data → Option (List (List Clause))
  | [] => some []
  | child :: rest => do
      let clauses ← filterOutline child
      let others ← childrenOutline rest
      return (if clauses.isEmpty then [] else [clauses]) ++ others

end

end Clauses

section Conditions

variable {field : String} {column : Option ColumnMetadata} {dialect : Dialect} {Outline : Type}
  {values : List SqlValue} {operand value : Data} {names : List String}
  {results : SqlQuery → Outline → Prop} {outline : Outline}

/-- Whether a query writes a test on the field. -/
def WritesTest (field : String) (query : SqlQuery) (test : Test) : Prop :=
  query.Writes (test.pieces field)

theorem eq_of_identifier {value : SqlValue} (found : identifier names = some value) :
    value = .identifier names := by
  simp only [identifier] at found
  split at found
  · cases found
  · split at found <;> cases found
    rfl

theorem named_rel {next : SqlValue → Option SqlQuery}
    (written : Option.Rel results (next (.identifier names)) (some outline)) :
    Option.Rel results ((identifier names).bind next)
      ((identifier names).map fun _ => outline) := by
  cases found : identifier names with
  | none => exact .none
  | some value =>
      rw [eq_of_identifier found]
      exact written

theorem sqlTag_rel {strings : List String} (plain : ∀ value ∈ values, value.plain = true)
    (written : ∀ query : SqlQuery, query.Writes (weave SqlValue.spliced strings values) →
      results query outline) : Option.Rel results (sqlTag strings values) (some outline) := by
  rcases sqlTag_writes strings plain with ⟨query, queryEq, writes⟩
  rw [queryEq]
  exact .some (written query writes)

theorem unaryClause_rel {text : String} {test : Test}
    (pieces : test.pieces field = .identifier [field] :: textPieces text) :
    Option.Rel (WritesTest field) (unaryClause field text) (tested field test) := by
  refine named_rel (sqlTag_rel (by simp [SqlValue.plain]) fun query writes => ?_)
  simpa [WritesTest, pieces] using writes

theorem serialized_rel (bindable : operand.bindable = true) :
    Option.Rel (fun value form => InForm form value)
      (serializeColumnValue column operand dialect)
      (some (columnForm column operand dialect)) := by
  simp only [Data.bindable, Bool.and_eq_true, Bool.not_eq_true'] at bindable
  rcases serializeColumnValue_inForm column dialect bindable.1 bindable.2 with
    ⟨serialized, serializedEq, inForm⟩
  rw [serializedEq]
  exact .some inForm

theorem comparison_rel (operator : String) (bindable : operand.bindable = true) :
    Option.Rel (WritesTest field) (comparison field column dialect operator operand)
      (compareTest field column dialect operator operand) := by
  refine named_rel ?_
  refine optionRel_bind_some (serialized_rel bindable) fun serialized value => ?_
  refine sqlTag_rel (by simp [SqlValue.plain, value.plain]) fun query writes => ?_
  simpa [WritesTest, Test.pieces, value.spliced] using writes

theorem join_rel {separator : String} (plain : ∀ value ∈ values, value.plain = true)
    (written : ∀ query : SqlQuery,
      query.Writes (joinPieces (textPieces separator) (values.map SqlValue.spliced)) →
      results query outline) :
    Option.Rel results (join values ⟨[separator], []⟩) (some outline) := by
  have separatorPlain : ∀ value ∈ (⟨[separator], []⟩ : SqlQuery).values, value.plain = true := by
    simp
  rcases join_writes separatorPlain plain with ⟨query, queryEq, writes⟩
  rw [queryEq]
  exact .some (written query (by simpa [SqlQuery.pieces] using writes))

/-- Whether a value of a template is plain and writes the given pieces. -/
def WritesValue (value : SqlValue) (pieces : List Piece) : Prop :=
  value.plain = true ∧ value.spliced = pieces

theorem SqlQuery.Writes.toValue {query : SqlQuery} {pieces : List Piece}
    (writes : query.Writes pieces) : WritesValue query.toValue pieces :=
  ⟨query.plain_toValue.mpr writes.plain, writes.written⟩

theorem forall₂_spliced {pieces : List (List Piece)}
    (written : List.Forall₂ WritesValue values pieces) :
    (∀ value ∈ values, value.plain = true) ∧ values.map SqlValue.spliced = pieces := by
  induction written with
  | nil => simp
  | cons head tail ih => exact ⟨by simpa using ⟨head.1, ih.1⟩, by simp [head.2, ih.2]⟩

theorem item_rel (bindable : value.bindable = true) :
    Option.Rel WritesValue
      (do
        let serialized ← serializeColumnValue column value dialect
        let item ← sqlTag ["", ""] [serialized]
        return item.toValue)
      (some (columnForm column value dialect).pieces) := by
  refine optionRel_bind_some (serialized_rel bindable) fun serialized written => ?_
  have tagged : Option.Rel SqlQuery.Writes (sqlTag ["", ""] [serialized])
      (some (columnForm column value dialect).pieces) := by
    refine sqlTag_rel (by simpa using written.plain) fun query writes => ?_
    simpa [written.spliced] using writes
  exact optionRel_bind_some tagged fun item writes => .some writes.toValue

theorem listed_rel {values : List Data} (bindable : ∀ value ∈ values, value.bindable = true) :
    Option.Rel SqlQuery.Writes (listed column dialect values)
      (some (formsPieces (listForms column dialect values))) := by
  refine optionRel_bind_some (optionRel_mapM_some fun value member =>
    item_rel (bindable value member)) fun found written => ?_
  rcases forall₂_spliced written with ⟨plain, spliced⟩
  refine join_rel plain fun query writes => ?_
  simpa [formsPieces, listForms, spliced, Function.comp_def] using writes

theorem membership_rel {before : String} {values : List Data} {test : Test}
    (bindable : ∀ value ∈ values, value.bindable = true)
    (pieces : test.pieces field = .identifier [field] ::
      (textPieces before ++ (formsPieces (listForms column dialect values) ++ textPieces ")"))) :
    Option.Rel (WritesTest field) (membership field column dialect before values)
      (tested field test) := by
  refine named_rel (optionRel_bind_some (listed_rel bindable) fun items itemsWrites => ?_)
  refine sqlTag_rel ?_ fun query writes => ?_
  · simpa [SqlValue.plain] using itemsWrites.toValue.1
  · simpa [WritesTest, pieces, itemsWrites.written] using writes

theorem inClause_rel (bindable : ∀ value ∈ operandValues "$in" operand, value.bindable = true) :
    Option.Rel (WritesTest field) (inClause field column dialect operand)
      (inTest field column dialect operand) := by
  simp only [inClause, inTest, operandValues] at bindable ⊢
  cases found : inOperand operand with
  | none => exact .none
  | some values =>
      simp only [found, ↓reduceIte, Option.getD_some] at bindable
      simp only [Option.bind_eq_bind, Option.bind_some]
      split
      · exact sqlTag_rel (by simp) fun query writes => by
          simpa [WritesTest, Test.pieces] using writes
      · exact membership_rel bindable rfl

theorem ninClause_rel (bindable : ∀ value ∈ operandValues "$nin" operand, value.bindable = true) :
    Option.Rel (WritesTest field) (ninClause field column dialect operand)
      (ninTest field column dialect operand) := by
  simp only [ninClause, ninTest, operandValues] at bindable ⊢
  cases found : ninOperand operand with
  | none => exact .none
  | some values =>
      have present : ∀ value ∈ values.filter (fun value => !value.isNullish),
          value.bindable = true := by simpa [found] using bindable
      simp only [Option.bind_eq_bind, Option.bind_some]
      split
      · exact unaryClause_rel rfl
      · split
        · rename_i complete
          exact membership_rel present (by simp [Test.pieces, complete])
        · rename_i incomplete
          refine named_rel (optionRel_bind_some (listed_rel present) fun items itemsWrites => ?_)
          refine sqlTag_rel ?_ fun query writes => ?_
          · simpa [SqlValue.plain] using itemsWrites.toValue.1
          · simpa [WritesTest, Test.pieces, incomplete, itemsWrites.written] using writes

theorem neClause_rel (bindable : operand.bindable = true) :
    Option.Rel (WritesTest field) (neClause field column dialect operand)
      (neTest field column dialect operand) := by
  fun_cases neClause field column dialect operand
  · exact unaryClause_rel rfl
  · rename_i present
    rw [neTest]
    · exact comparison_rel " <> " bindable
    · exact present

/-- An operator of the code and its test. -/
structure Matches (field : String) (operator : String × (Data → Option SqlQuery))
    (test : String × (Data → Option Test)) : Prop where
  key : operator.1 = test.1
  tests : ∀ operand, (∀ value ∈ operandValues operator.1 operand, value.bindable = true) →
    Option.Rel (WritesTest field) (operator.2 operand) (test.2 operand)

theorem comparison_matches (key operator : String)
    (single : ∀ operand, operandValues key operand = [operand]) :
    Matches field (key, comparison field column dialect operator)
      (key, compareTest field column dialect operator) :=
  ⟨rfl, fun operand bindable => comparison_rel operator (bindable operand (by simp [single]))⟩

theorem operators_match :
    List.Forall₂ (Matches field) (operators field column dialect)
      (operatorTests field column dialect) := by
  refine .cons ⟨rfl, fun _ => inClause_rel⟩ (.cons ⟨rfl, fun _ => ninClause_rel⟩
    (.cons ⟨rfl, fun operand bindable => neClause_rel (bindable operand (by simp [operandValues]))⟩
      ?_))
  refine .cons ?_ (.cons ?_ (.cons ?_ (.cons ?_ (.cons ?_ (.cons ?_ .nil)))))
  all_goals exact comparison_matches _ _ fun operand => rfl

theorem mem_conditionValues {found : Data} {key : String} (known : key ∈ operatorKeys)
    (has : value.get? key = some operand) (bound : found ∈ operandValues key operand) :
    found ∈ conditionValues value := by
  have listed : operandValues key operand ∈
      operatorKeys.filterMap fun key => (value.get? key).map (operandValues key) :=
    List.mem_filterMap.mpr ⟨key, known, by simp [has]⟩
  simp only [conditionValues]
  split
  · rename_i none
    simp [none] at listed
  · exact List.mem_flatten.mpr ⟨_, listed, bound⟩

theorem matching_rel {clauses : List (String × (Data → Option SqlQuery))}
    {tests : List (String × (Data → Option Test))}
    (matching : List.Forall₂ (Matches field) clauses tests)
    (bindable : ∀ clause ∈ clauses, ∀ operand, value.get? clause.1 = some operand →
      ∀ found ∈ operandValues clause.1 operand, found.bindable = true) :
    Option.Rel (List.Forall₂ (WritesTest field))
      ((clauses.filterMap fun clause => (value.get? clause.1).map clause.2).mapM id)
      ((tests.filterMap fun test => (value.get? test.1).map test.2).mapM id) := by
  induction matching with
  | nil => exact .some .nil
  | @cons clause test clauses tests head tail ih =>
      have onwards := ih fun found member => bindable found (List.mem_cons_of_mem _ member)
      have same := head.key
      cases found : value.get? clause.1 with
      | none =>
          rw [List.filterMap_cons_none (by simp [found]),
            List.filterMap_cons_none (by simp [← same, found])]
          exact onwards
      | some operand =>
          rw [List.filterMap_cons_some (b := clause.2 operand) (by simp [found]),
            List.filterMap_cons_some (b := test.2 operand) (by simp [← same, found]),
            List.mapM_cons, List.mapM_cons]
          refine optionRel_bind (head.tests operand (bindable clause (by simp) operand found))
            fun query written writes => ?_
          exact optionRel_bind onwards fun queries others rest => .some (.cons writes rest)

theorem forall₂_toValue {queries : List SqlQuery} {outlines : List Outline}
    {pieces : Outline → List Piece}
    (written : List.Forall₂ (fun query outline => query.Writes (pieces outline)) queries outlines) :
    List.Forall₂ WritesValue (queries.map SqlQuery.toValue) (outlines.map pieces) := by
  induction written with
  | nil => exact .nil
  | cons head tail ih => exact .cons head.toValue ih

theorem joined_rel {Result : Type} {results : SqlQuery → Result → Prop} {result : Result}
    {queries : List SqlQuery} {outlines : List Outline} {pieces : Outline → List Piece}
    {separator : String}
    (written : List.Forall₂ (fun query outline => query.Writes (pieces outline)) queries outlines)
    (joined : ∀ query : SqlQuery,
      query.Writes (joinPieces (textPieces separator) (outlines.map pieces)) →
        results query result) :
    Option.Rel results (join (queries.map SqlQuery.toValue) ⟨[separator], []⟩) (some result) := by
  rcases forall₂_spliced (forall₂_toValue written) with ⟨plain, spliced⟩
  exact join_rel plain fun query writes => joined query (spliced ▸ writes)

theorem joinPieces_singleton (separator pieces : List Piece) :
    joinPieces separator [pieces] = pieces := by
  simp [joinPieces]

theorem eq_nil_of_mapM {Item : Type} {items : List (Option Item)}
    (none : items.mapM id = some []) : items = [] := by
  cases items with
  | nil => rfl
  | cons item rest => simp [List.mapM_cons, Option.bind_eq_some_iff] at none

theorem conditionValues_of_plain (none : operatorClauses field column dialect value = some []) :
    conditionValues value = [value] := by
  have empty := List.filterMap_eq_nil_iff.mp (eq_nil_of_mapM none)
  have keys : operatorKeys.filterMap (fun key => (value.get? key).map (operandValues key)) =
      [] := by
    refine List.filterMap_eq_nil_iff.mpr fun key known => ?_
    have known : key ∈ (operators field column dialect).map Prod.fst := known
    rcases List.mem_map.mp known with ⟨clause, member, rfl⟩
    simpa using empty clause member
  simp only [conditionValues, keys]

theorem renderFilter_rel (bindable : ∀ found ∈ conditionValues value, found.bindable = true) :
    Option.Rel (fun query tests => query.Writes (testsPieces field tests))
      (renderFilter field column dialect value)
      (conditionOutline field column dialect value) := by
  have operands : ∀ clause ∈ operators field column dialect, ∀ operand,
      value.get? clause.1 = some operand →
        ∀ found ∈ operandValues clause.1 operand, found.bindable = true := by
    intro clause member operand has found bound
    have known : clause.1 ∈ operatorKeys :=
      List.mem_map_of_mem (l := operators field column dialect) (f := Prod.fst) member
    exact bindable found (mem_conditionValues known has bound)
  have single : ∀ {clause : Option SqlQuery} {test : Option Test},
      Option.Rel (WritesTest field) clause test →
      Option.Rel (fun query tests => query.Writes (testsPieces field tests)) clause
        (test.map fun found => [found]) := by
    intro clause test related
    cases related with
    | none => exact .none
    | some writes =>
        refine .some ?_
        simpa [testsPieces, joinPieces_singleton] using (show SqlQuery.Writes _ _ from writes)
  have related : Option.Rel (List.Forall₂ (WritesTest field))
      (operatorClauses field column dialect value) (operatorOutline field column dialect value) :=
    matching_rel operators_match operands
  have bound := @conditionValues_of_plain field column dialect value
  simp only [renderFilter, conditionOutline, Option.bind_eq_bind]
  generalize operatorClauses field column dialect value = clauses at related bound
  generalize operatorOutline field column dialect value = tests at related
  cases related with
  | none => exact .none
  | some written =>
      cases written with
      | cons head tail =>
          simp only [Option.bind_some, ne_eq, reduceCtorEq, not_false_eq_true, ↓reduceIte]
          exact joined_rel (List.Forall₂.cons head tail) fun query writes => writes
      | nil =>
          rw [bound rfl] at bindable
          simp only [Option.bind_some, ne_eq, not_true_eq_false, ↓reduceIte]
          split
          · exact single (unaryClause_rel rfl)
          · exact single (comparison_rel " = " (bindable value (by simp)))

end Conditions

section Records

variable {columns : List ColumnMetadata} {dialect : Dialect} {field : String} {value : Data}
  {others : Option (List SqlQuery)} {rest : Option (List Clause)}

@[simp]
theorem clausesPieces_eq_map (clauses : List Clause) :
    clausesPieces clauses = clauses.map Clause.pieces := by
  induction clauses with
  | nil => rfl
  | cons clause rest ih => simp [clausesPieces, ih]

@[simp]
theorem childrenPieces_eq_map (children : List (List Clause)) :
    childrenPieces children = children.map recordPieces := by
  induction children with
  | nil => rfl
  | cons child rest ih => simp [childrenPieces, recordPieces, ih]

/-- Whether a query writes a clause. -/
def WritesClause (query : SqlQuery) (clause : Clause) : Prop := query.Writes clause.pieces

/-- Whether a query writes the clauses of a record that has some. -/
def WritesChild (query : SqlQuery) (clauses : List Clause) : Prop :=
  clauses ≠ [] ∧ query.Writes (recordPieces clauses)

/-- Whether a record without clauses has no query and any other the query of its clauses. -/
def WritesRecord : Option SqlQuery → List Clause → Prop
  | none, clauses => clauses = []
  | some query, clauses => WritesChild query clauses

theorem renderEntry_rel (bindable : ∀ found ∈ conditionValues value, found.bindable = true) :
    Option.Rel WritesClause (renderEntry columns dialect field value)
      (entryOutline columns dialect field value) := by
  have related := @renderFilter_rel
    (((resolveColumn columns field).map ColumnMetadata.columnName).getD field)
    (resolveColumn columns field) dialect value bindable
  simp only [renderEntry, entryOutline]
  generalize renderFilter _ _ _ value = query at related ⊢
  generalize conditionOutline _ _ _ value = tests at related ⊢
  cases related with
  | none => exact .none
  | some writes => exact .some (by simpa [WritesClause, Clause.pieces] using writes)

theorem recordClause_rel {clauses : List SqlQuery} {outlines : List Clause}
    (written : List.Forall₂ WritesClause clauses outlines) :
    Option.Rel WritesRecord (recordClause clauses) (some outlines) := by
  cases written with
  | nil => exact .some rfl
  | @cons clause outline clauses outlines head tail =>
      have joined : Option.Rel WritesChild
          (join ((clause :: clauses).map SqlQuery.toValue) ⟨[" AND "], []⟩)
          (some (outline :: outlines)) := by
        refine joined_rel (List.Forall₂.cons head tail) fun query writes => ?_
        exact ⟨by simp, by simpa [recordPieces] using writes⟩
      rw [recordClause, if_pos (List.cons_ne_nil _ _)]
      generalize join ((clause :: clauses).map SqlQuery.toValue) ⟨[" AND "], []⟩ = query at joined ⊢
      cases joined with
      | some writes => exact .some writes

theorem groupClause_rel (field : String) {rendered : List SqlQuery} {children : List (List Clause)}
    (written : List.Forall₂ WritesChild rendered children) :
    Option.Rel (List.Forall₂ WritesClause) (groupClause field rendered)
      (some (groupOutline field children)) := by
  cases written with
  | nil =>
      simp only [groupClause, groupOutline, ne_eq, not_true_eq_false, ↓reduceIte, List.isEmpty_nil]
      split
      · have never : Option.Rel WritesClause (sqlTag ["1 = 0"] []) (some Clause.never) :=
          sqlTag_rel (by simp) fun query writes => by
            simpa [WritesClause, Clause.pieces] using writes
        exact optionRel_bind_some never fun query writes => .some (.cons writes .nil)
      · exact .some .nil
  | @cons query child queries children head tail =>
      have joined : Option.Rel SqlQuery.Writes
          (join ((query :: queries).map SqlQuery.toValue)
            ⟨[if field = "$and" then " AND " else " OR "], []⟩)
          (some (joinPieces (textPieces (if field = "$and" then " AND " else " OR "))
            ((child :: children).map recordPieces))) := by
        have pieces := (List.Forall₂.cons head tail).imp fun _ _ both => both.2
        exact joined_rel pieces fun query writes => writes
      simp only [groupClause, groupOutline, ne_eq, reduceCtorEq, not_false_eq_true, ↓reduceIte,
        List.isEmpty_cons, Bool.false_eq_true]
      refine optionRel_bind_some joined fun inner innerWrites => ?_
      have grouped : Option.Rel WritesClause (sqlTag ["(", ")"] [inner.toValue])
          (some (.group field (child :: children))) := by
        refine sqlTag_rel (by simpa using innerWrites.toValue.1) fun outer writes => ?_
        simpa [WritesClause, Clause.pieces, innerWrites.written] using writes
      exact optionRel_bind_some grouped fun outer writes => .some (.cons writes .nil)

theorem entryClauses_rel {values : List Data} {rendered : Option (List SqlQuery)}
    {children : Option (List (List Clause))} (group : (∀ found ∈ values, found.bindable = true) →
      Option.Rel (List.Forall₂ WritesChild) rendered children)
    (bindable : ∀ found ∈ entryValues field value values, found.bindable = true) :
    Option.Rel (List.Forall₂ WritesClause) (entryClauses columns dialect field value rendered)
      (entryOutlines columns dialect field value children) := by
  simp only [entryClauses, entryOutlines, entryValues] at bindable ⊢
  split
  · rename_i grouped
    rw [if_pos grouped] at bindable
    exact optionRel_map (group bindable) fun rendered outlines written =>
      groupClause_rel field written
  · rename_i single
    rw [if_neg single] at bindable
    have related := @renderEntry_rel columns dialect field value bindable
    generalize renderEntry columns dialect field value = clause at related
    generalize entryOutline columns dialect field value = outline at related
    cases related with
    | none => exact .none
    | some writes => exact .some (.cons writes .nil)

theorem entries_rel {clauses : Option (List SqlQuery)} {outlines : Option (List Clause)}
    (first : Option.Rel (List.Forall₂ WritesClause) clauses outlines)
    (onwards : Option.Rel (List.Forall₂ WritesClause) others rest) :
    Option.Rel (List.Forall₂ WritesClause)
      (do return (← clauses) ++ (← others)) (do return (← outlines) ++ (← rest)) :=
  optionRel_bind first fun _ _ head =>
    optionRel_bind onwards fun _ _ tail => .some (List.rel_append head tail)

theorem single_rel {values : List Data} (onwards : (∀ found ∈ values, found.bindable = true) →
      Option.Rel (List.Forall₂ WritesClause) others rest)
    (bindable : ∀ found ∈ entryValues field value [] ++ values, found.bindable = true) :
    Option.Rel (List.Forall₂ WritesClause)
      (do return (← entryClauses columns dialect field value (some [])) ++ (← others))
      (do return (← entryOutlines columns dialect field value (some [])) ++ (← rest)) := by
  simp only [List.mem_append] at bindable
  exact entries_rel (entryClauses_rel (fun _ => .some .nil) fun found bound =>
      bindable found (.inl bound))
    (onwards fun found bound => bindable found (.inr bound))

theorem positions_rel (value : Data)
    (bindable : ∀ found ∈ ((positionEntries value).getD []).flatMap fun entry =>
      conditionValues entry.2, found.bindable = true) :
    Option.Rel WritesRecord
      (do
        let entries ← positionEntries value
        let clauses ← entries.mapM fun entry => renderEntry columns dialect entry.1 entry.2
        recordClause clauses)
      (do
        let entries ← positionEntries value
        entries.mapM fun entry => entryOutline columns dialect entry.1 entry.2) := by
  cases found : positionEntries value with
  | none => exact .none
  | some entries =>
      simp only [found, Option.getD_some, List.mem_flatMap, forall_exists_index,
        and_imp] at bindable
      have clauses : Option.Rel (List.Forall₂ WritesClause)
          (entries.mapM fun entry => renderEntry columns dialect entry.1 entry.2)
          (entries.mapM fun entry => entryOutline columns dialect entry.1 entry.2) :=
        optionRel_mapM fun entry member =>
          renderEntry_rel fun found bound => bindable found entry member bound
      simp only [Option.bind_eq_bind, Option.bind_some]
      generalize (entries.mapM fun entry => renderEntry columns dialect entry.1 entry.2) = queries
        at clauses
      generalize (entries.mapM fun entry => entryOutline columns dialect entry.1 entry.2) = outlines
        at clauses
      cases clauses with
      | none => exact .none
      | some written => exact recordClause_rel written

mutual

theorem renderFilterRecord_rel : ∀ value : Data,
    (∀ found ∈ filterValues value, found.bindable = true) →
      Option.Rel WritesRecord (renderFilterRecord columns dialect value)
        (filterOutline columns dialect value)
  | .object entries, bindable => by
      simp only [renderFilterRecord, filterOutline, filterValues] at bindable ⊢
      have related := renderEntries_rel entries bindable
      generalize renderEntries columns dialect entries = clauses at related
      generalize entriesOutline columns dialect entries = outlines at related
      cases related with
      | none => exact .none
      | some written => exact recordClause_rel written
  | .undefined, _ => .none
  | .null, _ => .none
  | .boolean value, bindable => positions_rel (.boolean value) bindable
  | .number value, bindable => positions_rel (.number value) bindable
  | .bigint value, bindable => positions_rel (.bigint value) bindable
  | .string value, bindable => positions_rel (.string value) bindable
  | .bytes holder content, bindable => positions_rel (.bytes holder content) bindable
  | .date fields, bindable => positions_rel (.date fields) bindable
  | .array items, bindable => positions_rel (.array items) bindable

theorem renderEntries_rel : ∀ entries : List (String × Data),
    (∀ found ∈ entriesValues entries, found.bindable = true) →
      Option.Rel (List.Forall₂ WritesClause) (renderEntries columns dialect entries)
        (entriesOutline columns dialect entries)
  | [], _ => .some .nil
  | (field, .array children) :: rest, bindable => by
      simp only [renderEntries, entriesOutline, entriesValues, List.mem_append] at bindable ⊢
      exact entries_rel
        (entryClauses_rel (renderChildren_rel children) fun found bound =>
          bindable found (.inl bound))
        (renderEntries_rel rest fun found bound => bindable found (.inr bound))
  | (_, .undefined) :: rest, bindable => single_rel (renderEntries_rel rest) bindable
  | (_, .null) :: rest, bindable => single_rel (renderEntries_rel rest) bindable
  | (_, .boolean _) :: rest, bindable => single_rel (renderEntries_rel rest) bindable
  | (_, .number _) :: rest, bindable => single_rel (renderEntries_rel rest) bindable
  | (_, .bigint _) :: rest, bindable => single_rel (renderEntries_rel rest) bindable
  | (_, .string _) :: rest, bindable => single_rel (renderEntries_rel rest) bindable
  | (_, .bytes _ _) :: rest, bindable => single_rel (renderEntries_rel rest) bindable
  | (_, .date _) :: rest, bindable => single_rel (renderEntries_rel rest) bindable
  | (_, .object _) :: rest, bindable => single_rel (renderEntries_rel rest) bindable

theorem renderChildren_rel : ∀ children : List Data,
    (∀ found ∈ childrenValues children, found.bindable = true) →
      Option.Rel (List.Forall₂ WritesChild) (renderChildren columns dialect children)
        (childrenOutline columns dialect children)
  | [], _ => .some .nil
  | child :: rest, bindable => by
      simp only [renderChildren, childrenOutline, childrenValues, List.mem_append] at bindable ⊢
      refine optionRel_bind (renderFilterRecord_rel child fun found bound =>
        bindable found (.inl bound)) fun rendered clauses head => ?_
      refine optionRel_bind (renderChildren_rel rest fun found bound =>
        bindable found (.inr bound)) fun others outlines tail => ?_
      refine .some (List.rel_append ?_ tail)
      cases rendered with
      | none =>
          rw [show clauses = [] from head]
          exact .nil
      | some query =>
          rcases head with ⟨nonempty, writes⟩
          rw [if_neg (by simpa using nonempty)]
          exact .cons ⟨nonempty, writes⟩ .nil

end

end Records

end ServerFoundation.Sql
