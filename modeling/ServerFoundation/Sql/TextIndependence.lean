import ServerFoundation.Sql.FilterOutline

/-!
# The text of a statement does not depend on its data

Expressions of the fragment constructors with holes for data, filters and patches.
Two assignments of data that agree in the outlines of the filters and patches give
one text, as long as no object among the data passes for a fragment; the data is
found in the bindings only.
-/

namespace ServerFoundation.Sql

section Patches

variable (columns : List ColumnMetadata) (dialect : Dialect)

/-- What a patch does to a column. -/
inductive Assignment where
  | increment (columnName : String)
  | set (columnName : String) (form : Form)
deriving DecidableEq

/-- What an assignment writes. -/
def Assignment.pieces : Assignment → List Piece
  | increment columnName =>
      .identifier [columnName] :: (textPieces " = " ++ .identifier [columnName] ::
        (textPieces " + " ++ [.slot]))
  | set columnName form => .identifier [columnName] :: (textPieces " = " ++ form.pieces)

/-- The value that a patch assigns to a column, or adds to it. -/
def assignedValue (patch : Data) (column : ColumnMetadata) : Data :=
  if increments patch column then
    ((incPatch patch).bind fun found => found.get? column.propertyName).getD .undefined
  else (patch.get? column.propertyName).getD .undefined

/-- The outline of the assignment to one column. -/
def assignmentOutline (patch : Data) (column : ColumnMetadata) : Option Assignment :=
  (identifier [column.columnName]).map fun _ =>
    if increments patch column then .increment column.columnName
    else .set column.columnName (columnForm (some column) (assignedValue patch column) dialect)

/-- The outline of a patch. -/
def patchOutline (patch : Data) : Option (List Assignment) :=
  if columns.any fun column =>
      column.generated && (patch.hasOwn column.propertyName || increments patch column) then none
  else (updateColumns columns patch).mapM (assignmentOutline dialect patch)

/-- The values that a patch binds. -/
def patchValues (patch : Data) : List Data :=
  (updateColumns columns patch).map (assignedValue patch)

/-- Whether a patch without assignments has no query and any other the query of its assignments. -/
def WritesPatch : Option SqlQuery → List Assignment → Prop
  | none, assignments => assignments = []
  | some query, assignments =>
      assignments ≠ [] ∧
        query.Writes (joinPieces (textPieces ", ") (assignments.map Assignment.pieces))

theorem renderAssignment_rel {patch : Data} {column : ColumnMetadata}
    (bindable : (assignedValue patch column).bindable = true) :
    Option.Rel (fun query assignment => query.Writes (Assignment.pieces assignment))
      (renderAssignment dialect patch column) (assignmentOutline dialect patch column) := by
  simp only [renderAssignment, assignmentOutline]
  refine named_rel ?_
  by_cases increment : increments patch column = true
  · simp only [assignedValue, increment, ↓reduceIte] at bindable ⊢
    refine sqlTag_rel ?_ fun query writes => ?_
    · simp only [Data.bindable, Bool.and_eq_true, Bool.not_eq_true'] at bindable
      simp [SqlValue.plain, bindable.2]
    · simpa [Assignment.pieces] using writes
  · simp only [assignedValue, increment, Bool.false_eq_true, ↓reduceIte] at bindable ⊢
    refine optionRel_bind_some (serialized_rel bindable) fun serialized written => ?_
    refine sqlTag_rel (by simp [SqlValue.plain, written.plain]) fun query writes => ?_
    simpa [Assignment.pieces, written.spliced] using writes

theorem renderPatchSet_rel {patch : Data}
    (bindable : ∀ value ∈ patchValues columns patch, value.bindable = true) :
    Option.Rel WritesPatch (renderPatchSet columns dialect patch)
      (patchOutline columns dialect patch) := by
  simp only [renderPatchSet, patchOutline]
  split
  · exact .none
  · have assignments : Option.Rel
        (List.Forall₂ fun query assignment => query.Writes (Assignment.pieces assignment))
        ((updateColumns columns patch).mapM (renderAssignment dialect patch))
        ((updateColumns columns patch).mapM (assignmentOutline dialect patch)) :=
      optionRel_mapM fun column member => renderAssignment_rel dialect
        (bindable _ (List.mem_map_of_mem member))
    cases listed : updateColumns columns patch with
    | nil => exact .some rfl
    | cons column rest =>
        rw [listed] at assignments
        rw [if_neg (List.cons_ne_nil _ _)]
        have assigns : ∀ outlines, (column :: rest).mapM (assignmentOutline dialect patch) =
            some outlines → outlines ≠ [] := by
          rintro outlines found rfl
          simp [List.mapM_cons, Option.bind_eq_some_iff] at found
        generalize (column :: rest).mapM (assignmentOutline dialect patch) = outlines
          at assignments assigns
        generalize (column :: rest).mapM (renderAssignment dialect patch) = queries at assignments
        cases assignments with
        | none => exact .none
        | @some queries outlines written =>
            have joined : Option.Rel (fun query assignments => WritesPatch (some query) assignments)
                (join (queries.map SqlQuery.toValue) comma) (some outlines) :=
              joined_rel written fun query writes => ⟨assigns outlines rfl, writes⟩
            simp only [Option.bind_eq_bind, Option.bind_some]
            generalize join (queries.map SqlQuery.toValue) comma = query at joined
            cases joined with
            | some writes => exact .some writes

end Patches

section Expressions

variable {Hole : Type}

/-- An expression of the fragment constructors, with holes for data. -/
inductive Expression (Hole : Type) where
  | data (hole : Hole)
  | columnValue (column : Option ColumnMetadata) (hole : Hole)
  | sqlTag (strings : List String) (values : List (Expression Hole))
  | join (values : List (Expression Hole)) (separator : Expression Hole)
  | identifier (names : List String)
  | rawTrusted (text : String)
  | createSqlQuery (sqlIn : String) (bindings : List (Expression Hole))
  | renderWhere (columns : List ColumnMetadata) (filter : Hole)
  | filtered (query : Expression Hole) (columns : List ColumnMetadata) (filter : Hole)
  | patchSet (columns : List ColumnMetadata) (patch : Hole)

/-- A value that is a query. -/
def SqlValue.asQuery : SqlValue → Option SqlQuery
  | .query chunks values => some ⟨chunks, values⟩
  | _ => none

/-- `sql` with the query so far and `WHERE`, when the filter has clauses. -/
def withWhere (query : SqlValue) : Option SqlQuery → Option SqlValue
  | none => some query
  | some found => (sqlTag ["", " WHERE ", ""] [query, found.toValue]).map SqlQuery.toValue

/-- A record without clauses is `undefined`. -/
def recordValue : Option SqlQuery → SqlValue
  | none => .data .undefined
  | some query => query.toValue

mutual

/-- The value of an expression; a patch that sets nothing has no statement. -/
def Expression.eval (dialect : Dialect) (assignment : Hole → Data) :
    Expression Hole → Option SqlValue
  | .data hole => some (.data (assignment hole))
  | .columnValue column hole => serializeColumnValue column (assignment hole) dialect
  | .sqlTag strings values => do
      (Sql.sqlTag strings (← evalAll dialect assignment values)).map SqlQuery.toValue
  | .join values separator => do
      let found ← evalAll dialect assignment values
      let between ← (← separator.eval dialect assignment).asQuery
      (Sql.join found between).map SqlQuery.toValue
  | .identifier names => Sql.identifier names
  | .rawTrusted text => some (Sql.rawTrusted text)
  | .createSqlQuery sqlIn bindings => do
      (Sql.createSqlQuery sqlIn (← evalAll dialect assignment bindings)).map SqlQuery.toValue
  | .renderWhere columns filter =>
      (renderFilterRecord columns dialect (assignment filter)).map recordValue
  | .filtered query columns filter => do
      let found ← query.eval dialect assignment
      withWhere found (← renderFilterRecord columns dialect (assignment filter))
  | .patchSet columns patch => do
      let found ← renderPatchSet columns dialect (assignment patch)
      found.map SqlQuery.toValue

/-- The values of several expressions. -/
def evalAll (dialect : Dialect) (assignment : Hole → Data) :
    List (Expression Hole) → Option (List SqlValue)
  | [] => some []
  | expression :: rest => do
      let value ← expression.eval dialect assignment
      let others ← evalAll dialect assignment rest
      return value :: others

end

/-- `renderSql` of an expression. -/
def Expression.render (expression : Expression Hole) (dialect : Dialect)
    (assignment : Hole → Data) : Option RenderedSql := do
  let query ← (← expression.eval dialect assignment).asQuery
  renderSql (.query query) dialect

mutual

/-- The data values that an expression binds. -/
def Expression.values (assignment : Hole → Data) : Expression Hole → List Data
  | .data hole => [assignment hole]
  | .columnValue _ hole => [assignment hole]
  | .sqlTag _ values => allValues assignment values
  | .join values separator => allValues assignment values ++ separator.values assignment
  | .identifier _ => []
  | .rawTrusted _ => []
  | .createSqlQuery _ bindings => allValues assignment bindings
  | .renderWhere _ filter => filterValues (assignment filter)
  | .filtered query _ filter => query.values assignment ++ filterValues (assignment filter)
  | .patchSet columns patch => patchValues columns (assignment patch)

/-- The data values that several expressions bind. -/
def allValues (assignment : Hole → Data) : List (Expression Hole) → List Data
  | [] => []
  | expression :: rest => expression.values assignment ++ allValues assignment rest

end

mutual

/-- Two assignments agree in the outlines of the filters, patches and column values. -/
def Expression.Alike (dialect : Dialect) (left right : Hole → Data) : Expression Hole → Prop
  | .data _ => True
  | .columnValue column hole =>
      columnForm column (left hole) dialect = columnForm column (right hole) dialect
  | .sqlTag _ values => AllAlike dialect left right values
  | .join values separator =>
      AllAlike dialect left right values ∧ separator.Alike dialect left right
  | .identifier _ => True
  | .rawTrusted _ => True
  | .createSqlQuery _ bindings => AllAlike dialect left right bindings
  | .renderWhere columns filter =>
      filterOutline columns dialect (left filter) = filterOutline columns dialect (right filter)
  | .filtered query columns filter => query.Alike dialect left right ∧
      filterOutline columns dialect (left filter) = filterOutline columns dialect (right filter)
  | .patchSet columns patch =>
      patchOutline columns dialect (left patch) = patchOutline columns dialect (right patch)

/-- `Alike` for several expressions. -/
def AllAlike (dialect : Dialect) (left right : Hole → Data) : List (Expression Hole) → Prop
  | [] => True
  | expression :: rest => expression.Alike dialect left right ∧ AllAlike dialect left right rest

end

end Expressions

section TwoRuns

variable {columns : List ColumnMetadata} {clauses : List Clause}

/-- Two values that write the same, spliced and bound, and are both queries or both not. -/
structure SameText (left right : SqlValue) : Prop where
  leftPlain : left.plain = true
  rightPlain : right.plain = true
  spliced : left.spliced = right.spliced
  pieces : left.pieces = right.pieces
  query : left.asQuery.isSome = right.asQuery.isSome

theorem sameText_toValue {left right : SqlQuery} {pieces : List Piece}
    (leftWrites : left.Writes pieces) (rightWrites : right.Writes pieces) :
    SameText left.toValue right.toValue :=
  ⟨leftWrites.toValue.1, rightWrites.toValue.1, leftWrites.written.trans rightWrites.written.symm,
    rfl, rfl⟩

theorem forall₂_sameText {left right : List SqlValue} (same : List.Forall₂ SameText left right) :
    (∀ value ∈ left, value.plain = true) ∧ (∀ value ∈ right, value.plain = true) ∧
      left.map SqlValue.spliced = right.map SqlValue.spliced ∧
      left.map SqlValue.pieces = right.map SqlValue.pieces := by
  induction same with
  | nil => simp
  | cons head tail ih =>
      rcases ih with ⟨leftPlain, rightPlain, spliced, pieces⟩
      exact ⟨by simpa using ⟨head.leftPlain, leftPlain⟩,
        by simpa using ⟨head.rightPlain, rightPlain⟩,
        by simp [head.spliced, spliced], by simp [head.pieces, pieces]⟩

theorem interleave_congr {write : SqlValue → List Piece} {left right : List SqlValue}
    (same : left.map write = right.map write) (chunks : List String) :
    interleave write chunks left = interleave write chunks right := by
  induction left generalizing right chunks with
  | nil =>
      cases right with
      | nil => rfl
      | cons value rest => simp at same
  | cons first others ih =>
      cases right with
      | nil => simp at same
      | cons value rest =>
          simp only [List.map_cons, List.cons.injEq] at same
          simp only [interleave, same.1, ih same.2]

theorem sqlTag_sameText (strings : List String) {left right : List SqlValue}
    (same : List.Forall₂ SameText left right) :
    Option.Rel SameText ((sqlTag strings left).map SqlQuery.toValue)
      ((sqlTag strings right).map SqlQuery.toValue) := by
  rcases forall₂_sameText same with ⟨leftPlain, rightPlain, spliced, -⟩
  rcases sqlTag_writes strings leftPlain with ⟨leftQuery, leftEq, leftWrites⟩
  rcases sqlTag_writes strings rightPlain with ⟨rightQuery, rightEq, rightWrites⟩
  rw [weave, interleave_congr spliced, ← weave] at leftWrites
  rw [leftEq, rightEq]
  exact .some (sameText_toValue leftWrites rightWrites)

theorem join_sameText {left right : List SqlValue} {leftSeparator rightSeparator : SqlQuery}
    (same : List.Forall₂ SameText left right)
    (separators : SameText leftSeparator.toValue rightSeparator.toValue) :
    Option.Rel SameText ((join left leftSeparator).map SqlQuery.toValue)
      ((join right rightSeparator).map SqlQuery.toValue) := by
  rcases forall₂_sameText same with ⟨leftPlain, rightPlain, spliced, -⟩
  rcases join_writes (leftSeparator.plain_toValue.mp separators.leftPlain) leftPlain with
    ⟨leftQuery, leftEq, leftWrites⟩
  rcases join_writes (rightSeparator.plain_toValue.mp separators.rightPlain) rightPlain with
    ⟨rightQuery, rightEq, rightWrites⟩
  have between : leftSeparator.pieces = rightSeparator.pieces := separators.spliced
  rw [spliced, between] at leftWrites
  rw [leftEq, rightEq]
  exact .some (sameText_toValue leftWrites rightWrites)

theorem createSqlQuery_sameText (sqlIn : String) {left right : List SqlValue}
    (same : List.Forall₂ SameText left right) :
    Option.Rel SameText ((createSqlQuery sqlIn left).map SqlQuery.toValue)
      ((createSqlQuery sqlIn right).map SqlQuery.toValue) := by
  rcases forall₂_sameText same with ⟨leftPlain, rightPlain, -, pieces⟩
  have counts := same.length_eq
  cases leftEq : createSqlQuery sqlIn left with
  | none =>
      cases rightEq : createSqlQuery sqlIn right with
      | none => exact .none
      | some query => simp_all [createSqlQuery]
  | some leftQuery =>
      cases rightEq : createSqlQuery sqlIn right with
      | none => simp_all [createSqlQuery]
      | some rightQuery =>
          have leftWrites := createSqlQuery_writes leftEq leftPlain
          rw [weave, interleave_congr pieces, ← weave] at leftWrites
          exact .some (sameText_toValue leftWrites (createSqlQuery_writes rightEq rightPlain))

theorem serializeColumnValue_sameText {column : Option ColumnMetadata} {dialect : Dialect}
    {left right : Data} (leftBindable : left.bindable = true)
    (rightBindable : right.bindable = true)
    (form : columnForm column left dialect = columnForm column right dialect) :
    Option.Rel SameText (serializeColumnValue column left dialect)
      (serializeColumnValue column right dialect) := by
  have one := @serialized_rel column dialect left leftBindable
  have other := @serialized_rel column dialect right rightBindable
  rw [← form] at other
  have related := optionRel_join one other
  generalize serializeColumnValue column left dialect = leftValue at related ⊢
  generalize serializeColumnValue column right dialect = rightValue at related ⊢
  cases related with
  | none => exact .none
  | some both =>
      rcases both with ⟨found, leftForm, rightForm⟩
      refine .some ⟨leftForm.plain, rightForm.plain, leftForm.spliced.trans rightForm.spliced.symm,
        ?_, ?_⟩
      · cases leftForm <;> cases rightForm <;> rfl
      · cases leftForm <;> cases rightForm <;> rfl

theorem renderFilterRecord_alike {dialect : Dialect} {left right : Data}
    (leftBindable : ∀ value ∈ filterValues left, value.bindable = true)
    (rightBindable : ∀ value ∈ filterValues right, value.bindable = true)
    (outline : filterOutline columns dialect left = filterOutline columns dialect right) :
    Option.Rel (fun one other => ∃ clauses, WritesRecord one clauses ∧ WritesRecord other clauses)
      (renderFilterRecord columns dialect left) (renderFilterRecord columns dialect right) :=
  optionRel_join (renderFilterRecord_rel left leftBindable)
    (outline ▸ renderFilterRecord_rel right rightBindable)

theorem recordValue_sameText {left right : Option SqlQuery} (leftWrites : WritesRecord left clauses)
    (rightWrites : WritesRecord right clauses) :
    SameText (recordValue left) (recordValue right) := by
  cases left with
  | none =>
      cases right with
      | none => exact ⟨rfl, rfl, rfl, rfl, rfl⟩
      | some query => exact absurd leftWrites rightWrites.1
  | some leftQuery =>
      cases right with
      | none => exact absurd rightWrites leftWrites.1
      | some rightQuery => exact sameText_toValue leftWrites.2 rightWrites.2

theorem withWhere_sameText {left right : Option SqlQuery} {leftQuery rightQuery : SqlValue}
    (queries : SameText leftQuery rightQuery) (leftWrites : WritesRecord left clauses)
    (rightWrites : WritesRecord right clauses) :
    Option.Rel SameText (withWhere leftQuery left) (withWhere rightQuery right) := by
  have values := recordValue_sameText leftWrites rightWrites
  cases left with
  | none =>
      cases right with
      | none => exact .some queries
      | some query => exact absurd leftWrites rightWrites.1
  | some found =>
      cases right with
      | none => exact absurd rightWrites leftWrites.1
      | some other => exact sqlTag_sameText _ (.cons queries (.cons values .nil))

theorem patchSet_sameText {dialect : Dialect} {left right : Data}
    (leftBindable : ∀ value ∈ patchValues columns left, value.bindable = true)
    (rightBindable : ∀ value ∈ patchValues columns right, value.bindable = true)
    (outline : patchOutline columns dialect left = patchOutline columns dialect right) :
    Option.Rel SameText
      ((renderPatchSet columns dialect left).bind fun found => found.map SqlQuery.toValue)
      ((renderPatchSet columns dialect right).bind fun found => found.map SqlQuery.toValue) := by
  have related := optionRel_join (renderPatchSet_rel columns dialect leftBindable)
    (outline ▸ renderPatchSet_rel columns dialect rightBindable)
  refine optionRel_bind related fun one other both => ?_
  rcases both with ⟨assignments, leftWrites, rightWrites⟩
  cases one with
  | none =>
      cases other with
      | none => exact .none
      | some query => exact absurd leftWrites rightWrites.1
  | some leftQuery =>
      cases other with
      | none => exact absurd rightWrites leftWrites.1
      | some rightQuery => exact .some (sameText_toValue leftWrites.2 rightWrites.2)

variable {Hole : Type} {dialect : Dialect} {left right : Hole → Data}

theorem eq_toValue_of_asQuery {value : SqlValue} {query : SqlQuery}
    (found : value.asQuery = some query) : value = query.toValue := by
  cases value with
  | query chunks values =>
      cases found
      rfl
  | data _ => cases found
  | identifier _ => cases found
  | rawTrusted _ => cases found

theorem asQuery_sameText {one other : SqlValue} (same : SameText one other) :
    Option.Rel (fun leftQuery rightQuery => SameText (SqlQuery.toValue leftQuery)
      (SqlQuery.toValue rightQuery)) one.asQuery other.asQuery := by
  have both := same.query
  cases leftEq : one.asQuery with
  | none =>
      rw [leftEq, Option.isSome_none] at both
      rw [Option.isSome_eq_false_iff.mp both.symm |> Option.isNone_iff_eq_none.mp]
      exact .none
  | some leftQuery =>
      rw [leftEq, Option.isSome_some] at both
      rcases Option.isSome_iff_exists.mp both.symm with ⟨rightQuery, rightEq⟩
      rw [rightEq]
      refine .some ?_
      rw [← eq_toValue_of_asQuery leftEq, ← eq_toValue_of_asQuery rightEq]
      exact same

mutual

theorem Expression.eval_sameText : ∀ expression : Expression Hole,
    (∀ value ∈ expression.values left, value.bindable = true) →
    (∀ value ∈ expression.values right, value.bindable = true) →
    expression.Alike dialect left right →
      Option.Rel SameText (expression.eval dialect left) (expression.eval dialect right)
  | .data hole, leftBindable, rightBindable, _ => by
      simp only [Expression.values, List.mem_singleton, forall_eq, Data.bindable, Bool.and_eq_true,
        Bool.not_eq_true'] at leftBindable rightBindable
      exact .some ⟨by simp [SqlValue.plain, leftBindable.2],
        by simp [SqlValue.plain, rightBindable.2], rfl, rfl, rfl⟩
  | .columnValue column hole, leftBindable, rightBindable, form => by
      simp only [Expression.values, List.mem_singleton, forall_eq] at leftBindable rightBindable
      exact serializeColumnValue_sameText leftBindable rightBindable form
  | .sqlTag strings values, leftBindable, rightBindable, alike => by
      simp only [Expression.values, Expression.Alike, Expression.eval] at *
      exact optionRel_bind (evalAll_sameText values leftBindable rightBindable alike)
        fun _ _ same => sqlTag_sameText strings same
  | .join values separator, leftBindable, rightBindable, alike => by
      simp only [Expression.values, Expression.Alike, Expression.eval, List.mem_append] at *
      refine optionRel_bind (evalAll_sameText values (fun value member =>
        leftBindable value (.inl member)) (fun value member => rightBindable value (.inl member))
        alike.1) fun _ _ same => ?_
      refine optionRel_bind (separator.eval_sameText (fun value member =>
        leftBindable value (.inr member)) (fun value member => rightBindable value (.inr member))
        alike.2) fun _ _ between => ?_
      exact optionRel_bind (asQuery_sameText between) fun _ _ queries => join_sameText same queries
  | .identifier names, _, _, _ => by
      simp only [Expression.eval]
      cases found : Sql.identifier names with
      | none => exact .none
      | some value =>
          rw [eq_of_identifier found]
          exact .some ⟨rfl, rfl, rfl, rfl, rfl⟩
  | .rawTrusted text, _, _, _ => .some ⟨rfl, rfl, rfl, rfl, rfl⟩
  | .createSqlQuery sqlIn bindings, leftBindable, rightBindable, alike => by
      simp only [Expression.values, Expression.Alike, Expression.eval] at *
      exact optionRel_bind (evalAll_sameText bindings leftBindable rightBindable alike)
        fun _ _ same => createSqlQuery_sameText sqlIn same
  | .renderWhere columns filter, leftBindable, rightBindable, outline => by
      simp only [Expression.values, Expression.Alike, Expression.eval] at *
      have related := renderFilterRecord_alike leftBindable rightBindable outline
      generalize renderFilterRecord columns dialect (left filter) = one at related
      generalize renderFilterRecord columns dialect (right filter) = other at related
      cases related with
      | none => exact .none
      | some both =>
          rcases both with ⟨clauses, leftWrites, rightWrites⟩
          exact .some (recordValue_sameText leftWrites rightWrites)
  | .filtered query columns filter, leftBindable, rightBindable, alike => by
      simp only [Expression.values, Expression.Alike, Expression.eval, List.mem_append] at *
      refine optionRel_bind (query.eval_sameText (fun value member =>
        leftBindable value (.inl member)) (fun value member => rightBindable value (.inl member))
        alike.1) fun _ _ queries => ?_
      refine optionRel_bind (renderFilterRecord_alike (fun value member =>
        leftBindable value (.inr member)) (fun value member => rightBindable value (.inr member))
        alike.2) fun _ _ both => ?_
      rcases both with ⟨clauses, leftWrites, rightWrites⟩
      exact withWhere_sameText queries leftWrites rightWrites
  | .patchSet columns patch, leftBindable, rightBindable, outline =>
      patchSet_sameText leftBindable rightBindable outline

theorem evalAll_sameText : ∀ expressions : List (Expression Hole),
    (∀ value ∈ allValues left expressions, value.bindable = true) →
    (∀ value ∈ allValues right expressions, value.bindable = true) →
    AllAlike dialect left right expressions →
      Option.Rel (List.Forall₂ SameText) (evalAll dialect left expressions)
        (evalAll dialect right expressions)
  | [], _, _, _ => .some .nil
  | expression :: rest, leftBindable, rightBindable, alike => by
      simp only [allValues, AllAlike, evalAll, List.mem_append] at *
      refine optionRel_bind (expression.eval_sameText (fun value member =>
        leftBindable value (.inl member)) (fun value member => rightBindable value (.inl member))
        alike.1) fun _ _ head => ?_
      exact optionRel_bind (evalAll_sameText rest (fun value member =>
        leftBindable value (.inr member)) (fun value member => rightBindable value (.inr member))
        alike.2) fun _ _ tail => .some (.cons head tail)

end

/-- Two assignments of data with the same outlines render to one text or both fail, and the bindings
are the values of the query that are rendered as placeholders. -/
theorem Expression.render_text_of_alike (expression : Expression Hole)
    (leftBindable : ∀ value ∈ expression.values left, value.bindable = true)
    (rightBindable : ∀ value ∈ expression.values right, value.bindable = true)
    (alike : expression.Alike dialect left right) :
    (expression.render dialect left).map RenderedSql.sql =
        (expression.render dialect right).map RenderedSql.sql ∧
      ∀ rendered, expression.render dialect left = some rendered →
        ∃ query, expression.eval dialect left = some (SqlQuery.toValue query) ∧
          rendered.bindings =
            (query.values.filter SqlValue.isBound).map normalizeSqlBindingValue := by
  have related := expression.eval_sameText leftBindable rightBindable alike
  simp only [Expression.render, Option.bind_eq_bind]
  generalize expression.eval dialect left = one at related
  generalize expression.eval dialect right = other at related
  cases related with
  | none => exact ⟨rfl, by simp⟩
  | @some leftValue rightValue same =>
      simp only [Option.bind_some]
      have queries := asQuery_sameText same
      have read := @eq_toValue_of_asQuery leftValue
      generalize leftValue.asQuery = leftQuery at queries read
      generalize rightValue.asQuery = rightQuery at queries
      cases queries with
      | none => exact ⟨rfl, by simp⟩
      | @some leftQuery rightQuery sameQuery =>
          have leftRendered :=
            renderSql_of_plain (leftQuery.plain_toValue.mp sameQuery.leftPlain) dialect
          have rightRendered :=
            renderSql_of_plain (rightQuery.plain_toValue.mp sameQuery.rightPlain) dialect
          have pieces : leftQuery.pieces = rightQuery.pieces := sameQuery.spliced
          simp only [Option.bind_some, leftRendered, rightRendered, Option.map_some, pieces,
            true_and]
          rintro rendered ⟨⟩
          exact ⟨leftQuery, by rw [read rfl], rfl⟩

/-- A text column. -/
def nameColumn : ColumnMetadata :=
  ⟨"name", "name", true, false, false, false, fun _ => "varchar"⟩

/-- A selection of users by a filter. -/
def selectUsers : Expression Unit :=
  .filtered (.sqlTag ["SELECT * FROM ", ""] [.identifier ["users"]]) [nameColumn] ()

theorem render_text_of_alike_names :
    (selectUsers.render .postgres fun _ => .object [("name", .string "x")]).map RenderedSql.sql =
        (selectUsers.render .postgres fun _ => .object [("name", .string "y")]).map
          RenderedSql.sql ∧
      ∀ rendered, (selectUsers.render .postgres fun _ => .object [("name", .string "x")]) =
          some rendered →
        ∃ query, (selectUsers.eval .postgres fun _ => .object [("name", .string "x")]) =
            some (SqlQuery.toValue query) ∧
          rendered.bindings =
            (query.values.filter SqlValue.isBound).map normalizeSqlBindingValue :=
  selectUsers.render_text_of_alike (by decide) (by decide) ⟨⟨trivial, trivial⟩, rfl⟩

/-- A filter value of `null` asks for the absence of a value instead of comparing with one. -/
theorem null_filter_changes_text :
    (selectUsers.render .postgres fun _ => .object [("name", .null)]).map RenderedSql.sql =
        some "SELECT * FROM \"users\" WHERE \"name\" IS NULL" ∧
      (selectUsers.render .postgres fun _ => .object [("name", .string "x")]).map RenderedSql.sql =
        some "SELECT * FROM \"users\" WHERE \"name\" = $1" ∧
      (selectUsers.render .postgres fun _ => .object [("name", .null)]).map RenderedSql.sql ≠
        (selectUsers.render .postgres fun _ => .object [("name", .string "x")]).map
          RenderedSql.sql := by
  decide +kernel

end TwoRuns

end ServerFoundation.Sql
