import ServerFoundation.Data.JsObject
import ServerFoundation.Sql.PatchFields

/-!
# The query builder

The SELECT statements that a `QueryBuilder` sends. A statement is built up by one template
after the other, each of which puts a clause behind the query so far, so a statement is its
fields, its table and the clauses in the order in which they were put.
-/

namespace ServerFoundation.Sql

/-- An item of a SELECT list. -/
inductive SelectField where
  | column (columnName : String)
  | max (columnName : String)
  | count

/-- What a template puts behind the query so far. -/
inductive SelectClause where
  | where (condition : SqlQuery)
  | orderBy (items : SqlQuery)
  | limit (value : SqlValue)
  | offset (value : SqlValue)
  | forUpdate

/-- A SELECT statement by its parts. -/
structure Select where
  fields : List SelectField
  table : String
  clauses : List SelectClause

namespace SelectField

/-- The text of a field. -/
def toSql : SelectField → Option SqlValue
  | column columnName => identifier [columnName]
  | max columnName => do
      let name ← identifier [columnName]
      (sqlTag ["", "(", ") AS ", ""] [rawTrusted "MAX", name, name]).map SqlQuery.toValue
  | count => do
      (sqlTag ["COUNT(*) AS ", ""] [← identifier ["count"]]).map SqlQuery.toValue

/-- Whether a field is an aggregate. -/
def isAggregate : SelectField → Bool
  | column _ => false
  | _ => true

end SelectField

namespace SelectClause

/-- A clause behind a query. -/
def append (query : SqlQuery) : SelectClause → Option SqlQuery
  | .where condition => sqlTag ["", " WHERE ", ""] [query.toValue, condition.toValue]
  | orderBy items => sqlTag ["", " ORDER BY ", ""] [query.toValue, items.toValue]
  | limit value => sqlTag ["", " LIMIT ", ""] [query.toValue, value]
  | offset value => sqlTag ["", " OFFSET ", ""] [query.toValue, value]
  | forUpdate => sqlTag ["", " FOR UPDATE"] [query.toValue]

/-- The place of a clause in a SELECT statement. -/
def rank : SelectClause → ℕ
  | .where _ => 1
  | orderBy _ => 2
  | limit _ => 3
  | offset _ => 4
  | forUpdate => 5

end SelectClause

namespace Select

/-- The text of a statement. -/
def toSql (select : Select) : Option SqlQuery := do
  let list ← join (← select.fields.mapM SelectField.toSql) comma
  let query ← sqlTag ["SELECT ", " FROM ", ""] [list.toValue, ← identifier [select.table]]
  select.clauses.foldlM SelectClause.append query

/-- The places of its clauses in the grammar. -/
def ranks (select : Select) : List ℕ := select.clauses.map SelectClause.rank

/-- SELECT list FROM table [WHERE] [ORDER BY] [LIMIT] [OFFSET] [FOR UPDATE]. -/
structure Grammatical (dialect : Dialect) (select : Select) : Prop where
  listed : select.fields ≠ []
  ordered : select.ranks.Pairwise (· < ·)
  offset : dialect = .mysql → 4 ∈ select.ranks → 3 ∈ select.ranks
  unlocked : select.fields.any SelectField.isAggregate = true → 5 ∉ select.ranks

end Select

/-- The entity, the database and the session of a builder. -/
structure BuilderContext where
  metadata : EntityMetadata
  dialect : Dialect
  transactional : Bool
  observed : Bool
  snapshotFields : List String

/-- `QueryBuilder`. -/
structure QueryBuilder where
  filters : JsObject Data
  selected : List String
  aggregateSelections : List String
  order : List (String × Bool)
  limitValue : Option JsNumber
  offsetValue : Option JsNumber
  lockForUpdate : Bool

/-- The calls that are chained; a direction is `true` for a descending one. -/
inductive BuilderCall where
  | filter (filter : JsObject Data)
  | select (fields : List String)
  | withMax (field : String)
  | orderBy (field : String) (descending : Bool)
  | limit (limit : JsNumber)
  | offset (offset : JsNumber)
  | forUpdate

/-- The calls that send statements. -/
inductive TerminalCall where
  | find
  | findOne
  | has
  | findField (field : String)
  | findOneField (field : String)
  | count
  | patchMany (patch : Data)
  | patchOne (patch : Data)
  | deleteMany
  | deleteOne

namespace QueryBuilder

/-- A builder that has not been called. -/
def new : QueryBuilder := ⟨.empty, [], [], [], none, none, false⟩

variable (context : BuilderContext) (builder : QueryBuilder)

/-- What a call does to the builder. -/
def call : BuilderCall → Option QueryBuilder
  | .filter filter => some { builder with filters := JsObject.spread builder.filters filter }
  | .select fields => some { builder with selected := fields }
  | .withMax field =>
      some { builder with aggregateSelections := builder.aggregateSelections ++ [field] }
  | .orderBy field descending =>
      some { builder with order := builder.order ++ [(field, descending)] }
  | .limit limit => some { builder with limitValue := some limit }
  | .offset offset => some { builder with offsetValue := some offset }
  | .forUpdate =>
      if context.transactional then some { builder with lockForUpdate := true } else none

/-- `resolveColumnName`. -/
def resolveColumnName (field : String) : String :=
  ((resolveColumn context.metadata.columns field).map ColumnMetadata.columnName).getD field

/-- `renderWhere`. -/
def renderWhere : Option (Option SqlQuery) :=
  renderFilterRecord context.metadata.columns context.dialect
    (.object (JsObject.ownEntries builder.filters))

/-- The order clause, if there is an order. -/
def orderClauses : Option (List SelectClause) :=
  if builder.order = [] then some []
  else do
    let items ← builder.order.mapM fun item => do
      let name ← identifier [resolveColumnName context item.1]
      (sqlTag ["", " ", ""] [name, rawTrusted (if item.2 then "DESC" else "ASC")]).map
        SqlQuery.toValue
    let joined ← join items comma
    return [.orderBy joined]

/-- The limit of the builder; MySQL takes no offset without one. -/
def limitClauses : List SelectClause :=
  match builder.limitValue, builder.offsetValue with
  | some limit, _ => [.limit (.data (.number limit))]
  | none, some _ =>
      if context.dialect = .mysql then [.limit (rawTrusted "18446744073709551615")] else []
  | none, none => []

/-- The clause of `offset`. -/
def offsetClauses : List SelectClause :=
  (builder.offsetValue.map fun offset => .offset (.data (.number offset))).toList

/-- The order, the limit and the offset. -/
def pagingClauses : Option (List SelectClause) := do
  let order ← builder.orderClauses context
  return order ++ (builder.limitClauses context ++ builder.offsetClauses)

/-- `buildSelectSql`, which looks at the order only if there is to be one. -/
def buildSelectSql (fields : List SelectField) (includeOrderAndPaging : Bool) : Option Select := do
  let condition ← builder.renderWhere context
  let paging ← (if includeOrderAndPaging then builder.pagingClauses context else some [])
  return ⟨fields, context.metadata.tableName, (condition.map SelectClause.where).toList ++
    (paging ++ (if builder.lockForUpdate then [.forUpdate] else []))⟩

/-- `toSelectSql`. -/
def toSelectSql : Option Select :=
  let fields :=
    if builder.aggregateSelections ≠ [] then
      builder.aggregateSelections.map fun field => .max (resolveColumnName context field)
    else if builder.selected ≠ [] then
      builder.selected.map fun field => .column (resolveColumnName context field)
    else context.metadata.columns.map fun column => .column column.columnName
  builder.buildSelectSql context fields (builder.aggregateSelections = [])

/-- The aggregate that `findField` takes. -/
def aggregateOf (field : String) : Option String :=
  builder.aggregateSelections.find? fun item =>
    item = field ∨ resolveColumnName context item = resolveColumnName context field

/-- The statement for one field. -/
def fieldSql (field : String) : Option Select :=
  match builder.aggregateOf context field with
  | some _ => builder.buildSelectSql context [.max (resolveColumnName context field)] false
  | none => builder.buildSelectSql context [.column (resolveColumnName context field)] true

/-- `toCountSql`. -/
def toCountSql : Option Select := builder.buildSelectSql context [.count] false

/-- The keys, and the columns that interceptors ask for. -/
def targetColumns : Option (List ColumnMetadata) :=
  context.snapshotFields.foldlM (fun columns field => do
    let column ← resolveColumn context.metadata.columns field
    if column.propertyName ∈ columns.map ColumnMetadata.propertyName then return columns
    else return columns ++ [column]) context.metadata.primaryKeys

/-- `findMutationTargets`. -/
def targetSql : Option Select := do
  let columns ← targetColumns context
  let select ← builder.buildSelectSql context
    (columns.map fun column => .column column.columnName) true
  return if context.transactional then { select with clauses := select.clauses ++ [.forUpdate] }
    else select

/-- The statement is sent, if it can be rendered. -/
def send (select : Option Select) : Option (List Select) := do
  let found ← select
  let _ ← found.toSql
  return [found]

/-- The SET clause of a patch. -/
def patchSet (patch : Data) : Option (Option SqlQuery) :=
  if context.observed then observedPatchSet context.metadata context.dialect patch
  else renderPatchSet context.metadata.columns context.dialect patch

/-- `requirePrimaryKeyFilter` does not throw. -/
def hasPrimaryKeyFilter : Bool :=
  context.metadata.primaryKeys.all fun key =>
    match (builder.filters.get? key.propertyName).orElse fun _ =>
        builder.filters.get? key.columnName with
    | none => false
    | some (.object entries) => !entries.any fun entry => entry.1.startsWith "$"
    | some value => !value.isNullish

/-- The targets of a call that names its row are selected for interceptors only. -/
def sendOne : Option (List Select) :=
  if context.snapshotFields = [] then some [] else send (builder.targetSql context)

/-- `withTemporaryLimit`, which puts the limit back whatever happens. -/
def withTemporaryLimit (limit : JsNumber)
    (worker : QueryBuilder → QueryBuilder × Option (List Select)) :
    QueryBuilder × Option (List Select) :=
  let ran := worker { builder with limitValue := some limit }
  ({ ran.1 with limitValue := builder.limitValue }, ran.2)

/-- The builder after a terminal call, and the SELECT statements that were sent, unless the call
threw before. -/
def run : TerminalCall → QueryBuilder × Option (List Select)
  | .find => (builder, send (builder.toSelectSql context))
  | .findOne | .has =>
      builder.withTemporaryLimit (.finite 1) fun limited =>
        (limited, send (limited.toSelectSql context))
  | .findField field => (builder, send (builder.fieldSql context field))
  | .findOneField field =>
      builder.withTemporaryLimit (.finite 1) fun limited =>
        (limited, send (limited.fieldSql context field))
  | .count => (builder, send (builder.toCountSql context))
  | .patchMany patch => (builder, do
      match ← patchSet context patch with
      | none => return []
      | some _ => send (builder.targetSql context))
  | .patchOne patch => (builder,
      if context.observed ∧ !primaryKeyIsStable context.metadata patch then none
      else if !builder.hasPrimaryKeyFilter context then none
      else do
        match ← patchSet context patch with
        | none => return []
        | some _ => builder.sendOne context)
  | .deleteMany => (builder, send (builder.targetSql context))
  | .deleteOne => (builder,
      if !builder.hasPrimaryKeyFilter context then none else builder.sendOne context)

/-- A lock of the builder goes into a statement that takes one, or into none. -/
def LocksRows : TerminalCall → Prop
  | .find | .findOne | .has => builder.aggregateSelections = []
  | .findField field | .findOneField field => builder.aggregateOf context field = none
  | .count | .deleteMany => False
  | .patchMany patch => patchSet context patch = some none
  | .patchOne patch => patchSet context patch = some none ∨ context.snapshotFields = []
  | .deleteOne => context.snapshotFields = []

end QueryBuilder

section Grammar

variable {context : BuilderContext} {builder : QueryBuilder} {select : Select}
  {fields : List SelectField} {paging : Bool} {sent : List Select}

theorem rank_orderClauses {order : List SelectClause}
    (found : builder.orderClauses context = some order) :
    (order.map SelectClause.rank).Sublist [2] := by
  unfold QueryBuilder.orderClauses at found
  split_ifs at found
  · cases found
    simp
  · simp only [Option.bind_eq_bind, Option.bind_eq_some_iff] at found
    rcases found with ⟨_, _, joined, _, same⟩
    cases same
    exact List.Sublist.refl _

theorem rank_limitClauses :
    ((builder.limitClauses context).map SelectClause.rank).Sublist [3] := by
  unfold QueryBuilder.limitClauses
  split
  · exact List.Sublist.refl _
  · split_ifs
    · exact List.Sublist.refl _
    · simp
  · simp

theorem rank_offsetClauses : (builder.offsetClauses.map SelectClause.rank).Sublist [4] := by
  unfold QueryBuilder.offsetClauses
  cases builder.offsetValue with
  | none => simp
  | some offset => exact List.Sublist.refl _

theorem limited_of_offset (isMysql : context.dialect = .mysql)
    (offset : 4 ∈ builder.offsetClauses.map SelectClause.rank) :
    3 ∈ (builder.limitClauses context).map SelectClause.rank := by
  unfold QueryBuilder.offsetClauses at offset
  unfold QueryBuilder.limitClauses
  cases isOffset : builder.offsetValue with
  | none => simp [isOffset] at offset
  | some value => cases builder.limitValue <;> simp [isMysql, SelectClause.rank]

theorem pagingClauses_spec {clauses : List SelectClause}
    (found : builder.pagingClauses context = some clauses) :
    (clauses.map SelectClause.rank).Sublist [2, 3, 4] ∧
      (context.dialect = .mysql → 4 ∈ clauses.map SelectClause.rank →
        3 ∈ clauses.map SelectClause.rank) := by
  simp only [QueryBuilder.pagingClauses, Option.bind_eq_bind, Option.bind_eq_some_iff] at found
  rcases found with ⟨order, isOrder, same⟩
  cases same
  have ordered := rank_orderClauses isOrder
  have limited : ((builder.limitClauses context).map SelectClause.rank).Sublist [3] :=
    rank_limitClauses
  simp only [List.map_append, List.mem_append]
  refine ⟨ordered.append (limited.append rank_offsetClauses), ?_⟩
  intro isMysql offset
  rcases offset with inOrder | inLimit | inOffset
  · exact absurd (ordered.subset inOrder) (by decide)
  · exact absurd (limited.subset inLimit) (by decide)
  · exact Or.inr (Or.inl (limited_of_offset isMysql inOffset))

theorem buildSelectSql_spec
    (built : builder.buildSelectSql context fields paging = some select) :
    select.fields = fields ∧ ∃ before : List ℕ, before.Sublist [1, 2, 3, 4] ∧
      (context.dialect = .mysql → 4 ∈ before → 3 ∈ before) ∧
      select.ranks = before ++ if builder.lockForUpdate then [5] else [] := by
  simp only [QueryBuilder.buildSelectSql, Option.bind_eq_bind, Option.bind_eq_some_iff] at built
  rcases built with ⟨condition, _, clauses, paged, same⟩
  cases same
  have conditions :
      ((condition.map SelectClause.where).toList.map SelectClause.rank).Sublist [1] := by
    cases condition with
    | none => simp
    | some found => exact List.Sublist.refl _
  have rest : (clauses.map SelectClause.rank).Sublist [2, 3, 4] ∧
      (context.dialect = .mysql → 4 ∈ clauses.map SelectClause.rank →
        3 ∈ clauses.map SelectClause.rank) := by
    cases paging with
    | false =>
        cases paged
        simp
    | true => exact pagingClauses_spec paged
  refine ⟨rfl, (condition.map SelectClause.where).toList.map SelectClause.rank ++
    clauses.map SelectClause.rank, conditions.append rest.1, ?_, ?_⟩
  · intro isMysql offset
    rw [List.mem_append] at offset ⊢
    rcases offset with inCondition | inRest
    · exact absurd (conditions.subset inCondition) (by decide)
    · exact Or.inr (rest.2 isMysql inRest)
  · simp only [Select.ranks, List.map_append, List.append_assoc]
    cases builder.lockForUpdate <;> simp [SelectClause.rank]

theorem buildSelectSql_grammatical
    (built : builder.buildSelectSql context fields paging = some select) (listed : fields ≠ []) :
    select.Grammatical context.dialect ↔
      (builder.lockForUpdate = true → fields.any SelectField.isAggregate = false) := by
  rcases buildSelectSql_spec built with ⟨rfl, before, sublist, limited, ranks⟩
  constructor
  · intro grammatical locked
    by_contra aggregate
    apply grammatical.unlocked (by simpa using aggregate)
    simp [ranks, locked]
  · intro unlocked
    cases locked : builder.lockForUpdate with
    | false =>
        have same : select.ranks = before := by simp [ranks, locked]
        refine ⟨listed, ?_, by rwa [same], ?_⟩
        · rw [same]
          exact List.Pairwise.sublist sublist (by decide)
        · rw [same]
          intro _ mem
          exact absurd (sublist.subset mem) (by decide)
    | true =>
        have same : select.ranks = before ++ [5] := by simp [ranks, locked]
        refine ⟨listed, ?_, ?_, ?_⟩
        · rw [same]
          exact List.Pairwise.sublist (sublist.append (List.Sublist.refl [5])) (by decide)
        · simpa [same] using limited
        · intro aggregate
          rw [unlocked locked] at aggregate
          cases aggregate

theorem mem_send {select : Option Select} (completes : QueryBuilder.send select = some sent) :
    ∃ found, select = some found ∧ sent = [found] := by
  simp only [QueryBuilder.send, Option.bind_eq_bind, Option.bind_eq_some_iff] at completes
  rcases completes with ⟨found, isFound, _, _, same⟩
  cases same
  exact ⟨found, isFound, rfl⟩

theorem EntityMetadata.primaryKeys_nonempty (metadata : EntityMetadata) :
    metadata.primaryKeys ≠ [] := by
  have keyed := metadata.keyed
  unfold primaryKeysOf at keyed
  split_ifs at keyed with flagged
  · rw [← Option.some.inj keyed]
    exact flagged
  · rcases Option.map_eq_some_iff.mp keyed with ⟨column, _, same⟩
    simp [← same]

theorem targetColumns_nonempty {columns : List ColumnMetadata}
    (found : QueryBuilder.targetColumns context = some columns) : columns ≠ [] := by
  have step : ∀ (fields : List String) (columns : List ColumnMetadata)
      {selected : List ColumnMetadata}, columns ≠ [] →
      fields.foldlM (fun columns field => do
        let column ← resolveColumn context.metadata.columns field
        if column.propertyName ∈ columns.map ColumnMetadata.propertyName then return columns
        else return columns ++ [column]) columns = some selected → selected ≠ [] := by
    intro fields
    induction fields with
    | nil =>
        intro columns selected nonempty same
        cases same
        exact nonempty
    | cons field rest ih =>
        intro columns selected nonempty same
        simp only [List.foldlM_cons, Option.bind_eq_bind, Option.bind_eq_some_iff] at same
        rcases same with ⟨next, ⟨column, _, isNext⟩, same⟩
        apply ih next _ same
        split_ifs at isNext
        · cases isNext
          exact nonempty
        · cases isNext
          simp
  exact step _ _ context.metadata.primaryKeys_nonempty found

theorem targetSql_grammatical (transactional : context.transactional = true)
    (built : builder.targetSql context = some select) :
    select.Grammatical context.dialect ↔ builder.lockForUpdate = false := by
  simp only [QueryBuilder.targetSql, Option.bind_eq_bind, Option.bind_eq_some_iff, transactional,
    if_true] at built
  rcases built with ⟨columns, isColumns, first, isFirst, same⟩
  cases same
  rcases buildSelectSql_spec isFirst with ⟨listed, before, sublist, limited, ranks⟩
  have same : ({ first with clauses := first.clauses ++ [.forUpdate] } : Select).ranks =
      before ++ ((if builder.lockForUpdate then [5] else []) ++ [5]) := by
    rw [← List.append_assoc, ← ranks]
    simp [Select.ranks, SelectClause.rank]
  constructor
  · intro grammatical
    have ordered := grammatical.ordered
    rw [same] at ordered
    by_contra locked
    rw [if_pos (by simpa using locked)] at ordered
    exact absurd (List.pairwise_append.mp ordered).2.1 (by decide)
  · intro unlocked
    simp only [unlocked, Bool.false_eq_true, if_false, List.nil_append] at same
    apply Select.Grammatical.mk
    · change first.fields ≠ []
      rw [listed]
      simpa using targetColumns_nonempty isColumns
    · rw [same]
      exact List.Pairwise.sublist (sublist.append (List.Sublist.refl [5])) (by decide)
    · simpa [same] using limited
    · intro aggregate
      change first.fields.any SelectField.isAggregate = true at aggregate
      rw [listed] at aggregate
      simp [SelectField.isAggregate] at aggregate

theorem lockForUpdate_calls {calls : List BuilderCall} {start : QueryBuilder}
    (chained : calls.foldlM (QueryBuilder.call context) start = some builder) :
    builder.lockForUpdate = true ↔ start.lockForUpdate = true ∨ .forUpdate ∈ calls := by
  induction calls generalizing start with
  | nil =>
      cases chained
      simp
  | cons call rest ih =>
      simp only [List.foldlM_cons, Option.bind_eq_bind, Option.bind_eq_some_iff] at chained
      rcases chained with ⟨next, isNext, chained⟩
      rw [ih chained, List.mem_cons]
      cases call with
      | forUpdate =>
          simp only [QueryBuilder.call, Option.ite_none_right_eq_some, Option.some.injEq] at isNext
          simp [← isNext.2]
      | _ =>
          simp only [QueryBuilder.call, Option.some.injEq] at isNext
          simp [← isNext]

theorem limitValue_run (terminal : TerminalCall) :
    (builder.run context terminal).1.limitValue = builder.limitValue := by
  cases terminal <;> rfl

theorem toSelectSql_grammatical (built : builder.toSelectSql context = some select) :
    select.Grammatical context.dialect ↔
      (builder.lockForUpdate = true → builder.aggregateSelections = []) := by
  unfold QueryBuilder.toSelectSql at built
  rw [buildSelectSql_grammatical built]
  · split_ifs with aggregates selects
    · cases isAggregates : builder.aggregateSelections with
      | nil => exact absurd isAggregates aggregates
      | cons field rest => simp [SelectField.isAggregate]
    · simp [SelectField.isAggregate, not_not.mp aggregates]
    · simp [SelectField.isAggregate, not_not.mp aggregates]
  · split_ifs with aggregates selects
    · simpa using aggregates
    · simpa using selects
    · intro none
      apply context.metadata.primaryKeys_nonempty
      rw [List.map_eq_nil_iff] at none
      exact List.subset_nil.mp (none ▸ context.metadata.primaryKeys_subset)

theorem fieldSql_grammatical {field : String}
    (built : builder.fieldSql context field = some select) :
    select.Grammatical context.dialect ↔
      (builder.lockForUpdate = true → builder.aggregateOf context field = none) := by
  unfold QueryBuilder.fieldSql at built
  split at built
  case h_1 aggregate found =>
    rw [buildSelectSql_grammatical built (by simp), found]
    simp [SelectField.isAggregate]
  case h_2 found =>
    rw [buildSelectSql_grammatical built (by simp), found]
    simp [SelectField.isAggregate]

theorem toCountSql_grammatical (built : builder.toCountSql context = some select) :
    select.Grammatical context.dialect ↔ (builder.lockForUpdate = true → False) := by
  rw [buildSelectSql_grammatical built (by simp)]
  simp [SelectField.isAggregate]

theorem sendOne_grammatical (transactional : context.transactional = true)
    (completes : builder.sendOne context = some sent) :
    (∀ select ∈ sent, select.Grammatical context.dialect) ↔
      (builder.lockForUpdate = true → context.snapshotFields = []) := by
  unfold QueryBuilder.sendOne at completes
  split_ifs at completes with unobserved
  · cases completes
    simp [unobserved]
  · rcases mem_send completes with ⟨found, isFound, rfl⟩
    simp [targetSql_grammatical transactional isFound, unobserved]

theorem run_grammatical {terminal : TerminalCall} (transactional : context.transactional = true)
    (completes : (builder.run context terminal).2 = some sent) :
    (∀ select ∈ sent, select.Grammatical context.dialect) ↔
      (builder.lockForUpdate = true → builder.LocksRows context terminal) := by
  have selects (limited : QueryBuilder)
      (completes : QueryBuilder.send (limited.toSelectSql context) = some sent) :
      (∀ select ∈ sent, select.Grammatical context.dialect) ↔
        (limited.lockForUpdate = true → limited.aggregateSelections = []) := by
    rcases mem_send completes with ⟨found, isFound, rfl⟩
    simpa using toSelectSql_grammatical isFound
  have takesField (limited : QueryBuilder) {field : String}
      (completes : QueryBuilder.send (limited.fieldSql context field) = some sent) :
      (∀ select ∈ sent, select.Grammatical context.dialect) ↔
        (limited.lockForUpdate = true → limited.aggregateOf context field = none) := by
    rcases mem_send completes with ⟨found, isFound, rfl⟩
    simpa using fieldSql_grammatical isFound
  have targets (completes : QueryBuilder.send (builder.targetSql context) = some sent) :
      (∀ select ∈ sent, select.Grammatical context.dialect) ↔
        (builder.lockForUpdate = true → False) := by
    rcases mem_send completes with ⟨found, isFound, rfl⟩
    simpa using targetSql_grammatical transactional isFound
  cases terminal with
  | find => exact selects builder completes
  | findOne | has => exact selects { builder with limitValue := some (.finite 1) } completes
  | findField field => exact takesField builder completes
  | findOneField field =>
      exact takesField { builder with limitValue := some (.finite 1) } completes
  | count =>
      rcases mem_send completes with ⟨found, isFound, rfl⟩
      simpa [QueryBuilder.LocksRows] using toCountSql_grammatical isFound
  | patchMany patch =>
      simp only [QueryBuilder.run, Option.bind_eq_bind, Option.bind_eq_some_iff] at completes
      rcases completes with ⟨set, isSet, completes⟩
      cases set with
      | none =>
          cases completes
          simp [QueryBuilder.LocksRows, isSet]
      | some set =>
          rw [targets completes]
          simp [QueryBuilder.LocksRows, isSet]
  | patchOne patch =>
      simp only [QueryBuilder.run] at completes
      split_ifs at completes
      simp only [Option.bind_eq_bind, Option.bind_eq_some_iff] at completes
      rcases completes with ⟨set, isSet, completes⟩
      cases set with
      | none =>
          cases completes
          simp [QueryBuilder.LocksRows, isSet]
      | some set =>
          rw [sendOne_grammatical transactional completes]
          simp [QueryBuilder.LocksRows, isSet]
  | deleteMany => exact targets completes
  | deleteOne =>
      simp only [QueryBuilder.run] at completes
      split_ifs at completes
      exact sendOne_grammatical transactional completes

end Grammar

/-- The calls of a builder on a transactional session leave the limit as it was, and send a
statement out of shape when a lock meets an aggregate or the lock of a mutation. -/
theorem emitsGrammatical_iff {context : BuilderContext} {calls : List BuilderCall}
    {builder : QueryBuilder} (transactional : context.transactional = true)
    (chained : calls.foldlM (QueryBuilder.call context) QueryBuilder.new = some builder)
    (terminal : TerminalCall) :
    (builder.run context terminal).1.limitValue = builder.limitValue ∧
      ∀ sent, (builder.run context terminal).2 = some sent →
        ((∀ select ∈ sent, select.Grammatical context.dialect) ↔
          (.forUpdate ∈ calls → builder.LocksRows context terminal)) := by
  refine ⟨limitValue_run terminal, fun sent completes => ?_⟩
  rw [run_grammatical transactional completes, lockForUpdate_calls chained]
  simp [QueryBuilder.new]

section Visits

/-- The visitors in a transaction. -/
def visitorContext : BuilderContext := ⟨visitors, .mysql, true, false, []⟩

/-- The ten visitors with the most visits. -/
def topVisitors : List BuilderCall := [.orderBy "visits" true, .limit (.finite 10), .forUpdate]

/-- The ten most frequent visitors, locked. -/
def topVisitorsBuilder : QueryBuilder :=
  ⟨.empty, [], [], [("visits", true)], some (.finite 10), none, true⟩

theorem exists_sent (builder : QueryBuilder) (terminal : TerminalCall)
    (sends : (builder.run visitorContext terminal).2.isSome = true) :
    ∃ sent, (builder.run visitorContext terminal).2 = some sent :=
  Option.isSome_iff_exists.mp sends

theorem emitsGrammatical_topVisitors : ∃ sent,
    (topVisitorsBuilder.run visitorContext .findOne).2 = some sent ∧
      ∀ select ∈ sent, select.Grammatical visitorContext.dialect := by
  rcases exists_sent topVisitorsBuilder .findOne (by decide +kernel) with ⟨sent, completes⟩
  have chained : topVisitors.foldlM (QueryBuilder.call visitorContext) QueryBuilder.new =
      some topVisitorsBuilder := rfl
  refine ⟨sent, completes, ?_⟩
  exact ((emitsGrammatical_iff rfl chained .findOne).2 sent completes).mpr fun _ => rfl

/-- The targets of a deletion are locked twice. -/
theorem not_emitsGrammatical_deleteMany : ∃ builder sent,
    topVisitors.foldlM (QueryBuilder.call visitorContext) QueryBuilder.new = some builder ∧
      (builder.run visitorContext .deleteMany).2 = some sent ∧
      ¬ ∀ select ∈ sent, select.Grammatical visitorContext.dialect := by
  rcases exists_sent topVisitorsBuilder .deleteMany (by decide +kernel) with ⟨sent, completes⟩
  refine ⟨topVisitorsBuilder, sent, rfl, completes, ?_⟩
  rw [run_grammatical rfl completes]
  exact fun unlocked => unlocked rfl

end Visits

end ServerFoundation.Sql
