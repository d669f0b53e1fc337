import ServerFoundation.Data.PrefixCode
import ServerFoundation.Sql.Skeleton

/-!
# Composition of queries

Templates, joins and queries with bindings, nested in any way, over data that does not pass
for a fragment. A query renders as its parts do, one after the other.
-/

namespace ServerFoundation.Sql

/-- A value that is put together by `sql`, `sql.join` and `createSqlQuery`. -/
inductive Composed : SqlValue → Prop where
  | data {value : Data} (unforged : value.forged = false) : Composed (.data value)
  | identifier (names : List String) : Composed (.identifier names)
  | rawTrusted (text : String) : Composed (.rawTrusted text)
  | sqlTag (strings : List String) {values : List SqlValue} {query : SqlQuery}
      (parts : ∀ value ∈ values, Composed value) (made : sqlTag strings values = some query) :
      Composed query.toValue
  | join {values : List SqlValue} {separator query : SqlQuery}
      (parts : ∀ value ∈ values, Composed value) (between : Composed separator.toValue)
      (made : join values separator = some query) : Composed query.toValue
  | createSqlQuery (sqlIn : String) {bindings : List Data} {query : SqlQuery}
      (unforged : ∀ value ∈ bindings, value.forged = false)
      (made : createSqlQuery sqlIn (bindings.map .data) = some query) : Composed query.toValue

namespace SqlValue

/-- The values that a value brings into a template. -/
def parts : SqlValue → List SqlValue
  | query _ values => values
  | value => [value]

/-- A plain value that brings in no nested query. -/
def Flat (value : SqlValue) : Prop :=
  value.plain = true ∧ ∀ part ∈ value.parts, part.isSqlQuery = false

end SqlValue

/-- The rendering goes on with one part of a template. -/
def renderPart (dialect : Dialect) (rendered : RenderedSql) : SqlValue → Option RenderedSql
  | .query chunks values =>
      renderValues dialect ⟨rendered.sql ++ chunks.headD "", rendered.bindings⟩ chunks.tail values
  | value => renderValue dialect rendered value

/-- The rendering goes on with parts, each with the text after it. -/
def renderParts (dialect : Dialect) (rendered : RenderedSql) :
    List String → List SqlValue → Option RenderedSql
  | _, [] => some rendered
  | strings, part :: rest => do
      let written ← renderPart dialect rendered part
      renderParts dialect ⟨written.sql ++ strings.headD "", written.bindings⟩ strings.tail rest

section Values

variable {query : SqlQuery} {values : List SqlValue} {inserted separator : SqlQuery}

theorem isSqlQuery_of_plain {value : Data} (plain : (SqlValue.data value).plain = true) :
    (SqlValue.data value).isSqlQuery = false := by
  simp only [SqlValue.plain, Data.forged, Bool.not_or, Bool.and_eq_true, Bool.not_eq_true'] at plain
  exact plain.1.1

theorem spliceValues_values (query : SqlQuery) (chunks : List String) (values : List SqlValue) :
    (spliceValues query chunks values).values = query.values ++ values := by
  induction values generalizing query chunks with
  | nil => simp [spliceValues]
  | cons value rest ih => simp [spliceValues, ih]

theorem insertValue_values {value : SqlValue} {nextChunk : String} (plain : value.plain = true)
    (made : insertValue query value nextChunk = some inserted) :
    inserted.values = query.values ++ value.parts := by
  cases value with
  | query chunks values =>
      cases made
      exact spliceValues_values _ _ values
  | data found =>
      rw [insertValue, isSqlQuery_of_plain plain] at made
      cases made
      rfl
  | identifier names =>
      cases made
      rfl
  | rawTrusted text =>
      cases made
      rfl

theorem insertValues_values {strings : List String} (plain : ∀ value ∈ values, value.plain = true)
    (made : insertValues query strings values = some inserted) :
    inserted.values = query.values ++ values.flatMap SqlValue.parts := by
  induction values generalizing query strings with
  | nil =>
      cases made
      simp
  | cons value rest ih =>
      simp only [insertValues, Option.bind_eq_bind, Option.bind_eq_some_iff] at made
      rcases made with ⟨first, isFirst, made⟩
      rw [ih (fun other mem => plain other (List.mem_cons_of_mem value mem)) made,
        insertValue_values (plain value (by simp)) isFirst, List.flatMap_cons, List.append_assoc]

theorem sqlTag_values {strings : List String} (plain : ∀ value ∈ values, value.plain = true)
    (made : sqlTag strings values = some query) : query.values = values.flatMap SqlValue.parts := by
  simpa using insertValues_values plain made

theorem joinFrom_values {result : SqlQuery}
    (resultPlain : ∀ value ∈ result.values, value.plain = true)
    (separatorPlain : ∀ value ∈ separator.values, value.plain = true)
    (plain : ∀ value ∈ values, value.plain = true)
    (made : joinFrom separator result values = some query) :
    query.values = result.values ++ values.flatMap fun value =>
      separator.values ++ value.parts := by
  induction values generalizing result with
  | nil =>
      cases made
      simp
  | cons value rest ih =>
      simp only [joinFrom, Option.bind_eq_bind, Option.bind_eq_some_iff] at made
      rcases made with ⟨joined, isJoined, made⟩
      have inputs : ∀ found ∈ [result.toValue, separator.toValue, value], found.plain = true := by
        simp only [List.mem_cons, List.not_mem_nil, or_false, forall_eq_or_imp, forall_eq]
        exact ⟨result.plain_toValue.mpr resultPlain, separator.plain_toValue.mpr separatorPlain,
          plain value (by simp)⟩
      rcases sqlTag_writes ["", "", "", ""] inputs with ⟨other, isOther, writes⟩
      rw [isJoined] at isOther
      cases isOther
      rw [ih writes.plain (fun other mem => plain other (List.mem_cons_of_mem value mem)) made,
        sqlTag_values inputs isJoined]
      simp [SqlValue.parts, SqlQuery.toValue]

theorem joinPieces_eq_intercalate (separator : List Piece) (pieces : List (List Piece)) :
    joinPieces separator pieces = separator.intercalate pieces := by
  cases pieces with
  | nil => rfl
  | cons first rest => rw [intercalate_cons_flatMap, joinPieces]

theorem join_values (separatorPlain : ∀ value ∈ separator.values, value.plain = true)
    (plain : ∀ value ∈ values, value.plain = true) (made : join values separator = some query) :
    query.values = separator.values.intercalate (values.map SqlValue.parts) := by
  cases values with
  | nil =>
      cases made
      rfl
  | cons value rest =>
      simp only [join, Option.bind_eq_bind, Option.bind_eq_some_iff] at made
      rcases made with ⟨first, isFirst, made⟩
      have input : ∀ found ∈ [value], found.plain = true := by simp [plain value]
      rcases sqlTag_writes ["", ""] input with ⟨other, isOther, writes⟩
      rw [isFirst] at isOther
      cases isOther
      rw [joinFrom_values writes.plain separatorPlain
        (fun other mem => plain other (List.mem_cons_of_mem value mem)) made,
        sqlTag_values input isFirst]
      simp [intercalate_cons_flatMap, List.flatMap_map]

end Values

section Flatness

variable {query separator : SqlQuery} {values : List SqlValue}

theorem SqlQuery.flat_toValue (query : SqlQuery) : query.toValue.Flat ↔
    (∀ value ∈ query.values, value.plain = true) ∧
      ∀ value ∈ query.values, value.isSqlQuery = false := by
  rw [SqlValue.Flat, query.plain_toValue]
  rfl

theorem SqlQuery.flat_of_subset {pieces : List Piece} (writes : query.Writes pieces)
    (parts : ∀ value ∈ query.values, value.isSqlQuery = false) : query.toValue.Flat :=
  query.flat_toValue.mpr ⟨writes.plain, parts⟩

theorem sqlTag_spec (strings : List String) (flat : ∀ value ∈ values, value.Flat) :
    ∃ query, sqlTag strings values = some query ∧
      query.Writes (weave SqlValue.spliced strings values) ∧
      query.values = values.flatMap SqlValue.parts ∧ query.toValue.Flat := by
  have plain : ∀ value ∈ values, value.plain = true := fun value mem => (flat value mem).1
  rcases sqlTag_writes strings plain with ⟨query, made, writes⟩
  have isFlatMap := sqlTag_values plain made
  refine ⟨query, made, writes, isFlatMap, SqlQuery.flat_of_subset writes fun part mem => ?_⟩
  rw [isFlatMap] at mem
  rcases List.mem_flatMap.mp mem with ⟨value, isValue, mem⟩
  exact (flat value isValue).2 part mem

theorem join_spec (between : separator.toValue.Flat) (flat : ∀ value ∈ values, value.Flat) :
    ∃ query, join values separator = some query ∧
      query.Writes (separator.pieces.intercalate (values.map SqlValue.spliced)) ∧
      query.values = separator.values.intercalate (values.map SqlValue.parts) ∧
      query.toValue.Flat := by
  have plain : ∀ value ∈ values, value.plain = true := fun value mem => (flat value mem).1
  have separatorFlat := separator.flat_toValue.mp between
  rcases join_writes separatorFlat.1 plain with ⟨query, made, writes⟩
  rw [joinPieces_eq_intercalate] at writes
  have joined := join_values separatorFlat.1 plain made
  refine ⟨query, made, writes, joined, SqlQuery.flat_of_subset writes fun part mem => ?_⟩
  rw [joined] at mem
  cases values with
  | nil => cases mem
  | cons first rest =>
      simp only [List.map_cons, intercalate_cons_flatMap, List.mem_append, List.mem_flatMap,
        List.mem_map] at mem
      rcases mem with inFirst | ⟨_, ⟨value, isValue, rfl⟩, inSeparator | inValue⟩
      · exact (flat first (by simp)).2 part inFirst
      · exact separatorFlat.2 part inSeparator
      · exact (flat value (List.mem_cons_of_mem first isValue)).2 part inValue

theorem createSqlQuery_spec {sqlIn : String} {bindings : List Data}
    (unforged : ∀ value ∈ bindings, value.forged = false)
    (made : createSqlQuery sqlIn (bindings.map .data) = some query) :
    query.Writes (weave SqlValue.pieces ((sqlIn.toList.splitOn '?').map String.ofList)
        (bindings.map .data)) ∧ query.values = bindings.map .data ∧ query.toValue.Flat := by
  have plain : ∀ value ∈ bindings.map SqlValue.data, value.plain = true := by
    intro value mem
    rcases List.mem_map.mp mem with ⟨found, isBinding, rfl⟩
    simp [SqlValue.plain, unforged found isBinding]
  have writes := createSqlQuery_writes made plain
  have same : query.values = bindings.map .data := by
    simp only [createSqlQuery] at made
    split_ifs at made
    cases made
    rfl
  refine ⟨writes, same, SqlQuery.flat_of_subset writes fun part mem => ?_⟩
  rw [same] at mem
  rcases List.mem_map.mp mem with ⟨found, _, rfl⟩
  exact isSqlQuery_of_plain (plain _ mem)

theorem Composed.flat {value : SqlValue} (composed : Composed value) : value.Flat ∧
    ∀ chunks values, value = .query chunks values → chunks.length = values.length + 1 := by
  have ofQuery : ∀ {query : SqlQuery} {pieces : List Piece}, query.Writes pieces →
      query.toValue.Flat → query.toValue.Flat ∧ ∀ chunks values,
        query.toValue = .query chunks values → chunks.length = values.length + 1 := by
    intro query pieces writes flat
    refine ⟨flat, fun chunks values same => ?_⟩
    cases same
    exact writes.balanced
  induction composed with
  | @data value unforged =>
      have plain : (SqlValue.data value).plain = true := by simp [SqlValue.plain, unforged]
      refine ⟨⟨plain, fun part mem => ?_⟩, ?_⟩
      · rw [List.mem_singleton.mp mem]
        exact isSqlQuery_of_plain plain
      · intro chunks values impossible
        cases impossible
  | identifier names =>
      refine ⟨⟨rfl, by simp [SqlValue.parts, SqlValue.isSqlQuery]⟩, ?_⟩
      intro chunks values impossible
      cases impossible
  | rawTrusted text =>
      refine ⟨⟨rfl, by simp [SqlValue.parts, SqlValue.isSqlQuery]⟩, ?_⟩
      intro chunks values impossible
      cases impossible
  | sqlTag strings parts made ih =>
      rcases sqlTag_spec strings fun value mem => (ih value mem).1 with
        ⟨query, madeToo, writes, _, flat⟩
      cases made.symm.trans madeToo
      exact ofQuery writes flat
  | join parts between made ih ihBetween =>
      rcases join_spec ihBetween.1 fun value mem => (ih value mem).1 with
        ⟨query, madeToo, writes, _, flat⟩
      cases made.symm.trans madeToo
      exact ofQuery writes flat
  | createSqlQuery sqlIn unforged made =>
      rcases createSqlQuery_spec unforged made with ⟨writes, _, flat⟩
      exact ofQuery writes flat

end Flatness

section Rendering

variable {query separator : SqlQuery} {values : List SqlValue}

theorem count_textPieces (text : String) : (textPieces text).count .slot = 0 := by
  rw [List.count_eq_zero, textPieces]
  simp

theorem count_interleave (chunks : List String) (values : List SqlValue) :
    (interleave SqlValue.pieces chunks values).count .slot =
      (values.filter SqlValue.isBound).length := by
  induction values generalizing chunks with
  | nil => rfl
  | cons value rest ih =>
      rw [interleave, List.count_append, List.count_append, count_textPieces, ih]
      cases value with
      | data found =>
          rw [List.filter_cons_of_pos rfl]
          simp [SqlValue.pieces, Nat.add_comm]
      | query inner values =>
          rw [List.filter_cons_of_pos rfl]
          simp [SqlValue.pieces, Nat.add_comm]
      | identifier names => simp [SqlValue.pieces, SqlValue.isBound]
      | rawTrusted text => simp [SqlValue.pieces, SqlValue.isBound, count_textPieces]

theorem renderPart_spec (dialect : Dialect) (rendered : RenderedSql) {value : SqlValue}
    (flat : value.Flat) (last : List Piece) :
    ∃ written, renderPart dialect rendered value = some written ∧
      written.bindings = rendered.bindings ++
        (value.parts.filter SqlValue.isBound).map normalizeSqlBindingValue ∧
      rendered.sql.toList ++ renderPieces dialect rendered.bindings.length (value.spliced ++ last) =
        written.sql.toList ++ renderPieces dialect written.bindings.length last := by
  cases value with
  | query chunks values =>
      have plain : ∀ value ∈ values, value.plain = true := by
        simpa [SqlValue.plain] using flat.1
      rcases renderValues_of_plain dialect ⟨rendered.sql ++ chunks.headD "", rendered.bindings⟩
        chunks.tail plain last with ⟨written, isWritten, bindings, text⟩
      refine ⟨written, isWritten, bindings, ?_⟩
      rw [← text, SqlValue.spliced, weave, List.append_assoc, renderPieces_text]
      simp only [String.toList_append, List.append_assoc]
  | data found => exact renderValue_of_plain dialect rendered flat.1 last
  | identifier names => exact renderValue_of_plain dialect rendered flat.1 last
  | rawTrusted text => exact renderValue_of_plain dialect rendered flat.1 last

theorem renderParts_spec (dialect : Dialect) (rendered : RenderedSql) (strings : List String)
    (flat : ∀ value ∈ values, value.Flat) :
    renderParts dialect rendered strings values =
      some ⟨String.ofList (rendered.sql.toList ++ renderPieces dialect rendered.bindings.length
          (interleave SqlValue.spliced strings values)),
        rendered.bindings ++
          ((values.flatMap SqlValue.parts).filter SqlValue.isBound).map
              normalizeSqlBindingValue⟩ := by
  induction values generalizing rendered strings with
  | nil => simp [renderParts, interleave, renderPieces]
  | cons value rest ih =>
      rcases renderPart_spec dialect rendered (flat value (by simp))
        (textPieces (strings.headD "") ++ interleave SqlValue.spliced strings.tail rest) with
        ⟨first, isFirst, bindings, text⟩
      simp only [renderParts, isFirst, Option.bind_eq_bind, Option.bind_some]
      rw [ih _ _ fun other mem => flat other (List.mem_cons_of_mem value mem)]
      simp only [interleave, text, bindings, renderPieces_text, String.toList_append,
        List.append_assoc, List.flatMap_cons, List.filter_append, List.map_append]

theorem renderSql_eq_renderParts {strings : List String} (dialect : Dialect)
    (flat : ∀ value ∈ values, value.Flat)
    (writes : query.Writes (weave SqlValue.spliced strings values))
    (same : query.values = values.flatMap SqlValue.parts) :
    renderSql (.query query) dialect =
      renderParts dialect ⟨strings.headD "", []⟩ strings.tail values := by
  rw [renderParts_spec dialect _ _ flat, renderSql_of_plain writes.plain, writes.written, same,
    weave, renderPieces_text]
  rfl

theorem interleave_nil (values : List SqlValue) :
    interleave SqlValue.spliced [] values = values.flatMap SqlValue.spliced := by
  induction values with
  | nil => rfl
  | cons value rest ih =>
      rw [interleave, List.flatMap_cons]
      exact congrArg (value.spliced ++ ·) ih

theorem sqlTag_toValue (flat : query.toValue.Flat) (dialect : Dialect) :
    ∃ nested, sqlTag ["", ""] [query.toValue] = some nested ∧
      renderSql (.query nested) dialect = renderSql (.query query) dialect := by
  have parts : ∀ value ∈ [query.toValue], value.Flat := by simpa using flat
  rcases sqlTag_spec ["", ""] parts with ⟨nested, made, writes, same, _⟩
  refine ⟨nested, made, ?_⟩
  rw [renderSql_of_plain writes.plain, renderSql_of_plain (query.flat_toValue.mp flat).1,
    writes.written, same]
  simp [SqlQuery.spliced_toValue]
  rfl

theorem mem_of_mem_intersperse {Item : Type} {separator item : Item} {items : List Item}
    (mem : item ∈ items.intersperse separator) : item ∈ items ∨ item = separator := by
  induction items with
  | nil => cases mem
  | cons first rest ih =>
      cases rest with
      | nil => exact Or.inl mem
      | cons next others =>
          rw [List.intersperse_cons_cons] at mem
          rcases List.mem_cons.mp mem with rfl | mem
          · exact Or.inl (by simp)
          · rcases List.mem_cons.mp mem with rfl | mem
            · exact Or.inr rfl
            · rcases ih mem with inRest | same
              · exact Or.inl (List.mem_cons_of_mem first inRest)
              · exact Or.inr same

theorem flatMap_intersperse {First Second : Type} (write : First → List Second) (separator : First)
    (items : List First) : (items.intersperse separator).flatMap write =
      (write separator).intercalate (items.map write) := by
  induction items with
  | nil => rfl
  | cons first rest ih =>
      cases rest with
      | nil => simp
      | cons next others =>
          rw [List.intersperse_cons_cons, List.flatMap_cons, List.flatMap_cons, ih]
          simp only [List.map_cons, List.intercalate_cons_cons, List.append_assoc]

theorem insertValues_data (query : SqlQuery) {strings : List String} {bindings : List Data}
    (unforged : ∀ value ∈ bindings, value.forged = false)
    (counted : strings.length = bindings.length) :
    insertValues query strings (bindings.map .data) =
      some ⟨query.chunks ++ strings, query.values ++ bindings.map .data⟩ := by
  induction bindings generalizing query strings with
  | nil =>
      rw [List.length_eq_zero_iff.mp counted]
      simp [insertValues]
  | cons value rest ih =>
      rcases strings with _ | ⟨first, strings⟩
      · cases counted
      · have plain : (SqlValue.data value).plain = true := by
          simp [SqlValue.plain, unforged value]
        simp only [List.map_cons, insertValues, insertValue, isSqlQuery_of_plain plain,
          Bool.false_eq_true, if_false, Option.bind_eq_bind, Option.bind_some, List.headD_cons,
          List.tail_cons]
        rw [ih _ (fun other mem => unforged other (List.mem_cons_of_mem value mem))
          (by simpa using counted)]
        simp

theorem intercalate_append {Item : Type} (separator : List Item) {left right : List (List Item)}
    (leftNonempty : left ≠ []) (rightNonempty : right ≠ []) :
    separator.intercalate (left ++ right) =
      separator.intercalate left ++ (separator ++ separator.intercalate right) := by
  rcases List.exists_cons_of_ne_nil leftNonempty with ⟨first, others, rfl⟩
  rcases List.exists_cons_of_ne_nil rightNonempty with ⟨next, rest, rfl⟩
  simp [intercalate_cons_flatMap]

theorem renderSql_congr {other : SqlQuery} {pieces : List Piece} (writes : query.Writes pieces)
    (otherWrites : other.Writes pieces) (same : query.values = other.values) (dialect : Dialect) :
    renderSql (.query query) dialect = renderSql (.query other) dialect := by
  rw [renderSql_of_plain writes.plain, renderSql_of_plain otherWrites.plain, writes.written,
    otherWrites.written, same]

end Rendering

section Grouping

/-- Values that are joined, some of them in joins of their own. -/
inductive Grouping where
  | item (value : SqlValue)
  | group (members : List Grouping)

mutual

/-- The values that are joined in the end. -/
def Grouping.leaves : Grouping → List SqlValue
  | .item value => [value]
  | .group members => allLeaves members

/-- The values of several groups. -/
def allLeaves : List Grouping → List SqlValue
  | [] => []
  | member :: rest => member.leaves ++ allLeaves rest

end

mutual

/-- No group is empty. -/
def Grouping.Filled : Grouping → Prop
  | .item _ => True
  | .group members => members ≠ [] ∧ AllFilled members

/-- Every one of several groups is filled. -/
def AllFilled : List Grouping → Prop
  | [] => True
  | member :: rest => member.Filled ∧ AllFilled rest

end

variable (separator : SqlQuery)

mutual

/-- Every group is joined. -/
def Grouping.join : Grouping → Option SqlValue
  | .item value => some value
  | .group members => do
      let values ← joinAll members
      (Sql.join values separator).map SqlQuery.toValue

/-- The values of the parts, one behind the other. -/
def joinAll : List Grouping → Option (List SqlValue)
  | [] => some []
  | member :: rest => do
      let value ← member.join
      let others ← joinAll rest
      return value :: others

end

variable {separator}

/-- What groups write and bind is what their leaves do, with the separator in between. -/
structure Gathers (separator : SqlQuery) (values leaves : List SqlValue) : Prop where
  flat : ∀ value ∈ values, value.Flat
  pieces : separator.pieces.intercalate (values.map SqlValue.spliced) =
    separator.pieces.intercalate (leaves.map SqlValue.spliced)
  parts : separator.values.intercalate (values.map SqlValue.parts) =
    separator.values.intercalate (leaves.map SqlValue.parts)

theorem Gathers.cons {value : SqlValue} {values first rest : List SqlValue}
    (one : Gathers separator [value] first) (others : Gathers separator values rest)
    (nonempty : first ≠ []) (both : values = [] ↔ rest = []) :
    Gathers separator (value :: values) (first ++ rest) := by
  by_cases empty : values = []
  · rw [empty, both.mp empty, List.append_nil]
    exact one
  · have left : [value].map SqlValue.spliced ≠ [] := by simp
    refine ⟨?_, ?_, ?_⟩
    · intro found mem
      rcases List.mem_cons.mp mem with rfl | mem
      · exact one.flat found (by simp)
      · exact others.flat found mem
    · rw [← List.singleton_append, List.map_append, List.map_append,
        intercalate_append _ (by simp) (by simpa using empty),
        intercalate_append _ (by simpa using nonempty) (by simpa using mt both.mpr empty),
        one.pieces, others.pieces]
    · rw [← List.singleton_append, List.map_append, List.map_append,
        intercalate_append _ (by simp) (by simpa using empty),
        intercalate_append _ (by simpa using nonempty) (by simpa using mt both.mpr empty),
        one.parts, others.parts]

mutual

theorem Grouping.gathers (between : separator.toValue.Flat) : ∀ grouping : Grouping,
    grouping.Filled → (∀ value ∈ grouping.leaves, value.Flat) →
      grouping.leaves ≠ [] ∧ ∃ value, grouping.join separator = some value ∧
        Gathers separator [value] grouping.leaves
  | .item value, _, flat =>
      ⟨by simp [Grouping.leaves], value, rfl, flat, rfl, rfl⟩
  | .group members, filled, flat => by
      rcases gathersAll between members filled.2 flat with ⟨values, isAll, _, leaves, gathers⟩
      have nonempty : allLeaves members ≠ [] := fun empty => filled.1 (leaves.mp empty)
      rcases join_spec between gathers.flat with ⟨query, made, writes, parts, queryFlat⟩
      refine ⟨nonempty, query.toValue, by simp [Grouping.join, isAll, made],
        by simpa using queryFlat, ?_, ?_⟩
      · simpa [SqlQuery.spliced_toValue, writes.written, Grouping.leaves] using gathers.pieces
      · simpa [SqlValue.parts, SqlQuery.toValue, parts, Grouping.leaves] using gathers.parts

theorem gathersAll (between : separator.toValue.Flat) : ∀ members : List Grouping,
    AllFilled members → (∀ value ∈ allLeaves members, value.Flat) →
      ∃ values, joinAll separator members = some values ∧
        (values = [] ↔ members = []) ∧ (allLeaves members = [] ↔ members = []) ∧
          Gathers separator values (allLeaves members)
  | [], _, _ => ⟨[], rfl, by simp, by simp [allLeaves], by simp, rfl, rfl⟩
  | member :: rest, filled, flat => by
      rcases Grouping.gathers between member filled.1 fun value mem =>
        flat value (List.mem_append_left _ mem) with ⟨nonempty, value, isValue, one⟩
      rcases gathersAll between rest filled.2 fun value mem =>
        flat value (List.mem_append_right _ mem) with ⟨values, isAll, empty, leaves, others⟩
      refine ⟨value :: values, by simp [joinAll, isValue, isAll], by simp, ?_,
        one.cons others nonempty (empty.trans leaves.symm)⟩
      simp [allLeaves, nonempty]

end

end Grouping

section Quoting

/-- The quote character of a dialect. -/
def quoteOf : Dialect → Char
  | .postgres => '"'
  | .mysql => Char.ofNat 96

/-- The name that a quoted identifier stands for, read from after its first quote, and what follows
the identifier. -/
def readQuoted (quote : Char) : List Char → Option (List Char × List Char)
  | [] => none
  | [char] => if char = quote then some ([], []) else none
  | char :: next :: rest =>
      if char = quote then
        if next = quote then (readQuoted quote rest).map fun read => (quote :: read.1, read.2)
        else some ([], next :: rest)
      else (readQuoted quote (next :: rest)).map fun read => (char :: read.1, read.2)

theorem readQuoted_doubled (quote : Char) (name rest : List Char) (ends : rest.head? ≠ some quote) :
    readQuoted quote ((name.flatMap fun char => if char = quote then [quote, quote] else [char]) ++
      quote :: rest) = some (name, rest) := by
  induction name with
  | nil =>
      cases rest with
      | nil => simp [readQuoted]
      | cons next others =>
          have differs : next ≠ quote := by simpa using ends
          simp [readQuoted, differs]
  | cons char name ih =>
      rw [List.flatMap_cons, List.append_assoc]
      split_ifs with isQuote
      · simp [readQuoted, ih, isQuote]
      · rcases exists_cons : (name.flatMap fun char =>
          if char = quote then [quote, quote] else [char]) ++ quote :: rest with _ | ⟨next, others⟩
        · simp at exists_cons
        · rw [exists_cons] at ih
          rw [List.singleton_append, readQuoted, if_neg isQuote, ih]
          rfl

theorem quoteIdentifier_reads (name : String) (dialect : Dialect) (rest : List Char)
    (ends : rest.head? ≠ some (quoteOf dialect)) :
    ∃ inner, (quoteIdentifier name dialect).toList ++ rest = quoteOf dialect :: inner ∧
      readQuoted (quoteOf dialect) inner = some (name.toList, rest) := by
  refine ⟨_, ?_, readQuoted_doubled (quoteOf dialect) name.toList rest ends⟩
  cases dialect with
  | postgres =>
      simp only [quoteIdentifier, quoteOf, doubleQuotes, String.toList_append, String.toList_ofList,
        List.append_assoc]
      rfl
  | mysql =>
      simp only [quoteIdentifier, quoteOf, doubleQuotes, String.toList_append, String.toList_ofList,
        List.append_assoc, String.toList_singleton]
      rfl

end Quoting

/-- What a composed query consists of, how it renders, and how nesting, grouping and quoting can be
undone. -/
theorem composition (dialect : Dialect) :
    (∀ query : SqlQuery, Composed query.toValue →
      query.chunks.length = query.values.length + 1 ∧
      (∀ value ∈ query.values, value.isSqlQuery = false) ∧
      ∃ rendered, renderSql (.query query) dialect = some rendered ∧
        rendered.sql.toList = renderPieces dialect 0 query.pieces ∧
        rendered.bindings = (query.values.filter SqlValue.isBound).map normalizeSqlBindingValue ∧
        query.pieces.count .slot = rendered.bindings.length ∧
        ∃ nested, sqlTag ["", ""] [query.toValue] = some nested ∧
          renderSql (.query nested) dialect = some rendered) ∧
    (∀ strings values, (∀ value ∈ values, Composed value) →
      ∃ query, sqlTag strings values = some query ∧ renderSql (.query query) dialect =
        renderParts dialect ⟨strings.headD "", []⟩ strings.tail values) ∧
    (∀ values separator, (∀ value ∈ values, Composed value) → Composed separator.toValue →
      ∃ query, join values separator = some query ∧ renderSql (.query query) dialect =
        renderParts dialect ⟨"", []⟩ [] (values.intersperse separator.toValue)) ∧
    (∀ sqlIn (bindings : List Data) query, (∀ value ∈ bindings, value.forged = false) →
      createSqlQuery sqlIn (bindings.map .data) = some query →
      sqlTag ((sqlIn.toList.splitOn '?').map String.ofList) (bindings.map .data) = some query) ∧
    (∀ members separator, members ≠ [] → AllFilled members →
      (∀ value ∈ allLeaves members, Composed value) → Composed separator.toValue →
      ∃ values grouped whole, joinAll separator members = some values ∧
        join values separator = some grouped ∧ join (allLeaves members) separator = some whole ∧
        renderSql (.query grouped) dialect = renderSql (.query whole) dialect) ∧
    (∀ name rest, rest.head? ≠ some (quoteOf dialect) →
      ∃ inner, (quoteIdentifier name dialect).toList ++ rest = quoteOf dialect :: inner ∧
        readQuoted (quoteOf dialect) inner = some (name.toList, rest)) := by
  refine ⟨?_, ?_, ?_, ?_, ?_, fun name rest ends => quoteIdentifier_reads name dialect rest ends⟩
  · intro query composed
    have flat := query.flat_toValue.mp composed.flat.1
    refine ⟨composed.flat.2 _ _ rfl, flat.2, _, renderSql_of_plain flat.1 dialect, ?_, rfl, ?_, ?_⟩
    · simp
    · rw [SqlQuery.pieces, weave, List.count_append, count_textPieces, count_interleave]
      simp
    · rcases sqlTag_toValue composed.flat.1 dialect with ⟨nested, made, same⟩
      exact ⟨nested, made, same.trans (renderSql_of_plain flat.1 dialect)⟩
  · intro strings values composed
    have flat : ∀ value ∈ values, value.Flat := fun value mem => (composed value mem).flat.1
    rcases sqlTag_spec strings flat with ⟨query, made, writes, same, _⟩
    exact ⟨query, made, renderSql_eq_renderParts dialect flat writes same⟩
  · intro values separator composed between
    have flat : ∀ value ∈ values, value.Flat := fun value mem => (composed value mem).flat.1
    rcases join_spec between.flat.1 flat with ⟨query, made, writes, same, _⟩
    have flatToo : ∀ value ∈ values.intersperse separator.toValue, value.Flat := by
      intro value mem
      rcases mem_of_mem_intersperse mem with isValue | rfl
      · exact flat value isValue
      · exact between.flat.1
    refine ⟨query, made, ?_⟩
    rw [renderParts_spec dialect _ _ flatToo, renderSql_of_plain writes.plain, writes.written, same,
      interleave_nil, flatMap_intersperse, flatMap_intersperse]
    rfl
  · intro sqlIn bindings query unforged made
    simp only [createSqlQuery] at made
    split_ifs at made with counted
    cases made
    rcases exists_parts : (sqlIn.toList.splitOn '?').map String.ofList with _ | ⟨first, rest⟩
    · simp [List.splitOn_ne_nil] at exists_parts
    · rw [exists_parts] at counted
      exact insertValues_data ⟨[first], []⟩ unforged (by simpa using counted)
  · intro members separator nonempty filled composed between
    have flat : ∀ value ∈ allLeaves members, value.Flat := fun value mem =>
      (composed value mem).flat.1
    rcases gathersAll between.flat.1 members filled flat with ⟨values, isAll, _, _, gathers⟩
    rcases join_spec between.flat.1 gathers.flat with ⟨grouped, isGrouped, writes, same, _⟩
    rcases join_spec between.flat.1 flat with ⟨whole, isWhole, wholeWrites, wholeSame, _⟩
    refine ⟨values, grouped, whole, isAll, isGrouped, isWhole, ?_⟩
    rw [gathers.pieces] at writes
    exact renderSql_congr writes wholeWrites (same.trans (gathers.parts.trans wholeSame.symm))
      dialect

/-- A name, and a group of a trusted text and a string. -/
def groupedItems : List Grouping :=
  [.item (.identifier ["id"]), .group [.item (.rawTrusted "now()"), .item (.data (.string "Ada"))]]

/-- Joined with and without the group they render alike, with a placeholder for each binding. -/
theorem composition_groupedItems :
    ∃ values grouped whole rendered, joinAll comma groupedItems = some values ∧
      join values comma = some grouped ∧ join (allLeaves groupedItems) comma = some whole ∧
      renderSql (.query grouped) .postgres = some rendered ∧
      renderSql (.query whole) .postgres = some rendered ∧
      whole.pieces.count .slot = rendered.bindings.length := by
  have none : ∀ value ∈ ([] : List SqlValue), Composed value := List.forall_mem_nil _
  have between : Composed comma.toValue := .sqlTag [", "] none rfl
  have leaves : ∀ value ∈ allLeaves groupedItems, Composed value := by
    simp only [groupedItems, allLeaves, Grouping.leaves, List.cons_append, List.nil_append,
      List.forall_mem_cons, List.not_mem_nil, false_implies, implies_true, and_true]
    exact ⟨.identifier _, .rawTrusted _, .data rfl⟩
  have filled : AllFilled groupedItems := by simp [groupedItems, AllFilled, Grouping.Filled]
  rcases (composition .postgres).2.2.2.2.1 groupedItems comma (by simp [groupedItems]) filled leaves
    between with ⟨values, grouped, whole, isAll, isGrouped, isWhole, same⟩
  rcases (composition .postgres).1 whole (.join leaves between isWhole) with
    ⟨-, -, rendered, renders, -, -, counted, -⟩
  exact ⟨values, grouped, whole, rendered, isAll, isGrouped, isWhole, same.trans renders, renders,
    counted⟩

/-- A query may stay among the bindings of `createSqlQuery`, and an empty join within a join leaves
a separator behind. -/
theorem composition_fails : (∃ nested : SqlQuery, sqlTag ["x"] [] = some nested ∧
      ∃ query, createSqlQuery "?" [nested.toValue] = some query ∧
        ∃ value ∈ query.values, value.isSqlQuery = true) ∧
    ∃ empty grouped whole : SqlQuery, join [] comma = some empty ∧
      join [.rawTrusted "a", empty.toValue] comma = some grouped ∧
      join [.rawTrusted "a"] comma = some whole ∧
      (renderSql (.query grouped) .mysql).map RenderedSql.sql ≠
        (renderSql (.query whole) .mysql).map RenderedSql.sql := by
  refine ⟨⟨_, rfl, _, rfl, _, List.mem_singleton_self _, rfl⟩, _, _, _, rfl, rfl, rfl, ?_⟩
  decide +kernel

end ServerFoundation.Sql
