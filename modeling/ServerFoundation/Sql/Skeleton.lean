import ServerFoundation.Sql.Query

/-!
# The skeleton of a query

What a query writes, with a slot in the place of every value it binds. As long as
no object among the data passes for a fragment, splicing, joining and rendering
are operations on skeletons: the text of a query is that of its skeleton, and its
bindings are the values in the slots.
-/

namespace ServerFoundation.Sql

/-- A piece of a statement. -/
inductive Piece where
  | char (value : Char)
  | identifier (names : List String)
  | slot
deriving DecidableEq

/-- The pieces of a static text. -/
def textPieces (text : String) : List Piece := text.toList.map .char

@[simp]
theorem textPieces_empty : textPieces "" = [] := rfl

@[simp]
theorem textPieces_append (left right : String) :
    textPieces (left ++ right) = textPieces left ++ textPieces right := by
  simp [textPieces]

namespace SqlValue

/-- What a value of a query writes. -/
def pieces : SqlValue → List Piece
  | identifier names => [.identifier names]
  | rawTrusted text => textPieces text
  | data _ => [.slot]
  | query _ _ => [.slot]

/-- Whether a value of a query goes to its bindings. -/
def isBound : SqlValue → Bool
  | identifier _ => false
  | rawTrusted _ => false
  | data _ => true
  | query _ _ => true

end SqlValue

/-- What values write, each with the chunk after it. -/
def interleave (write : SqlValue → List Piece) : List String → List SqlValue → List Piece
  | _, [] => []
  | chunks, value :: rest =>
      write value ++ (textPieces (chunks.headD "") ++ interleave write chunks.tail rest)

/-- Chunks and what the values between them write. -/
def weave (write : SqlValue → List Piece) (chunks : List String) (values : List SqlValue) :
    List Piece :=
  textPieces (chunks.headD "") ++ interleave write chunks.tail values

/-- What a query writes. -/
def SqlQuery.pieces (query : SqlQuery) : List Piece :=
  weave SqlValue.pieces query.chunks query.values

/-- What a value writes inside a template: a query is spliced in. -/
def SqlValue.spliced : SqlValue → List Piece
  | query chunks values => weave SqlValue.pieces chunks values
  | value => value.pieces

@[simp]
theorem SqlValue.spliced_data (value : Data) : (SqlValue.data value).spliced = [.slot] := rfl

@[simp]
theorem SqlValue.spliced_identifier (names : List String) :
    (SqlValue.identifier names).spliced = [.identifier names] := rfl

@[simp]
theorem SqlQuery.spliced_toValue (query : SqlQuery) : query.toValue.spliced = query.pieces := rfl

mutual

/-- No object among the data passes for a fragment. -/
def SqlValue.plain : SqlValue → Bool
  | .data value => !value.forged
  | .query _ values => plainAll values
  | .identifier _ => true
  | .rawTrusted _ => true

/-- `plain` on a list. -/
def plainAll : List SqlValue → Bool
  | [] => true
  | value :: rest => value.plain && plainAll rest

end

@[simp]
theorem plainAll_iff (values : List SqlValue) :
    plainAll values = true ↔ ∀ value ∈ values, value.plain = true := by
  induction values with
  | nil => simp [plainAll]
  | cons value rest ih => simp [plainAll, ih]

theorem SqlQuery.plain_toValue (query : SqlQuery) :
    query.toValue.plain = true ↔ ∀ value ∈ query.values, value.plain = true := by
  simp [SqlQuery.toValue, SqlValue.plain]

/-- A query of plain values, one chunk around each, that writes the given pieces. -/
structure SqlQuery.Writes (query : SqlQuery) (pieces : List Piece) : Prop where
  balanced : query.chunks.length = query.values.length + 1
  plain : ∀ value ∈ query.values, value.plain = true
  written : query.pieces = pieces

section Weaving

variable {write : SqlValue → List Piece} {chunks : List String} {values : List SqlValue}

theorem appendLast_length (text : String) (nonempty : chunks ≠ []) :
    (appendLast chunks text).length = chunks.length := by
  induction chunks with
  | nil => exact absurd rfl nonempty
  | cons chunk rest ih =>
      cases rest with
      | nil => rfl
      | cons next others => simpa [appendLast] using ih (by simp)

@[simp]
theorem weave_nil (chunk : String) (chunks : List String) :
    weave write (chunk :: chunks) [] = textPieces chunk := by
  simp [weave, interleave]

@[simp]
theorem weave_cons (chunk : String) (value : SqlValue) (rest : List SqlValue) :
    weave write (chunk :: chunks) (value :: rest) =
      textPieces chunk ++ (write value ++ weave write chunks rest) := rfl

theorem weave_appendLast (text : String) (balanced : chunks.length = values.length + 1) :
    weave write (appendLast chunks text) values = weave write chunks values ++ textPieces text := by
  induction values generalizing chunks with
  | nil =>
      rcases List.length_eq_one_iff.mp balanced with ⟨chunk, rfl⟩
      simp [appendLast]
  | cons value rest ih =>
      rcases chunks with _ | ⟨chunk, _ | ⟨next, others⟩⟩
      · simp at balanced
      · simp at balanced
      · have inner : (next :: others).length = rest.length + 1 := by simpa using balanced
        simp only [appendLast, weave_cons, List.append_assoc]
        rw [ih inner]

theorem weave_concat (value : SqlValue) (chunk : String)
    (balanced : chunks.length = values.length + 1) :
    weave write (chunks ++ [chunk]) (values ++ [value]) =
      weave write chunks values ++ (write value ++ textPieces chunk) := by
  induction values generalizing chunks with
  | nil =>
      rcases List.length_eq_one_iff.mp balanced with ⟨first, rfl⟩
      simp
  | cons first rest ih =>
      rcases chunks with _ | ⟨opening, others⟩
      · simp at balanced
      · have inner : others.length = rest.length + 1 := by simpa using balanced
        simp only [List.cons_append, weave_cons, List.append_assoc]
        rw [ih inner]

end Weaving

section Splicing

variable {query : SqlQuery} {pieces : List Piece} {values : List SqlValue} {separator : SqlQuery}

section

variable (writes : query.Writes pieces)
include writes

theorem SqlQuery.Writes.concat {value : SqlValue} (plain : value.plain = true) (chunk : String) :
    SqlQuery.Writes ⟨query.chunks ++ [chunk], query.values ++ [value]⟩
      (pieces ++ (value.pieces ++ textPieces chunk)) := by
  refine ⟨by simp [writes.balanced], ?_, ?_⟩
  · intro found member
    rcases List.mem_append.mp member with earlier | last
    · exact writes.plain found earlier
    · rw [List.mem_singleton.mp last]
      exact plain
  · rw [SqlQuery.pieces, weave_concat value _ writes.balanced, ← SqlQuery.pieces, writes.written]

theorem SqlQuery.Writes.appendLast (text : String) :
    SqlQuery.Writes ⟨Sql.appendLast query.chunks text, query.values⟩
      (pieces ++ textPieces text) := by
  have nonempty : query.chunks ≠ [] := by
    intro empty
    have balanced := writes.balanced
    simp [empty] at balanced
  refine ⟨by rw [appendLast_length text nonempty]; exact writes.balanced, writes.plain, ?_⟩
  rw [SqlQuery.pieces, weave_appendLast text writes.balanced, ← SqlQuery.pieces, writes.written]

theorem spliceValues_writes (chunks : List String) (plain : ∀ value ∈ values, value.plain = true) :
    (spliceValues query chunks values).Writes
      (pieces ++ interleave SqlValue.pieces chunks values) := by
  induction values generalizing query pieces chunks with
  | nil => simpa [spliceValues, interleave] using writes
  | cons value rest ih =>
      have next := writes.concat (plain value (by simp)) (chunks.headD "")
      have onwards := ih next chunks.tail fun found member =>
        plain found (List.mem_cons_of_mem _ member)
      simp only [spliceValues, interleave]
      simpa only [List.append_assoc] using onwards

theorem insertValue_writes {value : SqlValue} (plain : value.plain = true) (nextChunk : String) :
    ∃ inserted, insertValue query value nextChunk = some inserted ∧
      inserted.Writes (pieces ++ (value.spliced ++ textPieces nextChunk)) := by
  cases value with
  | data found =>
      have unforged : found.hasKind "sql" = false := by
        simp only [SqlValue.plain, Data.forged, Bool.not_or, Bool.and_eq_true,
          Bool.not_eq_true'] at plain
        exact plain.1.1
      exact ⟨_, by simp [insertValue, SqlValue.isSqlQuery, unforged], writes.concat plain nextChunk⟩
  | identifier names => exact ⟨_, rfl, writes.concat plain nextChunk⟩
  | rawTrusted text => exact ⟨_, rfl, writes.concat plain nextChunk⟩
  | query chunks values =>
      have inner : ∀ found ∈ values, found.plain = true := by
        simpa [SqlValue.plain] using plain
      have opened := writes.appendLast (chunks.headD "")
      have spliced := spliceValues_writes opened chunks.tail inner
      have closed := spliced.appendLast nextChunk
      refine ⟨_, rfl, ?_⟩
      simpa only [SqlValue.spliced, weave, List.append_assoc] using closed

theorem insertValues_writes (strings : List String) (plain : ∀ value ∈ values, value.plain = true) :
    ∃ inserted, insertValues query strings values = some inserted ∧
      inserted.Writes (pieces ++ interleave SqlValue.spliced strings values) := by
  induction values generalizing query pieces strings with
  | nil => exact ⟨query, rfl, by simpa [interleave] using writes⟩
  | cons value rest ih =>
      rcases insertValue_writes writes (plain value (by simp)) (strings.headD "") with
        ⟨first, firstEq, firstWrites⟩
      rcases ih firstWrites strings.tail fun found member =>
        plain found (List.mem_cons_of_mem _ member) with ⟨last, lastEq, lastWrites⟩
      refine ⟨last, ?_, ?_⟩
      · simp only [insertValues, firstEq, Option.bind_eq_bind, Option.bind_some, lastEq]
      · simpa only [interleave, List.append_assoc] using lastWrites

end

theorem sqlTag_writes (strings : List String) (plain : ∀ value ∈ values, value.plain = true) :
    ∃ query, sqlTag strings values = some query ∧
      query.Writes (weave SqlValue.spliced strings values) := by
  have opening : SqlQuery.Writes ⟨[strings.headD ""], []⟩ (textPieces (strings.headD "")) :=
    ⟨rfl, by simp, by simp [SqlQuery.pieces]⟩
  exact insertValues_writes opening strings.tail plain

/-- Pieces with a separator between them. -/
def joinPieces (separator : List Piece) : List (List Piece) → List Piece
  | [] => []
  | first :: rest => first ++ rest.flatMap fun pieces => separator ++ pieces

theorem joinFrom_writes {result : SqlQuery}
    (separatorPlain : ∀ value ∈ separator.values, value.plain = true)
    (writes : result.Writes pieces) (plain : ∀ value ∈ values, value.plain = true) :
    ∃ query, joinFrom separator result values = some query ∧
      query.Writes (pieces ++ values.flatMap fun value => separator.pieces ++ value.spliced) := by
  induction values generalizing result pieces with
  | nil => exact ⟨result, rfl, by simpa using writes⟩
  | cons value rest ih =>
      have inputs : ∀ found ∈ [result.toValue, separator.toValue, value],
          found.plain = true := by
        simp only [List.mem_cons, List.not_mem_nil, or_false, forall_eq_or_imp, forall_eq]
        exact ⟨result.plain_toValue.mpr writes.plain,
          separator.plain_toValue.mpr separatorPlain, plain value (by simp)⟩
      rcases sqlTag_writes ["", "", "", ""] inputs with ⟨joined, joinedEq, joinedWrites⟩
      have joinedPieces : joined.Writes (pieces ++ (separator.pieces ++ value.spliced)) := by
        simpa [writes.written] using joinedWrites
      rcases ih joinedPieces fun found member => plain found (List.mem_cons_of_mem _ member) with
        ⟨query, queryEq, queryWrites⟩
      refine ⟨query, ?_, ?_⟩
      · simp only [joinFrom, joinedEq, Option.bind_eq_bind, Option.bind_some, queryEq]
      · simpa only [List.flatMap_cons, List.append_assoc] using queryWrites

theorem join_writes (separatorPlain : ∀ value ∈ separator.values, value.plain = true)
    (plain : ∀ value ∈ values, value.plain = true) :
    ∃ query, join values separator = some query ∧
      query.Writes (joinPieces separator.pieces (values.map SqlValue.spliced)) := by
  cases values with
  | nil => exact ⟨_, rfl, rfl, by simp, rfl⟩
  | cons value rest =>
      have input : ∀ found ∈ [value], found.plain = true := by
        intro found member
        rw [List.mem_singleton.mp member]
        exact plain value (by simp)
      rcases sqlTag_writes ["", ""] input with ⟨first, firstEq, firstWrites⟩
      have firstPieces : first.Writes value.spliced := by
        simpa using firstWrites
      rcases joinFrom_writes separatorPlain firstPieces fun found member =>
        plain found (List.mem_cons_of_mem _ member) with ⟨query, queryEq, queryWrites⟩
      refine ⟨query, ?_, by simpa [joinPieces, List.flatMap_map] using queryWrites⟩
      simp only [join, firstEq, Option.bind_eq_bind, Option.bind_some, queryEq]

theorem createSqlQuery_writes {sqlIn : String} {bindings : List SqlValue}
    (created : createSqlQuery sqlIn bindings = some query)
    (plain : ∀ value ∈ bindings, value.plain = true) :
    query.Writes
      (weave SqlValue.pieces ((sqlIn.toList.splitOn '?').map String.ofList) bindings) := by
  simp only [createSqlQuery] at created
  split at created
  · rename_i counted
    cases created
    have nonempty : 0 < (sqlIn.toList.splitOn '?').length :=
      List.length_pos_of_ne_nil (List.splitOn_ne_nil _ _)
    refine ⟨?_, plain, rfl⟩
    simp only [List.length_map] at counted ⊢
    omega
  · cases created

end Splicing

section Rendering

/-- The text of pieces after `count` bindings. -/
def renderPieces (dialect : Dialect) : ℕ → List Piece → List Char
  | _, [] => []
  | count, .char value :: rest => value :: renderPieces dialect count rest
  | count, .identifier names :: rest =>
      (renderIdentifier names dialect).toList ++ renderPieces dialect count rest
  | count, .slot :: rest =>
      (placeholder dialect (count + 1)).toList ++ renderPieces dialect (count + 1) rest

theorem renderPieces_text (dialect : Dialect) (count : ℕ) (text : String) (rest : List Piece) :
    renderPieces dialect count (textPieces text ++ rest) =
      text.toList ++ renderPieces dialect count rest := by
  simp only [textPieces]
  induction text.toList with
  | nil => rfl
  | cons char others ih => simp [renderPieces, ih]

theorem renderValue_of_plain (dialect : Dialect) (rendered : RenderedSql) {value : SqlValue}
    (plain : value.plain = true) (rest : List Piece) :
    ∃ written, renderValue dialect rendered value = some written ∧
      written.bindings =
        rendered.bindings ++ ([value].filter SqlValue.isBound).map normalizeSqlBindingValue ∧
      rendered.sql.toList ++ renderPieces dialect rendered.bindings.length (value.pieces ++ rest) =
        written.sql.toList ++ renderPieces dialect written.bindings.length rest := by
  cases value with
  | data found =>
      simp only [SqlValue.plain, Data.forged, Bool.not_or, Bool.and_eq_true,
        Bool.not_eq_true'] at plain
      refine ⟨_, by simp [renderValue, SqlValue.isIdentifier, SqlValue.isTrustedRaw, plain]; rfl,
        rfl, ?_⟩
      simp [SqlValue.pieces, renderPieces]
  | query chunks values =>
      refine ⟨_, by simp [renderValue, SqlValue.isIdentifier, SqlValue.isTrustedRaw]; rfl,
        rfl, ?_⟩
      simp [SqlValue.pieces, renderPieces]
  | identifier names =>
      refine ⟨_, rfl, by simp [SqlValue.isBound], ?_⟩
      simp [SqlValue.pieces, renderPieces]
  | rawTrusted text =>
      refine ⟨_, rfl, by simp [SqlValue.isBound], ?_⟩
      simp [SqlValue.pieces, renderPieces_text]

theorem renderValues_of_plain (dialect : Dialect) (rendered : RenderedSql) (chunks : List String)
    {values : List SqlValue} (plain : ∀ value ∈ values, value.plain = true) (last : List Piece) :
    ∃ written, renderValues dialect rendered chunks values = some written ∧
      written.bindings =
        rendered.bindings ++ (values.filter SqlValue.isBound).map normalizeSqlBindingValue ∧
      rendered.sql.toList ++ renderPieces dialect rendered.bindings.length
          (interleave SqlValue.pieces chunks values ++ last) =
        written.sql.toList ++ renderPieces dialect written.bindings.length last := by
  induction values generalizing rendered chunks with
  | nil => exact ⟨rendered, rfl, by simp, rfl⟩
  | cons value rest ih =>
      rcases renderValue_of_plain dialect rendered (plain value (by simp))
        (textPieces (chunks.headD "") ++ (interleave SqlValue.pieces chunks.tail rest ++ last)) with
        ⟨first, firstEq, firstBindings, firstText⟩
      rcases ih ⟨first.sql ++ chunks.headD "", first.bindings⟩ chunks.tail
        fun found member => plain found (List.mem_cons_of_mem _ member) with
        ⟨written, writtenEq, bindings, text⟩
      refine ⟨written, ?_, ?_, ?_⟩
      · simp only [renderValues, firstEq, Option.bind_eq_bind, Option.bind_some, writtenEq]
      · rw [bindings, firstBindings, List.append_assoc, ← List.map_append,
          ← List.filter_append, List.singleton_append]
      · rw [← text, interleave, List.append_assoc, List.append_assoc, firstText, renderPieces_text]
        simp only [String.toList_append, List.append_assoc]

theorem renderSql_of_plain {query : SqlQuery} (plain : ∀ value ∈ query.values, value.plain = true)
    (dialect : Dialect) :
    renderSql (.query query) dialect = some ⟨String.ofList (renderPieces dialect 0 query.pieces),
      (query.values.filter SqlValue.isBound).map normalizeSqlBindingValue⟩ := by
  rcases renderValues_of_plain dialect ⟨query.chunks.headD "", []⟩ query.chunks.tail plain [] with
    ⟨written, writtenEq, bindings, text⟩
  have whole : written.sql.toList = renderPieces dialect 0 query.pieces := by
    simp only [List.append_nil, renderPieces, List.length_nil] at text
    rw [← text, SqlQuery.pieces, weave, renderPieces_text]
  have same : written = ⟨String.ofList (renderPieces dialect 0 query.pieces),
      (query.values.filter SqlValue.isBound).map normalizeSqlBindingValue⟩ := by
    cases written
    simp only [RenderedSql.mk.injEq]
    refine ⟨?_, by simpa using bindings⟩
    rw [← whole, String.ofList_toList]
  rw [← same]
  exact writtenEq

end Rendering

end ServerFoundation.Sql
