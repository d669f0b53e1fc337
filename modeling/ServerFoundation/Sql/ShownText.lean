import ServerFoundation.Sql.ColumnValues
import ServerFoundation.Sql.Composition
import ServerFoundation.Sql.ConditionText

/-!
# What a query shows

The pieces of a query with the bound values in the places of their slots. A template shows what
its parts show with the texts between them, and the words of the whole are those of the parts.
-/

namespace ServerFoundation.Sql

/-- The letters of a text. -/
def letters (text : String) : List Letter := text.toList.map .char

/-- Pieces with values in the places of the slots. -/
def fill : List Piece → List SqlValue → List Letter
  | [], _ => []
  | .char char :: pieces, values => .char char :: fill pieces values
  | .identifier names :: pieces, values => .name names :: fill pieces values
  | .slot :: pieces, values => (values.head?.map .value).toList ++ fill pieces values.tail

/-- The values that a value binds, as the driver receives them. -/
def SqlValue.bindings (value : SqlValue) : List SqlValue :=
  (value.parts.filter SqlValue.isBound).map normalizeSqlBindingValue

/-- The text of a query, with names and bound values in their places. -/
def SqlQuery.letters (query : SqlQuery) : List Letter := fill query.pieces query.toValue.bindings

/-- What a value shows inside a template. -/
structure Shows (value : SqlValue) (shown : List Letter) : Prop where
  flat : value.Flat
  counted : value.spliced.count .slot = value.bindings.length
  filled : fill value.spliced value.bindings = shown

/-- What parts show, each with the text after it. -/
def interleaveLetters : List String → List (List Letter) → List Letter
  | _, [] => []
  | strings, part :: rest =>
      part ++ (letters (strings.headD "") ++ interleaveLetters strings.tail rest)

/-- What the parts of a template show, with the texts around them. -/
def weaveLetters (strings : List String) (parts : List (List Letter)) : List Letter :=
  letters (strings.headD "") ++ interleaveLetters strings.tail parts

section Filling

variable {query : SqlQuery}

theorem fill_text (text : String) (pieces : List Piece) (values : List SqlValue) :
    fill (textPieces text ++ pieces) values = letters text ++ fill pieces values := by
  unfold textPieces letters
  induction text.toList with
  | nil => rfl
  | cons char chars ih => simp [fill, ih]

theorem fill_append {first : List Piece} {firstValues : List SqlValue}
    (counted : first.count .slot = firstValues.length) (second : List Piece)
    (secondValues : List SqlValue) :
    fill (first ++ second) (firstValues ++ secondValues) =
      fill first firstValues ++ fill second secondValues := by
  induction first generalizing firstValues with
  | nil =>
      have empty : firstValues = [] := List.eq_nil_of_length_eq_zero counted.symm
      simp [empty, fill]
  | cons piece first ih =>
      cases piece with
      | char char => simpa [fill] using ih (by simpa using counted)
      | identifier names => simpa [fill] using ih (by simpa using counted)
      | slot =>
          cases firstValues with
          | nil => simp at counted
          | cons value firstValues => simpa [fill] using ih (by simpa using counted)

variable {values : List SqlValue} {shown : List (List Letter)}

theorem fill_interleave (each : List.Forall₂ Shows values shown) (strings : List String) :
    (interleave SqlValue.spliced strings values).count .slot =
        (values.flatMap SqlValue.bindings).length ∧
      fill (interleave SqlValue.spliced strings values) (values.flatMap SqlValue.bindings) =
        interleaveLetters strings shown := by
  induction each generalizing strings with
  | nil => exact ⟨rfl, rfl⟩
  | @cons value part values parts first _ ih =>
      rcases ih strings.tail with ⟨counted, filled⟩
      rw [interleave, List.flatMap_cons, interleaveLetters]
      constructor
      · rw [List.count_append, List.count_append, count_textPieces, counted, first.counted,
          List.length_append, Nat.zero_add]
      · rw [fill_append first.counted, fill_text, filled, first.filled]

theorem bindings_of_values (same : query.values = values.flatMap SqlValue.parts) :
    query.toValue.bindings = values.flatMap SqlValue.bindings := by
  have parts : query.toValue.parts = query.values := rfl
  rw [SqlValue.bindings, parts, same, List.filter_flatMap, List.map_flatMap]
  rfl

theorem forall_flat (each : List.Forall₂ Shows values shown) : ∀ value ∈ values, value.Flat := by
  induction each with
  | nil => exact fun value member => absurd member List.not_mem_nil
  | cons first _ ih => exact List.forall_mem_cons.mpr ⟨first.flat, ih⟩

theorem sqlTag_shows {strings : List String} (each : List.Forall₂ Shows values shown)
    (made : sqlTag strings values = some query) :
    Shows query.toValue (weaveLetters strings shown) := by
  rcases sqlTag_spec strings (forall_flat each) with ⟨_, madeToo, writes, same, flat⟩
  cases made.symm.trans madeToo
  rcases fill_interleave each strings.tail with ⟨counted, filled⟩
  refine ⟨flat, ?_, ?_⟩
  · rw [SqlQuery.spliced_toValue, writes.written, weave, List.count_append, count_textPieces,
      counted, bindings_of_values same, Nat.zero_add]
  · rw [SqlQuery.spliced_toValue, writes.written, weave, fill_text, bindings_of_values same, filled,
      weaveLetters]

theorem join_shows {separator : String} {value : SqlValue} {part : List Letter}
    (first : Shows value part) (each : List.Forall₂ Shows values shown)
    (made : join (value :: values) ⟨[separator], []⟩ = some query) :
    Shows query.toValue (part ++ shown.flatMap (letters separator ++ ·)) := by
  have between : (SqlQuery.mk [separator] []).toValue.Flat := by
    rw [SqlQuery.flat_toValue]
    exact ⟨by simp, by simp⟩
  rcases join_spec between (forall_flat (.cons first each)) with ⟨_, madeToo, writes, same, flat⟩
  cases made.symm.trans madeToo
  have separatorPieces : (SqlQuery.mk [separator] []).pieces = textPieces separator := by
    simp [SqlQuery.pieces, weave, interleave]
  have flattened : query.values = (value :: values).flatMap SqlValue.parts := by
    rw [same, List.map_cons, intercalate_cons_flatMap]
    simp [List.flatMap_map]
  have spliced : query.toValue.spliced =
      value.spliced ++ values.flatMap fun part => textPieces separator ++ part.spliced := by
    rw [SqlQuery.spliced_toValue, writes.written, separatorPieces, List.map_cons,
      intercalate_cons_flatMap, List.flatMap_map]
  have rest : (values.flatMap fun part => textPieces separator ++ part.spliced).count .slot =
        (values.flatMap SqlValue.bindings).length ∧
      fill (values.flatMap fun part => textPieces separator ++ part.spliced)
        (values.flatMap SqlValue.bindings) = shown.flatMap (letters separator ++ ·) := by
    clear made madeToo writes same flat flattened spliced
    induction each with
    | nil => exact ⟨rfl, rfl⟩
    | cons next _ ih =>
        rcases ih with ⟨counted, filled⟩
        simp only [List.flatMap_cons, List.append_assoc]
        constructor
        · rw [List.count_append, count_textPieces, List.count_append, next.counted, counted,
            List.length_append, Nat.zero_add]
        · rw [fill_text, fill_append next.counted, filled, next.filled]
  refine ⟨flat, ?_, ?_⟩
  · rw [spliced, List.count_append, first.counted, rest.1, bindings_of_values flattened,
      List.flatMap_cons, List.length_append]
  · rw [spliced, bindings_of_values flattened, List.flatMap_cons, fill_append first.counted, rest.2,
      first.filled]

theorem identifier_shows {names : List String} {value : SqlValue}
    (made : identifier names = some value) : Shows value [.name names] := by
  simp only [identifier] at made
  split_ifs at made
  cases made
  exact ⟨⟨rfl, by simp [SqlValue.parts, SqlValue.isSqlQuery]⟩, rfl, rfl⟩

theorem data_shows {value : Data} (unforged : value.forged = false) :
    Shows (.data value) [.value (normalizeSqlBindingValue (.data value))] := by
  have plain : (SqlValue.data value).plain = true := by simp [SqlValue.plain, unforged]
  refine ⟨⟨plain, fun part member => ?_⟩, rfl, rfl⟩
  rw [List.mem_singleton.mp member]
  exact isSqlQuery_of_plain plain

end Filling

section Operands

variable {serialized : SqlValue}

/-- The operand that a serialized value stands for. -/
def SqlValue.operand : SqlValue → Operand
  | .query _ (inner :: _) => .point (normalizeSqlBindingValue inner)
  | value => .bound (normalizeSqlBindingValue value)

/-- The letters of an operand. -/
def Operand.letters : Operand → List Letter
  | .bound value => [.value value]
  | .point value => Sql.letters "ST_GeomFromText(" ++ .value value :: Sql.letters ")"

theorem serializeOther_shows {columnType : String} {value : Data} {dialect : Dialect}
    (unforged : value.forged = false)
    (made : serializeOther columnType value dialect = some serialized) :
    Shows serialized serialized.operand.letters := by
  unfold serializeOther at made
  split at made
  · rename_i normalized isNormalized
    cases made
    apply data_shows
    unfold normalizedData at isNormalized
    split at isNormalized <;> cases isNormalized <;> rfl
  · generalize (if dialect = .mysql ∧ columnType = "point" then normalizeCoordinate value else none)
      = coordinate at made
    cases coordinate with
    | some found =>
        rcases Option.map_eq_some_iff.mp made with ⟨query, isQuery, rfl⟩
        have text : (Data.string (pointText found)).forged = false := rfl
        have shows := sqlTag_shows (.cons (data_shows text) .nil) isQuery
        rcases sqlTag_spec ["ST_GeomFromText(", ")"]
          (forall_flat (.cons (data_shows text) .nil)) with ⟨_, madeToo, -, same, -⟩
        cases isQuery.symm.trans madeToo
        have operand : query.toValue.operand =
            .point (normalizeSqlBindingValue (.data (.string (pointText found)))) := by
          rw [SqlQuery.toValue, same]
          rfl
        rw [operand]
        exact shows
    | none =>
        dsimp only at made
        split_ifs at made
        · rcases Option.map_eq_some_iff.mp made with ⟨text, -, rfl⟩
          cases text <;> exact data_shows rfl
        · cases made
          exact data_shows unforged

theorem serializeColumnValue_shows {column : Option ColumnMetadata} {value : Data}
    {dialect : Dialect} (unforged : value.forged = false)
    (made : serializeColumnValue column value dialect = some serialized) :
    Shows serialized serialized.operand.letters := by
  unfold serializeColumnValue at made
  split at made
  · cases made
    exact data_shows unforged
  · cases made
    split <;> exact data_shows rfl
  · cases made
    exact data_shows rfl
  · dsimp only at made
    split_ifs at made
    · cases made
      exact data_shows (serializeUuidValue_unforged dialect unforged)
    · cases made
      exact data_shows (serializeDateOnlyValue_unforged unforged)
    · cases made
      exact data_shows (serializeBinaryValue_unforged unforged)
    · exact serializeOther_shows unforged made

end Operands

end ServerFoundation.Sql
