import ServerFoundation.Sql.ClauseReading

/-!
# Filters mean what they say

A filter record is the conjunction of its entries, `$and` the conjunction of its children and
`$or` their disjunction. The text of a record says the same, except where a child of `$or` has no
condition: it is true, but the text leaves it out.
-/

namespace ServerFoundation.Sql

section Meaning

variable (columns : List ColumnMetadata) (dialect : Dialect)

/-- What an entry of a record says, from the truths of the children it has as a group. -/
def entryTruth (row : Row) (field : String) (value : Data) (children : List Truth) : Truth :=
  if field = "$and" then .all children
  else if field = "$or" then .any children
  else
    let column := resolveColumn columns field
    conditionTruth ((column.map ColumnMetadata.columnName).getD field) column dialect value row

mutual

/-- What a filter record says of a row. -/
def filterTruth (row : Row) : Data → Truth
  | .object entries => .all (entriesTruth row entries)
  | _ => .holds

/-- The truth of each entry. -/
def entriesTruth (row : Row) : List (String × Data) → List Truth
  | [] => []
  | (field, .array children) :: rest =>
      entryTruth columns dialect row field (.array children) (childrenTruth row children) ::
        entriesTruth row rest
  | (field, value) :: rest =>
      entryTruth columns dialect row field value [] :: entriesTruth row rest

/-- The truth of each filter of a list. -/
def childrenTruth (row : Row) : List Data → List Truth
  | [] => []
  | child :: rest => filterTruth row child :: childrenTruth row rest

end

/-- An entry that is a condition binds no value that passes for a fragment. -/
def plainEntry (field : String) (value : Data) : Bool :=
  let column := resolveColumn columns field
  plainCondition ((column.map ColumnMetadata.columnName).getD field) column dialect value

mutual

/-- A record whose groups are lists of such records. -/
def isFilter : Data → Bool
  | .object entries => areEntries entries
  | _ => false

/-- Every entry is one of a filter. -/
def areEntries : List (String × Data) → Bool
  | [] => true
  | (field, .array children) :: rest =>
      (if field = "$and" ∨ field = "$or" then areFilters children
        else plainEntry columns dialect field (.array children)) && areEntries rest
  | (field, value) :: rest =>
      (field ≠ "$and" ∧ field ≠ "$or" ∧ plainEntry columns dialect field value) && areEntries rest

/-- Every element is a filter. -/
def areFilters : List Data → Bool
  | [] => true
  | child :: rest => isFilter child && areFilters rest

end

mutual

/-- A record that has a condition of its own or in a group. -/
def hasCondition : Data → Bool
  | .object entries => anyCondition entries
  | _ => false

/-- One of the entries has a condition. -/
def anyCondition : List (String × Data) → Bool
  | [] => false
  | (field, .array children) :: rest =>
      (field ≠ "$and" || anyChildCondition children) || anyCondition rest
  | (field, _) :: rest => field ≠ "$and" || anyCondition rest

/-- One of the filters has a condition. -/
def anyChildCondition : List Data → Bool
  | [] => false
  | child :: rest => hasCondition child || anyChildCondition rest

end

mutual

/-- Every child of every `$or` in the filter has a condition. A list under any other name than
`$and` and `$or` is a value of a column. -/
def alternativesHaveConditions : Data → Bool
  | .object entries => entriesHaveConditions entries
  | _ => true

/-- The `$or` lists of the entries have conditions. -/
def entriesHaveConditions : List (String × Data) → Bool
  | [] => true
  | (field, .array children) :: rest =>
      (if field = "$and" ∨ field = "$or" then childrenHaveConditions (field = "$or") children
        else true) && entriesHaveConditions rest
  | _ :: rest => entriesHaveConditions rest

/-- The same of the filters of a list. -/
def childrenHaveConditions (alternatives : Bool) : List Data → Bool
  | [] => true
  | child :: rest =>
      (!alternatives || hasCondition child) && alternativesHaveConditions child &&
        childrenHaveConditions alternatives rest

end

end Meaning

section Conditions

variable {field : String} {column : Option ColumnMetadata} {dialect : Dialect} {query : SqlQuery}
  {operand : Data} {queries : List SqlQuery} {value : Row → Truth} {values : List (Row → Truth)}
  {rest : List (List Token)}

theorem plainList_spec {operator : String} (list : operator = "$in" ∨ operator = "$nin")
    (plain : plainOperand operator operand = true) :
    operand.isTypedArray = false ∧ ∀ found ∈ operand.asArray.getD [], found.forged = false := by
  simpa [plainOperand, list] using plain

theorem mem_of_inOperand {value : Data} {values : List Data}
    (untyped : operand.isTypedArray = false) (isOperand : inOperand operand = some values)
    (member : value ∈ values) : value ∈ operand.asArray.getD [] := by
  unfold inOperand at isOperand
  split at isOperand
  case h_3 =>
    cases isOperand
    exact member
  case h_6 holder _ typed => cases holder <;> simp_all [Data.isTypedArray]
  all_goals
    first
      | cases isOperand; cases member
      | split_ifs at isOperand; cases isOperand; cases member

theorem mem_of_ninOperand {value : Data} {values : List Data}
    (untyped : operand.isTypedArray = false) (isOperand : ninOperand operand = some values)
    (member : value ∈ values) : value ∈ operand.asArray.getD [] := by
  unfold ninOperand at isOperand
  split at isOperand
  case h_3 =>
    cases isOperand
    exact member
  case h_5 holder _ typed => cases holder <;> simp_all [Data.isTypedArray]
  all_goals cases isOperand
  all_goals cases member

theorem in_reads (plainList : plainOperand "$in" operand = true)
    (made : inClause field column dialect operand = some query) :
    ClauseReads query (inTruth field column dialect operand) := by
  rcases plainList_spec (.inl rfl) plainList with ⟨untyped, unforged⟩
  rcases Option.bind_eq_some_iff.mp made with ⟨values, areValues, clause⟩
  have plain : ∀ found ∈ values, found.forged = false :=
    fun found member => unforged found (mem_of_inOperand untyped areValues member)
  simp only [listColumn, untyped, Bool.false_eq_true, if_false] at clause
  unfold inTruth
  rw [areValues, Option.getD_some]
  cases values with
  | nil => exact never_reads clause
  | cons value values =>
      rw [if_neg (List.cons_ne_nil _ _)] at clause
      exact membership_reads in_lists plain clause

theorem nin_reads (plainList : plainOperand "$nin" operand = true)
    (made : ninClause field column dialect operand = some query) :
    ClauseReads query (ninTruth field column dialect operand) := by
  rcases plainList_spec (.inr rfl) plainList with ⟨untyped, unforged⟩
  rcases Option.bind_eq_some_iff.mp made with ⟨values, areValues, clause⟩
  have plain : ∀ found ∈ values.filter (fun value => !value.isNullish), found.forged = false :=
    fun found member =>
      unforged found (mem_of_ninOperand untyped areValues (List.mem_filter.mp member).1)
  simp only [listColumn, untyped, Bool.false_eq_true, if_false] at clause
  unfold ninTruth
  rw [areValues, Option.getD_some]
  dsimp only at clause ⊢
  generalize (values.filter fun value => !value.isNullish) = present at clause plain ⊢
  cases present with
  | nil =>
      simp only [ne_eq, not_true_eq_false, false_and, if_false, List.map_nil]
      have reads := isNotNull_reads clause
      simpa [Row.oneOf, Truth.not] using reads
  | cons value present =>
      simp only [ne_eq, reduceCtorEq, not_false_eq_true, true_and, ↓reduceIte] at clause ⊢
      by_cases whole : (value :: present).length = values.length
      · simp only [whole, if_true] at clause ⊢
        exact membership_reads notIn_lists plain clause
      · simp only [whole, if_false] at clause ⊢
        rcases Option.bind_eq_some_iff.mp clause with ⟨name, isName, isListed⟩
        rcases Option.bind_eq_some_iff.mp isListed with ⟨items, areItems, tagged⟩
        have shows := sqlTag_shows (.cons (identifier_shows isName)
          (.cons (identifier_shows isName) (.cons (listed_shows plain areItems) .nil))) tagged
        have isThere : ReadsConjunct [.name [field], .is, .not, .null]
            fun row => .ofBool !row.isNull field :=
          @readsConjunct_of_run _ (.isNotNull field) fun _ _ => rfl
        refine ⟨_, _, shows, fun rest ends => ?_, isThere.and (readsConjunct_list notIn_lists field
          (operandOf column dialect value) (present.map (operandOf column dialect)))⟩
        have spelled := spells_list notIn_lists field (operandOf column dialect value)
          (present.map (operandOf column dialect)) rest ends
        change .name [field] :: .is :: .not :: .null :: .and :: tokens [] _ = _
        simp only [List.cons_append, List.nil_append]
        rw [← spelled]
        simp [interleaveLetters, letters]

theorem ne_reads (unforged : operand.forged = false)
    (made : neClause field column dialect operand = some query) :
    ClauseReads query (neTruth field column dialect operand) := by
  unfold neClause at made
  split at made
  · exact isNotNull_reads made
  · rename_i present
    have same : neTruth field column dialect operand =
        comparisonTruth field column dialect "<>" operand := by
      funext row
      unfold neTruth
      split
      · exact absurd rfl present
      · rfl
    rw [same]
    exact comparison_reads (⟨fun _ => rfl, fun _ _ _ => rfl⟩ : Compares _ _ [.operator "<>"])
      unforged made

/-- An operator of the code, and what it says. -/
structure Reads (field : String) (operator : String × (Data → Option SqlQuery))
    (truth : String × (Data → Row → Truth)) : Prop where
  key : operator.1 = truth.1
  reads : ∀ operand query, plainOperand operator.1 operand = true →
    operator.2 operand = some query → ClauseReads query (truth.2 operand)

theorem operators_read : List.Forall₂ (Reads field) (operators field column dialect)
    (operatorTruths field column dialect) := by
  refine .cons ⟨rfl, fun _ _ plain made => in_reads plain made⟩
    (.cons ⟨rfl, fun _ _ plain made => nin_reads plain made⟩
    (.cons ⟨rfl, fun _ _ plain made => ne_reads (by simpa [plainOperand] using plain) made⟩ ?_))
  have compares (text operator : String) (read : List Token)
      (spells : ∀ rest, tokens [] (letters text ++ rest) = read ++ tokens [] rest)
      (run : ∀ column frame outer, Reader.run ⟨.named column, frame, outer⟩ read =
        some ⟨.compared (.comparison operator column), frame, outer⟩) (key : String)
      (single : ∀ operand, plainOperand key operand = !operand.forged) :
      Reads field (key, comparison field column dialect text)
        (key, comparisonTruth field column dialect operator) :=
    ⟨rfl, fun operand _ plain made =>
      comparison_reads ⟨spells, run⟩ (by simpa [single] using plain) made⟩
  exact .cons (compares " > " ">" [.operator ">"] (fun _ => rfl) (fun _ _ _ => rfl) _ fun _ => rfl)
    (.cons (compares " >= " ">=" [.operator ">="] (fun _ => rfl) (fun _ _ _ => rfl) _ fun _ => rfl)
    (.cons (compares " < " "<" [.operator "<"] (fun _ => rfl) (fun _ _ _ => rfl) _ fun _ => rfl)
    (.cons (compares " <= " "<=" [.operator "<="] (fun _ => rfl) (fun _ _ _ => rfl) _ fun _ => rfl)
    (.cons (compares " LIKE " "LIKE" [.operator "LIKE"] (fun _ => rfl) (fun _ _ _ => rfl) _
      fun _ => rfl)
    (.cons (compares " NOT LIKE " "NOT LIKE" [.not, .operator "LIKE"] (fun _ => rfl)
      (fun _ _ _ => rfl) _ fun _ => rfl) .nil)))))

theorem clauses_read {value : Data} {clauses : List (String × (Data → Option SqlQuery))}
    {truths : List (String × (Data → Row → Truth))}
    (each : List.Forall₂ (Reads field) clauses truths)
    (plain : ∀ clause ∈ clauses, ∀ operand, value.get? clause.1 = some operand →
      plainOperand clause.1 operand = true)
    (made : (clauses.filterMap fun clause => (value.get? clause.1).map clause.2).mapM id =
      some queries) :
    List.Forall₂ ClauseReads queries
      (truths.filterMap fun truth => (value.get? truth.1).map truth.2) := by
  induction each generalizing queries with
  | nil =>
      cases made
      exact .nil
  | @cons clause truth clauses truths head _ ih =>
      have plainRest := fun other member => plain other (List.mem_cons_of_mem clause member)
      have sameKey := head.key
      cases found : value.get? clause.1 with
      | none =>
          simp only [List.filterMap_cons, found, Option.map_none] at made
          simp only [List.filterMap_cons, ← sameKey, found, Option.map_none]
          exact ih plainRest made
      | some operand =>
          simp only [List.filterMap_cons, found, Option.map_some, List.mapM_cons] at made
          simp only [List.filterMap_cons, ← sameKey, found, Option.map_some]
          rcases Option.bind_eq_some_iff.mp made with ⟨query, isQuery, rest⟩
          rcases Option.bind_eq_some_iff.mp rest with ⟨others, areOthers, same⟩
          cases same
          have first := head.reads operand query (plain clause List.mem_cons_self operand found)
            isQuery
          exact .cons first (ih plainRest areOthers)

theorem joined_shows {text : String} {mark : Token} (separates : Separates text mark)
    {reads : List Token → (Row → Truth) → Prop} {query : SqlQuery} {joined : SqlQuery}
    (first : ∃ shown read, Shows query.toValue shown ∧ Spells shown read ∧ reads read value)
    (others : List.Forall₂ (fun query value => ∃ shown read,
      Shows query.toValue shown ∧ Spells shown read ∧ reads read value) queries values)
    (made : join ((query :: queries).map SqlQuery.toValue) ⟨[text], []⟩ = some joined) :
    ∃ shown read rest, Shows joined.toValue shown ∧
      Spells shown (read ++ rest.flatMap (mark :: ·)) ∧ reads read value ∧
      List.Forall₂ reads rest values := by
  rcases first with ⟨shown, read, shows, spelled, isRead⟩
  have each : ∃ shownRest readRest, List.Forall₂ Shows (queries.map SqlQuery.toValue) shownRest ∧
      List.Forall₂ Spells shownRest readRest ∧ List.Forall₂ reads readRest values := by
    clear made
    induction others with
    | nil => exact ⟨[], [], .nil, .nil, .nil⟩
    | cons head _ ih =>
        rcases head with ⟨shown, read, shows, spelled, isRead⟩
        rcases ih with ⟨shownRest, readRest, showsRest, spelledRest, areRead⟩
        exact ⟨_, _, .cons shows showsRest, .cons spelled spelledRest, .cons isRead areRead⟩
  rcases each with ⟨shownRest, readRest, showsRest, spelledRest, areRead⟩
  exact ⟨_, _, readRest, join_shows shows showsRest made, spelled.join separates spelledRest,
    isRead, areRead⟩

theorem readsConjunct_all {read : List Token} (first : ReadsConjunct read value)
    (others : List.Forall₂ ReadsConjunct rest values) :
    ReadsConjunct (read ++ rest.flatMap (.and :: ·)) fun row =>
      .all (value row :: values.map fun value => value row) := by
  induction others generalizing read value with
  | nil => simpa using first
  | @cons next nextValue rest values head _ ih =>
      have extended := ih (first.and head)
      simp only [List.flatMap_cons, List.append_assoc, List.cons_append, List.map_cons,
        Truth.all_cons] at extended ⊢
      simpa [Truth.and_assoc] using extended

theorem readsAlternatives_any {read : List Token} (first : ReadsAlternatives read value)
    (others : List.Forall₂ ReadsConjunct rest values) :
    ReadsAlternatives (read ++ rest.flatMap (.or :: ·)) fun row =>
      .any (value row :: values.map fun value => value row) := by
  induction others generalizing read value with
  | nil => simpa using first
  | @cons next nextValue rest values head _ ih =>
      have extended := ih (first.or head.alternatives)
      simp only [List.flatMap_cons, List.append_assoc, List.cons_append, List.map_cons,
        Truth.any_cons] at extended ⊢
      simpa [Truth.or_assoc] using extended

theorem conjunction_reads (each : List.Forall₂ ClauseReads queries values) (nonempty : queries ≠ [])
    (made : join (queries.map SqlQuery.toValue) ⟨[" AND "], []⟩ = some query) :
    ClauseReads query fun row => .all (values.map fun value => value row) := by
  cases each with
  | nil => exact absurd rfl nonempty
  | cons head tail =>
      rcases joined_shows and_separates head tail made with
        ⟨shown, read, rest, shows, spelled, isRead, areRead⟩
      exact ⟨shown, _, shows, spelled, readsConjunct_all isRead areRead⟩

theorem disjunction_reads (each : List.Forall₂ ClauseReads queries values) (nonempty : queries ≠ [])
    (made : join (queries.map SqlQuery.toValue) ⟨[" OR "], []⟩ = some query) :
    AlternativesRead query fun row => .any (values.map fun value => value row) := by
  cases each with
  | nil => exact absurd rfl nonempty
  | cons head tail =>
      rcases joined_shows or_separates head tail made with
        ⟨shown, read, rest, shows, spelled, isRead, areRead⟩
      exact ⟨shown, _, shows, spelled, readsAlternatives_any isRead.alternatives areRead⟩

theorem ClauseReads.alternatives (reads : ClauseReads query value) :
    AlternativesRead query value := by
  rcases reads with ⟨shown, read, shows, spelled, isRead⟩
  exact ⟨shown, read, shows, spelled, isRead.alternatives⟩

theorem group_reads {inner outer : SqlQuery} (reads : AlternativesRead inner value)
    (made : sqlTag ["(", ")"] [inner.toValue] = some outer) : ClauseReads outer value := by
  rcases reads with ⟨shown, read, shows, spelled, isRead⟩
  refine ⟨_, _, sqlTag_shows (.cons shows .nil) made, fun rest ends => ?_, isRead.group⟩
  have closed : tokens [] (letters ")" ++ rest) = .closing :: tokens [] rest := rfl
  have inside := spelled (letters ")" ++ rest) fun char same => by cases same; rfl
  change .opening :: tokens [] (shown ++ (letters ")" ++ []) ++ rest) = _
  rw [List.append_nil, List.append_assoc, inside, closed]
  simp

theorem condition_reads {value : Data}
    (plain : plainCondition field column dialect value = true)
    (made : renderFilter field column dialect value = some query) :
    ClauseReads query (conditionTruth field column dialect value) := by
  rw [plainCondition, Bool.and_eq_true, List.all_eq_true] at plain
  rcases plain with ⟨plainValue, plainOperands⟩
  rcases Option.bind_eq_some_iff.mp made with ⟨clauses, areClauses, clause⟩
  have each : List.Forall₂ ClauseReads clauses (conditionTests field column dialect value) := by
    refine clauses_read operators_read (fun operator member operand found => ?_) areClauses
    simpa [found] using plainOperands operator member
  generalize areTests : conditionTests field column dialect value = tests at each plainValue
  cases each with
  | nil =>
      have truth : conditionTruth field column dialect value = fun row =>
          if value.isNullish then .ofBool (row.isNull field)
          else comparisonTruth field column dialect "=" value row := by
        funext row
        rw [conditionTruth, areTests]
      rw [truth]
      rw [if_neg (not_not.mpr rfl)] at clause
      split_ifs at clause with nullish
      · simpa only [nullish, if_true] using isNull_reads clause
      · simp only [nullish, Bool.false_eq_true, if_false]
        exact comparison_reads
          (⟨fun _ => rfl, fun _ _ _ => rfl⟩ : Compares _ _ [.operator "="])
          (by simpa using plainValue) clause
  | @cons _ first _ others head tail =>
      have truth : conditionTruth field column dialect value = fun row =>
          .all ((first :: others).map fun test => test row) := by
        funext row
        rw [conditionTruth, areTests]
      rw [truth]
      rw [if_pos (List.cons_ne_nil _ _)] at clause
      exact conjunction_reads (.cons head tail) (List.cons_ne_nil _ _) clause

end Conditions

section Records

variable {columns : List ColumnMetadata} {dialect : Dialect} {clauses : List SqlQuery}
  {field : String} {rendered : Option SqlQuery}

/-- Clauses that are read as the conjunction of truths, and as their disjunction when none is left
out. -/
structure ListReads (clauses : List SqlQuery) (has : Bool) (truths : Row → List Truth)
    (complete : Bool) : Prop where
  nonempty_iff : clauses ≠ [] ↔ has = true
  values : ∃ values : List (Row → Truth), List.Forall₂ ClauseReads clauses values ∧
    (∀ row, Truth.all (values.map fun value => value row) = .all (truths row)) ∧
    (complete = true → ∀ row, Truth.any (values.map fun value => value row) = .any (truths row))

theorem listReads_nil (complete : Bool) : ListReads [] false (fun _ => []) complete :=
  ⟨by simp, [], .nil, fun _ => rfl, fun _ _ => rfl⟩

theorem listReads_singleton {query : SqlQuery} {value : Row → Truth} (complete : Bool)
    (reads : ClauseReads query value) : ListReads [query] true (fun row => [value row]) complete :=
  ⟨by simp, [value], .cons reads .nil, fun _ => rfl, fun _ _ => rfl⟩

theorem ListReads.append {first second : List SqlQuery} {firstHas secondHas : Bool}
    {firstTruths secondTruths : Row → List Truth} {firstComplete secondComplete : Bool}
    (left : ListReads first firstHas firstTruths firstComplete)
    (right : ListReads second secondHas secondTruths secondComplete) :
    ListReads (first ++ second) (firstHas || secondHas)
      (fun row => firstTruths row ++ secondTruths row) (firstComplete && secondComplete) := by
  rcases left.values with ⟨firstValues, firstReads, firstAll, firstAny⟩
  rcases right.values with ⟨secondValues, secondReads, secondAll, secondAny⟩
  refine ⟨?_, firstValues ++ secondValues, List.rel_append firstReads secondReads,
    fun row => ?_, fun complete row => ?_⟩
  · rw [Bool.or_eq_true, ← left.nonempty_iff, ← right.nonempty_iff, ne_eq, List.append_eq_nil_iff]
    tauto
  · rw [List.map_append, Truth.all_append, Truth.all_append, firstAll, secondAll]
  · rw [Bool.and_eq_true] at complete
    rw [List.map_append, Truth.any_append, Truth.any_append, firstAny complete.1,
      secondAny complete.2]

theorem groupClause_reads (value : Data) {rendered : List SqlQuery} {has complete : Bool}
    {truths : Row → List Truth} (reads : ListReads rendered has truths complete)
    (isGroup : field = "$and" ∨ field = "$or") (isComplete : field = "$or" → complete = true)
    (made : groupClause field rendered = some clauses) :
    ListReads clauses (field ≠ "$and" || has)
      (fun row => [entryTruth columns dialect row field value (truths row)]) false := by
  rcases reads with ⟨nonempty, values, each, evaluatesAll, evaluatesAny⟩
  have andTruth (row : Row) : entryTruth columns dialect row "$and" value (truths row) =
      .all (values.map fun value => value row) := by
    simpa [entryTruth] using (evaluatesAll row).symm
  have orTruth (isOr : field = "$or") (row : Row) :
      entryTruth columns dialect row "$or" value (truths row) =
        .any (values.map fun value => value row) := by
    simpa [entryTruth] using (evaluatesAny (isComplete isOr) row).symm
  cases each with
  | nil =>
      have hasNone : has = false := by simpa using nonempty
      rw [groupClause, if_neg (not_not.mpr rfl)] at made
      rcases isGroup with rfl | rfl
      · cases made
        refine ⟨by simp [hasNone], [], .nil, fun row => ?_, nofun⟩
        rw [andTruth]
        rfl
      · rw [if_pos rfl] at made
        rcases Option.bind_eq_some_iff.mp made with ⟨never, isNever, same⟩
        cases same
        have reads := listReads_singleton false (never_reads isNever)
        simpa [hasNone, orTruth] using reads
  | @cons query firstValue queries values head tail =>
      have hasSome : has = true := nonempty.mp (List.cons_ne_nil _ _)
      rw [groupClause, if_pos (List.cons_ne_nil _ _)] at made
      rcases Option.bind_eq_some_iff.mp made with ⟨inner, isInner, tagged⟩
      rcases Option.bind_eq_some_iff.mp tagged with ⟨outer, isOuter, same⟩
      cases same
      rcases isGroup with rfl | rfl
      · have inside := conjunction_reads (.cons head tail) (List.cons_ne_nil _ _) isInner
        have reads := listReads_singleton false (group_reads inside.alternatives isOuter)
        simpa only [hasSome, Bool.or_true, andTruth] using reads
      · have inside := disjunction_reads (.cons head tail) (List.cons_ne_nil _ _) isInner
        have reads := listReads_singleton false (group_reads inside isOuter)
        simpa only [hasSome, Bool.or_true, orTruth rfl] using reads

theorem entryClauses_reads {value : Data} {rendered : Option (List SqlQuery)}
    (single : field ≠ "$and" ∧ field ≠ "$or")
    (plain : plainEntry columns dialect field value = true)
    (made : entryClauses columns dialect field value rendered = some clauses)
    (children : Row → List Truth) (has : Bool) :
    ListReads clauses (field ≠ "$and" || has)
      (fun row => [entryTruth columns dialect row field value (children row)]) false := by
  have noGroup : ¬(field = "$and" ∨ field = "$or") := by tauto
  rw [entryClauses, if_neg noGroup] at made
  rcases Option.map_eq_some_iff.mp made with ⟨query, isQuery, rfl⟩
  have reads := listReads_singleton false (condition_reads plain isQuery)
  simpa [entryTruth, single.1, single.2] using reads

/-- What the clause of a record is read as. -/
def RecordReads (columns : List ColumnMetadata) (dialect : Dialect) (filter : Data) :
    Option SqlQuery → Prop
  | none => hasCondition filter = false ∧ ∀ row, filterTruth columns dialect row filter = .holds
  | some query => hasCondition filter = true ∧
      ClauseReads query fun row => filterTruth columns dialect row filter

theorem recordClause_reads {entries : List (String × Data)}
    (reads : ListReads clauses (anyCondition entries)
      (fun row => entriesTruth columns dialect row entries) false)
    (made : recordClause clauses = some rendered) :
    RecordReads columns dialect (.object entries) rendered := by
  rcases reads with ⟨nonempty, values, each, evaluates, -⟩
  have truth (row : Row) : filterTruth columns dialect row (.object entries) =
      .all (values.map fun value => value row) := by
    rw [filterTruth, evaluates]
  cases each with
  | nil =>
      rw [recordClause, if_neg (not_not.mpr rfl)] at made
      cases made
      refine ⟨?_, truth⟩
      rw [hasCondition]
      simpa using nonempty
  | cons head tail =>
      rw [recordClause, if_pos (List.cons_ne_nil _ _)] at made
      rcases Option.map_eq_some_iff.mp made with ⟨query, isQuery, rfl⟩
      refine ⟨nonempty.mp (List.cons_ne_nil _ _), ?_⟩
      simp only [truth]
      exact conjunction_reads (.cons head tail) (List.cons_ne_nil _ _) isQuery

theorem single_reads {value : Data} {rest : List (String × Data)}
    (onwards : ∀ others, areEntries columns dialect rest = true →
      entriesHaveConditions rest = true → renderEntries columns dialect rest = some others →
        ListReads others (anyCondition rest)
          (fun row => entriesTruth columns dialect row rest) false)
    (isRecord : (decide (field ≠ "$and" ∧ field ≠ "$or" ∧
      plainEntry columns dialect field value = true) && areEntries columns dialect rest) = true)
    (complete : entriesHaveConditions rest = true) (made : (do
      let clauses ← entryClauses columns dialect field value (some [])
      let others ← renderEntries columns dialect rest
      return clauses ++ others) = some clauses) :
    ListReads clauses (decide (field ≠ "$and") || anyCondition rest)
      (fun row => entryTruth columns dialect row field value [] ::
        entriesTruth columns dialect row rest) false := by
  rw [Bool.and_eq_true, decide_eq_true_iff] at isRecord
  rcases isRecord with ⟨⟨notAnd, notOr, plain⟩, areRest⟩
  rcases Option.bind_eq_some_iff.mp made with ⟨first, isFirst, behind⟩
  rcases Option.bind_eq_some_iff.mp behind with ⟨others, areOthers, same⟩
  cases same
  have reads := (entryClauses_reads ⟨notAnd, notOr⟩ plain isFirst (fun _ => []) false).append
    (onwards others areRest complete areOthers)
  rw [Bool.or_false] at reads
  exact reads

theorem child_reads {child : Data} {alternatives : Bool}
    (reads : RecordReads columns dialect child rendered)
    (complete : alternatives = true → hasCondition child = true) :
    ListReads rendered.toList (hasCondition child)
      (fun row => [filterTruth columns dialect row child]) alternatives := by
  cases rendered with
  | some query =>
      rw [reads.1]
      exact listReads_singleton alternatives reads.2
  | none =>
      refine ⟨by simp [reads.1], [], .nil, fun row => ?_, fun isAlternative => ?_⟩
      · rw [reads.2 row]
        rfl
      · rw [reads.1] at complete
        cases complete isAlternative

mutual

theorem renderFilterRecord_reads : ∀ (filter : Data) (rendered : Option SqlQuery),
    isFilter columns dialect filter = true → alternativesHaveConditions filter = true →
      renderFilterRecord columns dialect filter = some rendered →
        RecordReads columns dialect filter rendered
  | .object entries, rendered, isRecord, complete, made => by
      rw [renderFilterRecord] at made
      rcases Option.bind_eq_some_iff.mp made with ⟨clauses, areClauses, clause⟩
      exact recordClause_reads
        (renderEntries_reads entries clauses isRecord complete areClauses) clause

theorem renderEntries_reads : ∀ (entries : List (String × Data)) (clauses : List SqlQuery),
    areEntries columns dialect entries = true → entriesHaveConditions entries = true →
      renderEntries columns dialect entries = some clauses →
        ListReads clauses (anyCondition entries)
          (fun row => entriesTruth columns dialect row entries) false
  | [], clauses, _, _, made => by
      cases made
      exact listReads_nil false
  | (field, .array children) :: rest, clauses, isRecord, complete, made => by
      rw [areEntries, Bool.and_eq_true] at isRecord
      rw [entriesHaveConditions, Bool.and_eq_true] at complete
      rw [renderEntries] at made
      rcases Option.bind_eq_some_iff.mp made with ⟨first, isFirst, onwards⟩
      rcases Option.bind_eq_some_iff.mp onwards with ⟨others, areOthers, same⟩
      cases same
      have restReads := renderEntries_reads rest others isRecord.2 complete.2 areOthers
      by_cases isGroup : field = "$and" ∨ field = "$or"
      · rw [entryClauses, if_pos isGroup] at isFirst
        rcases Option.bind_eq_some_iff.mp isFirst with ⟨rendered, areRendered, grouped⟩
        rw [if_pos isGroup] at isRecord complete
        have childReads := renderChildren_reads children (field = "$or") rendered isRecord.1
          complete.1 areRendered
        exact (groupClause_reads (.array children) childReads isGroup (by simp) grouped).append
          restReads
      · rw [if_neg isGroup] at isRecord
        exact (entryClauses_reads (by tauto) isRecord.1 isFirst
          (fun row => childrenTruth columns dialect row children)
          (anyChildCondition children)).append restReads
  | (_, .undefined) :: rest, _, isRecord, complete, made =>
      single_reads (renderEntries_reads rest) isRecord complete made
  | (_, .null) :: rest, _, isRecord, complete, made =>
      single_reads (renderEntries_reads rest) isRecord complete made
  | (_, .boolean _) :: rest, _, isRecord, complete, made =>
      single_reads (renderEntries_reads rest) isRecord complete made
  | (_, .number _) :: rest, _, isRecord, complete, made =>
      single_reads (renderEntries_reads rest) isRecord complete made
  | (_, .bigint _) :: rest, _, isRecord, complete, made =>
      single_reads (renderEntries_reads rest) isRecord complete made
  | (_, .string _) :: rest, _, isRecord, complete, made =>
      single_reads (renderEntries_reads rest) isRecord complete made
  | (_, .bytes _ _) :: rest, _, isRecord, complete, made =>
      single_reads (renderEntries_reads rest) isRecord complete made
  | (_, .date _) :: rest, _, isRecord, complete, made =>
      single_reads (renderEntries_reads rest) isRecord complete made
  | (_, .object _) :: rest, _, isRecord, complete, made =>
      single_reads (renderEntries_reads rest) isRecord complete made

theorem renderChildren_reads : ∀ (children : List Data) (alternatives : Bool)
    (rendered : List SqlQuery), areFilters columns dialect children = true →
      childrenHaveConditions alternatives children = true →
        renderChildren columns dialect children = some rendered →
          ListReads rendered (anyChildCondition children)
            (fun row => childrenTruth columns dialect row children) alternatives
  | [], alternatives, rendered, _, _, made => by
      cases made
      exact listReads_nil alternatives
  | child :: rest, alternatives, rendered, areRecords, complete, made => by
      rw [areFilters, Bool.and_eq_true] at areRecords
      rw [childrenHaveConditions, Bool.and_eq_true, Bool.and_eq_true] at complete
      rw [renderChildren] at made
      rcases Option.bind_eq_some_iff.mp made with ⟨first, isFirst, onwards⟩
      rcases Option.bind_eq_some_iff.mp onwards with ⟨others, areOthers, same⟩
      cases same
      have childReads := renderFilterRecord_reads child first areRecords.1 complete.1.2 isFirst
      have restReads := renderChildren_reads rest alternatives others areRecords.2 complete.2
        areOthers
      have childList := @child_reads _ _ _ _ alternatives childReads fun isAlternative => by
        simpa [isAlternative] using complete.1.1
      have reads := childList.append restReads
      rw [Bool.and_self] at reads
      exact reads

end

variable {filter : Data}

end Records

end ServerFoundation.Sql
