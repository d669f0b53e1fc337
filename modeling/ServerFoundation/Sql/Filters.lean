import ServerFoundation.Sql.ColumnValues

/-!
# Filters and patches

How the query builder writes the conditions of a filter record and the assignments
of a patch. Both are plain objects: their keys name columns, or operators and
groups, and what stands under a key is bound.
-/

namespace ServerFoundation.Sql

/-- Whether a value counts as true. -/
def Data.truthy : Data → Bool
  | .undefined => false
  | .null => false
  | .boolean value => value
  | .number value => value ≠ .finite 0 ∧ value ≠ .nan
  | .bigint value => value ≠ 0
  | .string value => value ≠ ""
  | _ => true

section Conditions

variable (field : String) (column : Option ColumnMetadata) (dialect : Dialect)

/-- A condition on the column alone. -/
def unaryClause (test : String) : Option SqlQuery := do
  let name ← identifier [field]
  sqlTag ["", test] [name]

/-- A condition that compares the column with a value. -/
def comparison (operator : String) (operand : Data) : Option SqlQuery := do
  let name ← identifier [field]
  let serialized ← serializeColumnValue column operand dialect
  sqlTag ["", operator, ""] [name, serialized]

/-- The values of a list, joined. -/
def listed (values : List Data) : Option SqlQuery := do
  let items ← values.mapM fun value => do
    let serialized ← serializeColumnValue column value dialect
    let item ← sqlTag ["", ""] [serialized]
    return item.toValue
  join items comma

/-- A condition that compares the column with the values of a list. -/
def membership (before : String) (values : List Data) : Option SqlQuery := do
  let name ← identifier [field]
  let items ← listed column dialect values
  sqlTag ["", before, ")"] [name, items.toValue]

/-- What a typed array has after `map`, where a fragment is no number and stands as zero. -/
def typedItems (content : List UInt8) : List Data := content.map fun _ => .number (.finite 0)

/-- `op.$in ?? []`, of which only an array can be mapped. -/
def inOperand : Data → Option (List Data)
  | .undefined => some []
  | .null => some []
  | .array items => some items
  | .string value => if value = "" then some [] else none
  | .bytes .arrayBuffer _ => some []
  | .bytes _ content => some (typedItems content)
  | .object entries => if ((entries.lookup "length").getD .undefined).truthy then none else some []
  | _ => some []

/-- `op.$nin ?? []`, of which only an array can be filtered. -/
def ninOperand : Data → Option (List Data)
  | .undefined => some []
  | .null => some []
  | .array items => some items
  | .bytes .arrayBuffer _ => none
  | .bytes _ content => some (typedItems content)
  | _ => none

/-- Whether a value is a typed array. -/
def Data.isTypedArray : Data → Bool
  | .bytes .arrayBuffer _ => false
  | .bytes _ _ => true
  | _ => false

/-- The column of the values that a list operator binds: those of a typed array are not
serialized. -/
def listColumn (operand : Data) : Option ColumnMetadata :=
  if operand.isTypedArray then none else column

/-- The clause of `$in`. -/
def inClause (operand : Data) : Option SqlQuery := do
  let values ← inOperand operand
  if values = [] then sqlTag ["1 = 0"] []
  else membership field (listColumn column operand) dialect " IN (" values

/-- The clause of `$nin`. -/
def ninClause (operand : Data) : Option SqlQuery := do
  let values ← ninOperand operand
  let nonNullValues := values.filter fun value => !value.isNullish
  if nonNullValues = [] then unaryClause field " IS NOT NULL"
  else if nonNullValues.length = values.length then
    membership field (listColumn column operand) dialect " NOT IN (" nonNullValues
  else do
    let name ← identifier [field]
    let items ← listed (listColumn column operand) dialect nonNullValues
    sqlTag ["", " IS NOT NULL AND ", " NOT IN (", ")"] [name, name, items.toValue]

/-- The clause of `$ne`. -/
def neClause (operand : Data) : Option SqlQuery :=
  match operand with
  | .null => unaryClause field " IS NOT NULL"
  | operand => comparison field column dialect " <> " operand

/-- The operators of a condition, each with the clause it stands for. -/
def operators : List (String × (Data → Option SqlQuery)) :=
  [("$in", inClause field column dialect),
    ("$nin", ninClause field column dialect),
    ("$ne", neClause field column dialect),
    ("$gt", comparison field column dialect " > "),
    ("$gte", comparison field column dialect " >= "),
    ("$lt", comparison field column dialect " < "),
    ("$lte", comparison field column dialect " <= "),
    ("$like", comparison field column dialect " LIKE "),
    ("$notLike", comparison field column dialect " NOT LIKE ")]

/-- The clauses of the operators a value has. -/
def operatorClauses (value : Data) : Option (List SqlQuery) :=
  ((operators field column dialect).filterMap fun operator =>
    (value.get? operator.1).map operator.2).mapM id

/-- `renderFilter`. -/
def renderFilter (value : Data) : Option SqlQuery := do
  let clauses ← operatorClauses field column dialect value
  if clauses ≠ [] then join (clauses.map SqlQuery.toValue) ⟨[" AND "], []⟩
  else if value.isNullish then unaryClause field " IS NULL"
  else comparison field column dialect " = " value

end Conditions

section Records

variable (columns : List ColumnMetadata) (dialect : Dialect)

/-- `resolveColumn`. -/
def resolveColumn (field : String) : Option ColumnMetadata :=
  columns.find? fun column => column.propertyName = field || column.columnName = field

/-- The condition that an entry of a filter record stands for. -/
def renderEntry (field : String) (value : Data) : Option SqlQuery :=
  let column := resolveColumn columns field
  renderFilter ((column.map ColumnMetadata.columnName).getD field) column dialect value

/-- The entries of what is not an object, whose keys are positions. -/
def positionEntries : Data → Option (List (String × Data))
  | .undefined => none
  | .null => none
  | .array items => some (items.zipIdx.map fun item => (toString item.2, item.1))
  | .string value =>
      if value.toList.all fun char => (JsText.codeUnits char).length = 1 then
        some (value.toList.zipIdx.map fun item =>
          (toString item.2, .string (String.singleton item.1)))
      else none
  | .bytes .arrayBuffer _ => some []
  | .bytes _ content =>
      some (content.zipIdx.map fun item =>
        (toString item.2, .number (.finite item.1.toNat)))
  | _ => some []

/-- The clause of a group, from its rendered children. -/
def groupClause (field : String) (rendered : List SqlQuery) : Option (List SqlQuery) :=
  if rendered ≠ [] then do
    let separator : SqlQuery := ⟨[if field = "$and" then " AND " else " OR "], []⟩
    let joined ← join (rendered.map SqlQuery.toValue) separator
    return [← sqlTag ["(", ")"] [joined.toValue]]
  else if field = "$or" then do return [← sqlTag ["1 = 0"] []]
  else some []

/-- The clauses of an entry, from the rendered children it has as a group. -/
def entryClauses (field : String) (value : Data) (rendered : Option (List SqlQuery)) :
    Option (List SqlQuery) :=
  if field = "$and" ∨ field = "$or" then rendered.bind (groupClause field)
  else (renderEntry columns dialect field value).map fun clause => [clause]

/-- The result of a record, from its clauses. -/
def recordClause (clauses : List SqlQuery) : Option (Option SqlQuery) :=
  if clauses ≠ [] then (join (clauses.map SqlQuery.toValue) ⟨[" AND "], []⟩).map some
  else some none

mutual

/-- `renderFilterRecord`, where the inner option is `undefined`. -/
def renderFilterRecord : Data → Option (Option SqlQuery)
  | .object entries => (renderEntries entries).bind recordClause
  | value => do
      let entries ← positionEntries value
      let clauses ← entries.mapM fun entry => renderEntry columns dialect entry.1 entry.2
      recordClause clauses

/-- The loop over the entries of a record. -/
def renderEntries : List (String × Data) → Option (List SqlQuery)
  | [] => some []
  | (field, .array children) :: rest => do
      let clauses ← entryClauses columns dialect field (.array children) (renderChildren children)
      let others ← renderEntries rest
      return clauses ++ others
  | (field, value) :: rest => do
      let clauses ← entryClauses columns dialect field value (some [])
      let others ← renderEntries rest
      return clauses ++ others

/-- The children of a group that have a clause. -/
def renderChildren : List Data → Option (List SqlQuery)
  | [] => some []
  | child :: rest => do
      let rendered ← renderFilterRecord child
      let others ← renderChildren rest
      return rendered.toList ++ others

end

/-- `Object.hasOwn(value, key)`. -/
def Data.hasOwn (value : Data) (key : String) : Bool := (value.get? key).isSome

/-- `patchRecord.$inc`, if it is a record. -/
def incPatch (patch : Data) : Option Data :=
  match patch.get? "$inc" with
  | some (.object entries) => some (.object entries)
  | some (.date fields) => some (.date fields)
  | some (.bytes holder content) => some (.bytes holder content)
  | _ => none

/-- Whether the increments name a column. -/
def increments (patch : Data) (column : ColumnMetadata) : Bool :=
  ((incPatch patch).map fun increment => increment.hasOwn column.propertyName).getD false

/-- The columns that a patch writes. -/
def updateColumns (patch : Data) : List ColumnMetadata :=
  columns.filter (fun column => patch.hasOwn column.propertyName) ++
    columns.filter fun column =>
      !column.primaryKey && !patch.hasOwn column.propertyName && increments patch column

/-- The assignment to one column. -/
def renderAssignment (patch : Data) (column : ColumnMetadata) : Option SqlQuery := do
  let name ← identifier [column.columnName]
  if increments patch column then
    let increment := ((incPatch patch).bind fun found => found.get? column.propertyName).getD
      .undefined
    sqlTag ["", " = ", " + ", ""] [name, name, .data increment]
  else do
    let value := (patch.get? column.propertyName).getD .undefined
    let serialized ← serializeColumnValue (some column) value dialect
    sqlTag ["", " = ", ""] [name, serialized]

/-- `renderPatchSet`, where the inner option is `undefined`. -/
def renderPatchSet (patch : Data) : Option (Option SqlQuery) :=
  if columns.any fun column =>
      column.generated && (patch.hasOwn column.propertyName || increments patch column) then none
  else if updateColumns columns patch = [] then some none
  else do
    let assignments ← (updateColumns columns patch).mapM (renderAssignment dialect patch)
    (join (assignments.map SqlQuery.toValue) comma).map some

end Records

end ServerFoundation.Sql
