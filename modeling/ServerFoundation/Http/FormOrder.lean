import ServerFoundation.Http.FormAssembly

/-!
# The order of form fields

Fields are accepted when they are not too many, their names can be read, no two paths
conflict, and no array has a hole. None of this depends on the order across paths, and
neither does the assembled value.
-/

namespace ServerFoundation.Http

open PathFamily

variable {Value : Type}

/-- The field has a name that is read as this path. -/
def Names (limits : FormBodyLimits) (path : List FormPathToken) (field : String × Value) : Prop :=
  parseFormFieldPath field.1 limits = .ok path

instance (limits : FormBodyLimits) (path : List FormPathToken) (field : String × Value) :
    Decidable (Names limits path field) :=
  match result : parseFormFieldPath field.1 limits with
  | .ok found => decidable_of_iff (found = path) (by simp [Names, result])
  | .error _ => .isFalse (by simp [Names, result])

/-- The values of a form under their paths. -/
def namedValues (limits : FormBodyLimits) (fields : List (String × Value)) :
    PathFamily FormPathToken Value :=
  fields.filterMap fun field =>
    match parseFormFieldPath field.1 limits with
    | .ok path => some (path, field.2)
    | .error _ => none

/-- No two of the fields exclude each other. -/
structure Compatible (limits : FormBodyLimits) (fields : List (String × Value)) : Prop where
  count : fields.length ≤ limits.maxFormFields
  named : ∀ field ∈ fields, ∃ path, Names limits path field
  apart : (namedValues limits fields).Pairwise fun first second => ¬Conflict first.1 second.1

/-- The builder has taken the fields. -/
structure Filled (limits : FormBodyLimits) (fields : List (String × Value))
    (builder : FormBodyBuilder Value) : Prop where
  limits_eq : builder.limits = limits
  count : builder.structureCount = fields.length
  kind : builder.root.kind = .object
  describes : Describes builder.root (namedValues limits fields)

section Families

variable {limits : FormBodyLimits} {fields other : List (String × Value)}
  {path : List FormPathToken}

theorem namedValues_append :
    namedValues limits (fields ++ other) = namedValues limits fields ++ namedValues limits other :=
  List.filterMap_append

theorem namedValues_singleton {field : String × Value} (named : Names limits path field) :
    namedValues limits [field] = [(path, field.2)] := by
  have parsed : parseFormFieldPath field.1 limits = .ok path := named
  simp [namedValues, parsed]

theorem mem_namedValues_iff {value : Value} :
    (path, value) ∈ namedValues limits fields ↔
      ∃ field ∈ fields, Names limits path field ∧ field.2 = value := by
  simp only [namedValues, List.mem_filterMap]
  constructor
  · rintro ⟨field, member, found⟩
    split at found
    · rename_i parsed
      simp only [Option.some.injEq, Prod.mk.injEq] at found
      exact ⟨field, member, found.1 ▸ parsed, found.2⟩
    · cases found
  · rintro ⟨field, member, named, rfl⟩
    have parsed : parseFormFieldPath field.1 limits = .ok path := named
    exact ⟨field, member, by simp [parsed]⟩

theorem valuesAt_namedValues (path : List FormPathToken) (fields : List (String × Value)) :
    valuesAt path (namedValues limits fields) =
      (fields.filter fun field => Names limits path field).map Prod.snd := by
  induction fields with
  | nil => rfl
  | cons field fields ih =>
      simp only [valuesAt, namedValues, List.filterMap_cons, List.filter_cons, Names] at ih ⊢
      split
      · rename_i unnamed
        split at unnamed
        · cases unnamed
        · rename_i failed
          simp only [failed, reduceCtorEq, decide_false, Bool.false_eq_true, if_false]
          exact ih
      · rename_i entry isEntry
        split at isEntry
        · rename_i found parsed
          cases isEntry
          by_cases same : found = path
          · simp [parsed, same, ih]
          · simp [parsed, same, ih]
        · cases isEntry

end Families

section Acceptance

variable {limits : FormBodyLimits} {field : String × Value} {after : FormBodyBuilder Value}
  {more : List (String × Value)}

theorem names_shape {path : List FormPathToken} (named : Names limits path field) :
    (∃ name rest, path = .property name :: rest) ∧ .append ∉ path.dropLast := by
  rcases parseFormFieldPath_ok_iff.mp named with ⟨root, tokens, rfl, isPath⟩
  exact ⟨⟨root, tokens, rfl⟩, fun member =>
    isPath.terminal (mem_dropLast_property_cons_iff.mp member)⟩

theorem Filled.create (limits : FormBodyLimits) :
    Filled limits [] (FormBodyBuilder.create limits : FormBodyBuilder Value) where
  limits_eq := rfl
  count := rfl
  kind := rfl
  describes := .createNode (.property "")

variable {fields : List (String × Value)} {builder : FormBodyBuilder Value}

theorem add_eq_ok_iff :
    builder.add field = .ok after ↔
      builder.structureCount + 1 ≤ builder.limits.maxFormFields ∧
        ∃ path, Names builder.limits path field ∧
          ∃ root, insertValue field.1 builder.root path field.2 = .ok root ∧
            after = ⟨builder.limits, root, builder.structureCount + 1⟩ := by
  unfold FormBodyBuilder.add FormBodyBuilder.consumeStructure
  by_cases full : builder.limits.maxFormFields < builder.structureCount + 1
  · simp [full, Nat.not_le.mpr full]
  · simp only [full, if_false, bind_eq_ok_iff, Except.ok.injEq, exists_eq_left', pure, Except.pure,
      Names, Nat.not_lt.mp full, true_and, @eq_comm _ after]

theorem Filled.add (filled : Filled limits fields builder) (added : builder.add field = .ok after) :
    Filled limits (fields ++ [field]) after := by
  rcases add_eq_ok_iff.mp added with ⟨-, path, named, root, inserted, rfl⟩
  rw [filled.limits_eq] at named
  have describes : Describes root (namedValues limits (fields ++ [field])) := by
    rw [namedValues_append, namedValues_singleton named]
    exact filled.describes.insertValue inserted
  have member : (path, field.2) ∈ namedValues limits (fields ++ [field]) :=
    mem_namedValues_iff.mpr ⟨field, by simp, named, rfl⟩
  rcases names_shape named with ⟨⟨name, rest, rfl⟩, -⟩
  exact ⟨filled.limits_eq, by simp [filled.count], describes.kind_eq member, describes⟩

theorem Filled.add_iff (filled : Filled limits fields builder)
    (compatible : Compatible limits fields) :
    (∃ after, builder.add field = .ok after) ↔ Compatible limits (fields ++ [field]) := by
  have inserts : ∀ {path}, Names limits path field →
      ((∃ root, insertValue field.1 builder.root path field.2 = .ok root) ↔
        ∀ entry ∈ namedValues limits fields, ¬Conflict entry.1 path) := by
    intro path named
    rcases names_shape named with ⟨⟨name, rest, rfl⟩, terminal⟩
    exact filled.describes.insertValue_ok_iff (List.cons_ne_nil _ _) terminal filled.kind
  constructor
  · rintro ⟨after, added⟩
    rcases add_eq_ok_iff.mp added with ⟨count, path, named, root, inserted, -⟩
    rw [filled.limits_eq, filled.count] at count
    rw [filled.limits_eq] at named
    refine ⟨by simpa using count, ?_, ?_⟩
    · exact List.forall_mem_append.mpr
        ⟨compatible.named, List.forall_mem_singleton.mpr ⟨path, named⟩⟩
    · rw [namedValues_append, namedValues_singleton named, List.pairwise_append]
      refine ⟨compatible.apart, List.pairwise_singleton _ _, fun entry member => ?_⟩
      exact List.forall_mem_singleton.mpr ((inserts named).mp ⟨root, inserted⟩ entry member)
  · intro all
    rcases all.named field (by simp) with ⟨path, named⟩
    have apart := all.apart
    rw [namedValues_append, namedValues_singleton named, List.pairwise_append] at apart
    rcases (inserts named).mpr fun entry member => apart.2.2 entry member _ List.mem_cons_self with
      ⟨root, inserted⟩
    refine ⟨_, add_eq_ok_iff.mpr ⟨?_, path, ?_, root, inserted, rfl⟩⟩
    · rw [filled.limits_eq, filled.count]
      simpa using all.count
    · rw [filled.limits_eq]
      exact named

theorem Compatible.of_append {other : List (String × Value)}
    (compatible : Compatible limits (fields ++ other)) : Compatible limits fields where
  count := by
    have count := compatible.count
    rw [List.length_append] at count
    omega
  named field member := compatible.named field (List.mem_append_left _ member)
  apart := by
    have apart := compatible.apart
    rw [namedValues_append, List.pairwise_append] at apart
    exact apart.1

theorem Filled.foldlM (filled : Filled limits fields builder)
    (taken : more.foldlM FormBodyBuilder.add builder = .ok after) :
    Filled limits (fields ++ more) after := by
  induction more generalizing fields builder with
  | nil =>
      cases taken
      rwa [List.append_nil]
  | cons field more ih =>
      rw [List.foldlM_cons, bind_eq_ok_iff] at taken
      rcases taken with ⟨next, added, rest⟩
      have filledRest := ih (filled.add added) rest
      rwa [List.append_assoc] at filledRest

theorem Filled.foldlM_iff (filled : Filled limits fields builder)
    (compatible : Compatible limits fields) :
    (∃ after, more.foldlM FormBodyBuilder.add builder = .ok after) ↔
      Compatible limits (fields ++ more) := by
  induction more generalizing fields builder with
  | nil =>
      rw [List.append_nil]
      exact iff_of_true ⟨builder, rfl⟩ compatible
  | cons field more ih =>
      simp only [List.foldlM_cons, bind_eq_ok_iff]
      have shift : fields ++ field :: more = fields ++ [field] ++ more := by simp
      rw [shift]
      constructor
      · rintro ⟨after, next, added, rest⟩
        exact (ih (filled.add added) ((filled.add_iff compatible).mp ⟨next, added⟩)).mp
          ⟨after, rest⟩
      · intro all
        rcases (filled.add_iff compatible).mpr all.of_append with ⟨next, added⟩
        rcases (ih (filled.add added) all.of_append).mpr all with ⟨after, rest⟩
        exact ⟨after, next, added, rest⟩

theorem Compatible.nil (limits : FormBodyLimits) :
    Compatible limits ([] : List (String × Value)) :=
  ⟨Nat.zero_le _, fun _ member => absurd member List.not_mem_nil, List.Pairwise.nil⟩

theorem assembleForm_ok_iff :
    (∃ form, assembleForm limits fields = .ok form) ↔
      Compatible limits fields ∧ NoHoles (namedValues limits fields) := by
  unfold assembleForm
  simp only [bind_eq_ok_iff]
  constructor
  · rintro ⟨form, builder, taken, built⟩
    have compatible : Compatible limits ([] ++ fields) :=
      ((Filled.create limits).foldlM_iff (.nil limits)).mp ⟨builder, taken⟩
    have filled : Filled limits ([] ++ fields) builder := (Filled.create limits).foldlM taken
    exact ⟨compatible, (filled.describes.builds (.inr filled.kind) built).noHoles⟩
  · rintro ⟨compatible, noHoles⟩
    rcases ((Filled.create limits).foldlM_iff (.nil limits)).mpr compatible with ⟨builder, taken⟩
    have filled : Filled limits ([] ++ fields) builder := (Filled.create limits).foldlM taken
    rcases filled.describes.exists_materializeNode noHoles "" with ⟨form, built⟩
    exact ⟨form, builder, taken, built⟩

theorem builds_of_assembleForm {form : FormValue Value}
    (assembled : assembleForm limits fields = .ok form) :
    Builds (namedValues limits fields) form := by
  rcases bind_eq_ok_iff.mp assembled with ⟨builder, taken, built⟩
  have filled : Filled limits ([] ++ fields) builder := (Filled.create limits).foldlM taken
  exact filled.describes.builds (.inr filled.kind) built

end Acceptance

section Order

variable {limits : FormBodyLimits} {fields other : List (String × Value)}

/-- The values of the fields of one path. -/
def valuesOf (limits : FormBodyLimits) (path : List FormPathToken)
    (fields : List (String × Value)) : List Value :=
  (fields.filter fun field => Names limits path field).map Prod.snd

/-- A field goes through the position. -/
def Reaches (limits : FormBodyLimits) (fields : List (String × Value))
    (position : List FormPathToken) : Prop :=
  ∃ field ∈ fields, ∃ path, Names limits path field ∧ position <+: path

/-- Every path has its values at its place, nothing else is a value, and the indices named at a
position are those of one array. -/
structure HoldsFields (limits : FormBodyLimits) (fields : List (String × Value))
    (form : FormValue Value) : Prop where
  named : ∀ field ∈ fields, ∃ path, Names limits path field
  placed : ∀ path, (∃ field ∈ fields, Names limits path field) →
    form.valueAt (place path) = some (heldBy path (valuesOf limits path fields))
  only : ∀ position value, form.valueAt position = some (.value value) →
    ∃ path,
      position = place path ∧ .append ∉ path ∧ valuesOf limits path fields = [value] ∨
      ∃ turn, position = place path ++ [.index turn] ∧
        (.append ∈ path ∨ (valuesOf limits path fields).length ≠ 1) ∧
        (valuesOf limits path fields)[turn]? = some value
  noHoles : ∀ path position, Reaches limits fields (path ++ [.index position]) →
    ∃ items, form.valueAt path = some (.array items) ∧
      ∀ index, index < items.length ↔ Reaches limits fields (path ++ [.index index])

/-- The other list has the fields in another order, but those of one path in the same order. -/
structure Reordered (limits : FormBodyLimits) (fields other : List (String × Value)) : Prop where
  perm : fields.Perm other
  samePath : ∀ path, (fields.filter fun field => Names limits path field) =
    other.filter fun field => Names limits path field

theorem reaches_iff {position : List FormPathToken} :
    Reaches limits fields position ↔
      ∃ entry ∈ namedValues limits fields, position <+: entry.1 := by
  constructor
  · rintro ⟨field, member, path, named, isPrefix⟩
    exact ⟨_, mem_namedValues_iff.mpr ⟨field, member, named, rfl⟩, isPrefix⟩
  · rintro ⟨⟨path, value⟩, member, isPrefix⟩
    rcases mem_namedValues_iff.mp member with ⟨field, isField, named, -⟩
    exact ⟨field, isField, path, named, isPrefix⟩

theorem Compatible.perm (compatible : Compatible limits fields) (perm : fields.Perm other) :
    Compatible limits other where
  count := perm.length_eq ▸ compatible.count
  named field member := compatible.named field (perm.mem_iff.mpr member)
  apart := by
    have permEntries := perm.filterMap fun field =>
      match parseFormFieldPath field.1 limits with
      | .ok path => some (path, field.2)
      | .error _ => none
    refine (permEntries.pairwise_iff fun apart conflict => ?_).mp compatible.apart
    exact apart ((conflict_comm _ _).mp conflict)

section

variable (reordered : Reordered limits fields other)
include reordered

theorem Reordered.agree :
    Agree (namedValues limits fields) (namedValues limits other) := fun path => by
  rw [valuesAt_namedValues, valuesAt_namedValues, reordered.samePath]

theorem Reordered.symm : Reordered limits other fields :=
  ⟨reordered.perm.symm, fun path => (reordered.samePath path).symm⟩

theorem Reordered.exists_assembleForm {form : FormValue Value}
    (assembled : assembleForm limits fields = .ok form) :
    ∃ form', assembleForm limits other = .ok form' := by
  rcases assembleForm_ok_iff.mp ⟨form, assembled⟩ with ⟨compatible, noHoles⟩
  refine assembleForm_ok_iff.mpr ⟨compatible.perm reordered.perm, ?_⟩
  intro path position named earlier isEarlier
  simp only [← reordered.agree.mem_iff] at named ⊢
  exact noHoles path position named earlier isEarlier

theorem Reordered.assembleForm :
    (∃ first second, Http.assembleForm limits fields = .error first ∧
        Http.assembleForm limits other = .error second) ∨
      ∃ form form', Http.assembleForm limits fields = .ok form ∧
        Http.assembleForm limits other = .ok form' ∧ SameForm form form' := by
  cases assembled : Http.assembleForm limits fields with
  | error first =>
      cases assembledOther : Http.assembleForm limits other with
      | error second => exact .inl ⟨first, second, rfl, rfl⟩
      | ok form =>
          rcases reordered.symm.exists_assembleForm assembledOther with ⟨form', assembled'⟩
          rw [assembled] at assembled'
          cases assembled'
  | ok form =>
      rcases reordered.exists_assembleForm assembled with ⟨form', assembled'⟩
      refine .inr ⟨form, form', rfl, assembled', ?_⟩
      exact (builds_of_assembleForm assembled).sameForm (builds_of_assembleForm assembled')
        reordered.agree

end

theorem holdsFields_of_assembleForm {form : FormValue Value}
    (assembled : Http.assembleForm limits fields = .ok form) : HoldsFields limits fields form where
  named := (assembleForm_ok_iff.mp ⟨form, assembled⟩).1.named
  placed path := by
    rintro ⟨field, member, named⟩
    rw [valuesOf, ← valuesAt_namedValues]
    apply (builds_of_assembleForm assembled).valueAt_place
    exact valuesAt_ne_nil_iff.mpr ⟨field.2, mem_namedValues_iff.mpr ⟨field, member, named, rfl⟩⟩
  only position value found := by
    simp only [valuesOf, ← valuesAt_namedValues]
    exact (builds_of_assembleForm assembled).exists_path found
  noHoles path position reached := by
    rw [reaches_iff] at reached
    simp only [reaches_iff]
    exact (builds_of_assembleForm assembled).array_at reached

/-- The order of the fields across paths does not matter, and an accepted form holds its fields. -/
theorem formBody_orderIndependent (reordered : Reordered limits fields other) :
    ((∃ first second, assembleForm limits fields = .error first ∧
        assembleForm limits other = .error second) ∨
      ∃ form form', assembleForm limits fields = .ok form ∧
        assembleForm limits other = .ok form' ∧ SameForm form form') ∧
      ∀ form, assembleForm limits fields = .ok form → HoldsFields limits fields form :=
  ⟨reordered.assembleForm, fun _ => holdsFields_of_assembleForm⟩

theorem Reordered.swap {first second : String × Value} (rest : List (String × Value))
    (apart : ∀ path, Names limits path first → ¬Names limits path second) :
    Reordered limits (first :: second :: rest) (second :: first :: rest) where
  perm := .swap _ _ _
  samePath path := by
    by_cases named : Names limits path first
    · simp [named, apart path named]
    · simp [List.filter_cons, named]

/-- `list[1]=y&list[0]=x&tag=p&tag=q`, and the items of the list the other way round. -/
theorem formBody_orderIndependent_list :
    ∃ form form',
      assembleForm defaultFormBodyLimits
          [("list[1]", "y"), ("list[0]", "x"), ("tag", "p"), ("tag", "q")] = .ok form ∧
        assembleForm defaultFormBodyLimits
          [("list[0]", "x"), ("list[1]", "y"), ("tag", "p"), ("tag", "q")] = .ok form' ∧
        SameForm form form' := by
  have second : parseFormFieldPath "list[1]" defaultFormBodyLimits =
      .ok [.property "list", .index 1] := by decide +kernel
  have first : parseFormFieldPath "list[0]" defaultFormBodyLimits =
      .ok [.property "list", .index 0] := by decide +kernel
  have reordered : Reordered defaultFormBodyLimits
      [("list[1]", "y"), ("list[0]", "x"), ("tag", "p"), ("tag", "q")]
      [("list[0]", "x"), ("list[1]", "y"), ("tag", "p"), ("tag", "q")] := by
    refine .swap _ fun path isSecond isFirst => ?_
    have same := Except.ok.inj (isSecond.symm.trans second)
    rw [same] at isFirst
    have clash := Except.ok.inj (isFirst.symm.trans first)
    simp at clash
  have accepted : (assembleForm defaultFormBodyLimits
      [("list[1]", "y"), ("list[0]", "x"), ("tag", "p"), ("tag", "q")]).toOption.isSome = true := by
    decide +kernel
  rcases (formBody_orderIndependent reordered).1 with ⟨error, -, rejected, -⟩ | same
  · rw [rejected] at accepted
    cases accepted
  · exact same

end Order

end ServerFoundation.Http
