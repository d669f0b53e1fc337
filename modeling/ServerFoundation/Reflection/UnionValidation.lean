import ServerFoundation.Reflection.Validation

/-!
# Validation of unions

A value is valid for a union when it is valid for a branch, as long as neither a
foundation type nor a validation annotation of one branch is applied to what another
branch accepts.
-/

namespace ServerFoundation.Reflection

section Union

variable {environment : Environment} {metadata : TypeMetadata} {types : List ReflectedType}
  {only branch : ReflectedType} {value : Value}

/-- `validateValue` finds no error. -/
def Accepts (environment : Environment) (value : Value) (type : ReflectedType) : Prop :=
  validateValue environment value type "" = []

/-- A value is accepted by the union exactly if a branch accepts it. -/
def IsDisjunction (environment : Environment) (metadata : TypeMetadata)
    (types : List ReflectedType) (value : Value) : Prop :=
  Accepts environment value (.union metadata types) ↔
    ∃ branch ∈ types, Accepts environment value branch

/-- The branches of a union beside `undefined` and `null`. -/
def concreteBranches (types : List ReflectedType) : List ReflectedType :=
  types.filter fun item => !item.isAbsent

/--
No branch reaches across to the others: a union with a single branch beside
`undefined` and `null` has no annotations on those two; any other has no foundation
type on its surface, and the value passes the annotations found there.
-/
def Undisturbed (environment : Environment) (metadata : TypeMetadata) (types : List ReflectedType)
    (value : Value) : Prop :=
  match concreteBranches types with
  | [_] => ∀ branch ∈ types, branch.isAbsent = true →
      branch.metadata.validation.getD [] = [] ∧ branch.annotation? "tsf:type" = none
  | _ => knownPrimitiveKind environment (.union metadata types) = none ∧
      checkAnnotations environment (.union metadata types) value "" = []

theorem allows_union_iff (absent : Primitive) (metadata : TypeMetadata)
    (types : List ReflectedType) :
    (ReflectedType.union metadata types).allows absent = true ↔
      ∃ branch ∈ types, branch.allows absent = true := by
  simp only [ReflectedType.allows]
  induction types with
  | nil => simp [ReflectedType.allows.allowsSome]
  | cons type rest ih => simp [ReflectedType.allows.allowsSome, ih]

theorem accepts_undefined_iff (type : ReflectedType) :
    Accepts environment .undefined type ↔ type.allowsUndefined = true := by
  rw [Accepts, validateValue]
  simp [Value.isUndefined]

theorem accepts_null_iff (type : ReflectedType) :
    Accepts environment .null type ↔ type.allowsNull = true := by
  rw [Accepts, validateValue]
  simp [Value.isUndefined, Value.isNull]

theorem unionErrors_eq_nil_iff (branches : List (List ValidatorError)) (path : String) :
    unionErrors branches path = [] ↔ ∃ branch ∈ branches, branch = [] := by
  simp only [unionErrors]
  split
  · rename_i empty
    simpa using empty
  · rename_i noEmpty
    have none : ¬∃ branch ∈ branches, branch = [] := by simpa using noEmpty
    simp only [none, iff_false]
    split
    · simp
    · rename_i best
      exact best

theorem unwrapValueType_union_of_several (several : ∀ only, concreteBranches types ≠ [only]) :
    unwrapValueType environment (.union metadata types) = .union metadata types := by
  simp only [unwrapValueType, unwrapWith]
  split
  · rename_i only single
    exact absurd single (several only)
  · rfl

theorem unwrapConcrete_of_single {literalProperties : ReflectedType → List Property}
    {whole : ReflectedType} (single : concreteBranches types = [only]) :
    unwrapConcrete literalProperties whole types = unwrapWith literalProperties only := by
  induction types with
  | nil => simp [concreteBranches] at single
  | cons type rest ih =>
      simp only [unwrapConcrete]
      split
      · rename_i absent
        exact ih (by simpa [concreteBranches, absent] using single)
      · rename_i present
        have head : type = only := by
          simp only [concreteBranches, List.filter_cons, present, Bool.not_false, ↓reduceIte,
            List.cons.injEq] at single
          exact single.1
        rw [head]

theorem unwrapValueType_union_of_single (single : concreteBranches types = [only]) :
    unwrapValueType environment (.union metadata types) = unwrapValueType environment only := by
  have filtered : (types.filter fun item => !item.isAbsent) = [only] := single
  simp only [unwrapValueType, unwrapWith, filtered]
  exact unwrapConcrete_of_single single

theorem accepts_union_iff (proper : value.isUndefined = false) (notNull : value.isNull = false)
    (several : ∀ only, concreteBranches types ≠ [only])
    (unknown : knownPrimitiveKind environment (.union metadata types) = none) :
    Accepts environment value (.union metadata types) ↔
      (∃ branch ∈ types, Accepts environment value branch) ∧
        checkAnnotations environment (.union metadata types) value "" = [] := by
  rw [Accepts, validateValue_of_proper proper notNull, unwrapValueType_union_of_several several]
  simp only [structureErrors, unknown, List.append_eq_nil_iff, unionErrors_eq_nil_iff,
    ReflectedType.branches, List.mem_map, exists_exists_and_eq_and]
  rfl

theorem not_accepts_absent (absent : branch.isAbsent = true)
    (unmarked : branch.annotation? "tsf:type" = none) (proper : value.isUndefined = false)
    (notNull : value.isNull = false) : ¬Accepts environment value branch := by
  rw [Accepts, validateValue_of_proper proper notNull]
  cases branch with
  | primitive metadata kind =>
      have unwrapped : unwrapValueType environment (.primitive metadata kind) =
          .primitive metadata kind := rfl
      have unknown : knownPrimitiveKind environment (.primitive metadata kind) = none := by
        simp [knownPrimitiveKind, typeAnnotation, ReflectedType.surface, unmarked,
          typiaTagTypeAnnotation, readTypiaTag]
      rw [unwrapped]
      cases kind with
      | undefined => simp [structureErrors, unknown, typeError]
      | null => simp [structureErrors, unknown, typeError]
      | _ => simp [ReflectedType.isAbsent] at absent
  | _ => simp [ReflectedType.isAbsent] at absent

theorem surface_of_absent (absent : branch.isAbsent = true) : branch.surface = [branch] := by
  cases branch with
  | primitive _ _ => rfl
  | _ => simp [ReflectedType.isAbsent] at absent

theorem ownAnnotations_of_absent (absent : branch.isAbsent = true)
    (bare : branch.metadata.validation.getD [] = []) : ownAnnotations environment branch = [] := by
  cases branch with
  | primitive _ _ => simp [ownAnnotations, bare, typiaTagValidationAnnotation, readTypiaTag]
  | _ => simp [ReflectedType.isAbsent] at absent

theorem surfaceAnnotations_of_single (single : concreteBranches types = [only])
    (bare : ∀ branch ∈ types, branch.isAbsent = true → branch.metadata.validation.getD [] = []) :
    (ReflectedType.surfaces types).flatMap (ownAnnotations environment) =
      surfaceAnnotations environment only := by
  have absentOnly : ∀ rest : List ReflectedType, concreteBranches rest = [] →
      (∀ branch ∈ rest, branch.isAbsent = true → branch.metadata.validation.getD [] = []) →
      (ReflectedType.surfaces rest).flatMap (ownAnnotations environment) = [] := by
    intro rest none restBare
    induction rest with
    | nil => rfl
    | cons branch others ih =>
        have absent : branch.isAbsent = true := by
          by_contra present
          simp [concreteBranches, present] at none
        have onwards := ih (by simpa [concreteBranches, absent] using none) fun found member =>
          restBare found (List.mem_cons_of_mem _ member)
        simp [ReflectedType.surfaces, surface_of_absent absent, onwards,
          ownAnnotations_of_absent absent (restBare branch (by simp) absent)]
  induction types with
  | nil => simp [concreteBranches] at single
  | cons branch rest ih =>
      have restBare := fun found member => bare found (List.mem_cons_of_mem _ member)
      by_cases absent : branch.isAbsent = true
      · have onwards := ih (by simpa [concreteBranches, absent] using single) restBare
        simp [ReflectedType.surfaces, surface_of_absent absent, onwards,
          ownAnnotations_of_absent absent (bare branch (by simp) absent)]
      · have parts : branch = only ∧ concreteBranches rest = [] := by
          simpa [concreteBranches, absent] using single
        simp [ReflectedType.surfaces, parts.1, absentOnly rest parts.2 restBare,
          surfaceAnnotations]

theorem validateValue_union_of_single (proper : value.isUndefined = false)
    (notNull : value.isNull = false) (single : concreteBranches types = [only])
    (unannotated : metadata.validation = none)
    (bare : ∀ branch ∈ types, branch.isAbsent = true → branch.metadata.validation.getD [] = []) :
    validateValue environment value (.union metadata types) "" =
      validateValue environment value only "" := by
  have annotations : checkAnnotations environment (.union metadata types) value "" =
      checkAnnotations environment only value "" := by
    have own : ownAnnotations environment (.union metadata types) = [] := by
      simp [ownAnnotations, ReflectedType.metadata, unannotated, typiaTagValidationAnnotation,
        readTypiaTag]
    simp only [checkAnnotations, getAnnotations, surfaceAnnotations, ReflectedType.surface,
      List.flatMap_cons, own, List.nil_append, surfaceAnnotations_of_single single bare]
  rw [validateValue_of_proper proper notNull, validateValue_of_proper proper notNull,
    unwrapValueType_union_of_single single, annotations]

theorem isDisjunction_of_absent (absent : value.isUndefined = true ∨ value.isNull = true) :
    IsDisjunction environment metadata types value := by
  cases value with
  | undefined =>
      simp only [IsDisjunction, accepts_undefined_iff, ReflectedType.allowsUndefined,
        allows_union_iff]
  | null => simp only [IsDisjunction, accepts_null_iff, ReflectedType.allowsNull, allows_union_iff]
  | _ => simp [Value.isUndefined, Value.isNull] at absent

/-- A union without annotations of its own validates as the disjunction of its branches at `null`
and `undefined`, and wherever no branch reaches across to the others. -/
theorem isDisjunction_of_undisturbed {metadata : TypeMetadata} {types : List ReflectedType}
    (unannotated : metadata.annotations = none ∧ metadata.validation = none) (value : Value) :
    (value.isUndefined = true ∨ value.isNull = true ∨
          Undisturbed environment metadata types value →
        IsDisjunction environment metadata types value) ∧
      (value.isUndefined = false → value.isNull = false →
        (∀ only, concreteBranches types ≠ [only]) →
        knownPrimitiveKind environment (.union metadata types) = none →
        checkAnnotations environment (.union metadata types) value "" ≠ [] →
        (IsDisjunction environment metadata types value ↔
          ∀ branch ∈ types, ¬Accepts environment value branch)) := by
  constructor
  · intro condition
    by_cases absent : value.isUndefined = true ∨ value.isNull = true
    · exact isDisjunction_of_absent absent
    have undisturbed := (or_assoc.mpr condition).resolve_left absent
    simp only [not_or, Bool.not_eq_true] at absent
    simp only [Undisturbed] at undisturbed
    split at undisturbed
    · rename_i only single
      have bare := fun branch member absent => (undisturbed branch member absent).1
      have chosen : only ∈ concreteBranches types := single ▸ List.mem_singleton_self only
      have inside : only ∈ types := (List.mem_filter.mp chosen).1
      rw [IsDisjunction, Accepts,
        validateValue_union_of_single absent.1 absent.2 single unannotated.2 bare]
      refine ⟨fun accepted => ⟨only, inside, accepted⟩, ?_⟩
      rintro ⟨branch, member, accepted⟩
      by_cases absentBranch : branch.isAbsent = true
      · exact absurd accepted (not_accepts_absent absentBranch
          (undisturbed branch member absentBranch).2 absent.1 absent.2)
      · have chosen : branch ∈ concreteBranches types :=
          List.mem_filter.mpr ⟨member, by simpa using absentBranch⟩
        rw [single] at chosen
        rw [← List.mem_singleton.mp chosen]
        exact accepted
    · rename_i several
      rw [IsDisjunction, accepts_union_iff absent.1 absent.2 several undisturbed.1]
      exact and_iff_left undisturbed.2
  · intro proper notNull several unknown rejected
    rw [IsDisjunction, accepts_union_iff proper notNull several unknown]
    constructor
    · intro disjunction branch member accepted
      exact rejected (disjunction.mpr ⟨branch, member, accepted⟩).2
    · intro none
      constructor
      · exact fun both => both.1
      · rintro ⟨branch, member, accepted⟩
        exact absurd accepted (none branch member)

end Union

/-- `string`. -/
def plainString : ReflectedType := .primitive .bare .string

/-- `number`. -/
def plainNumber : ReflectedType := .primitive .bare .number

/-- `string & MinLength<5>`. -/
def longText : ReflectedType :=
  .intersection .bare [plainString,
    .primitive ⟨none, none, some [⟨"minLength", [⟨10, none, some (.number (.finite 5)), none⟩]⟩],
      false⟩ .unknown]

/-- `(string & MinLength<5>) | number` at a text that is long enough, and at `null`. -/
theorem isDisjunction_longText_or_number :
    IsDisjunction .empty .bare [longText, plainNumber] (.string "abcdef") ∧
      Accepts .empty (.string "abcdef") (.union .bare [longText, plainNumber]) ∧
      IsDisjunction .empty .bare [longText, plainNumber] .null := by
  have undisturbed : Undisturbed .empty .bare [longText, plainNumber] (.string "abcdef") := by
    refine ⟨?_, ?_⟩
    all_goals decide +kernel
  have unwrapped : unwrapValueType .empty longText = plainString := by
    simp [longText, plainString, unwrapValueType, unwrapWith, unwrapMeaningful, mergedLiteral,
      isObjectLiteralIntersection, allObjectLiterals, isMarkerType, ReflectedType.metadata,
      TypeMetadata.bare, isBareKnownMarkerType, isTypiaTagOnlyObject]
  have accepted : Accepts .empty (.string "abcdef") longText := by
    rw [Accepts, validateValue_of_proper rfl rfl, unwrapped]
    decide +kernel
  have disjunction :=
    (isDisjunction_of_undisturbed ⟨rfl, rfl⟩ (.string "abcdef")).1 (.inr (.inr undisturbed))
  exact ⟨disjunction, disjunction.mpr ⟨longText, by simp, accepted⟩,
    (isDisjunction_of_undisturbed ⟨rfl, rfl⟩ .null).1 (.inr (.inl rfl))⟩

/-- `(string & MinLength<5>) | 'abc'` rejects `'abc'`. -/
theorem not_isDisjunction_longText_or_literal :
    ¬IsDisjunction .empty .bare [longText, .literal .bare (.string "abc")]
      (.string "abc") := by
  have accepted : Accepts .empty (.string "abc") (.literal .bare (.string "abc")) := by
    rw [Accepts, validateValue_of_proper rfl rfl]
    decide +kernel
  have unknown : knownPrimitiveKind .empty
      (.union .bare [longText, .literal .bare (.string "abc")]) = none := by decide +kernel
  have several : ∀ only, concreteBranches [longText, .literal .bare (.string "abc")] ≠ [only] := by
    intro only single
    simpa [concreteBranches, longText, ReflectedType.isAbsent] using congrArg List.length single
  have rejected : checkAnnotations .empty
      (.union .bare [longText, .literal .bare (.string "abc")]) (.string "abc") "" ≠ [] := by
    decide +kernel
  intro disjunction
  have both := disjunction.mpr ⟨_, by simp, accepted⟩
  exact rejected ((accepts_union_iff rfl rfl several unknown).mp both).2

end ServerFoundation.Reflection
