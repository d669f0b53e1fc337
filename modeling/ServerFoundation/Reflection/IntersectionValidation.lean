import Mathlib.Data.List.Flatten
import ServerFoundation.Reflection.UnionValidation

/-!
# Validation of intersections

An intersection is validated as the one type it unwraps to, with the annotations of
its surface. It is the conjunction of its members where nothing of them is lost on
the way: the merged object literal keeps every property when the members declare
different ones, but no index signature; otherwise only one member is kept.
-/

namespace ServerFoundation.Reflection

section Leaves

variable {member : ReflectedType} {types : List ReflectedType}

mutual

/-- The object literals that an intersection of such merges. -/
def literalLeaves : ReflectedType → List ReflectedType
  | .intersection metadata types =>
      if isMarkerType (.intersection metadata types) then [] else literalLeavesOf types
  | .objectLiteral metadata types index implements =>
      if isMarkerType (.objectLiteral metadata types index implements) then []
      else [.objectLiteral metadata types index implements]
  | _ => []

/-- The object literals of several types. -/
def literalLeavesOf : List ReflectedType → List ReflectedType
  | [] => []
  | type :: rest => literalLeaves type ++ literalLeavesOf rest

end

mutual

theorem collectProperties_eq (literalProperties : ReflectedType → List Property) :
    ∀ type : ReflectedType,
      collectProperties literalProperties type = (literalLeaves type).flatMap literalProperties
  | .intersection metadata types => by
      simp only [collectProperties, literalLeaves]
      split
      · rfl
      · exact collectAll_eq literalProperties types
  | .objectLiteral metadata types index implements => by
      simp only [collectProperties, literalLeaves]
      split
      · rfl
      · simp
  | .primitive _ _ => rfl
  | .literal _ _ => rfl
  | .enum _ _ => rfl
  | .union _ _ => rfl
  | .array _ _ => rfl
  | .tuple _ _ => rfl
  | .class _ _ => rfl
  | .promise _ _ => rfl

theorem collectAll_eq (literalProperties : ReflectedType → List Property) :
    ∀ types : List ReflectedType,
      collectAll literalProperties types = (literalLeavesOf types).flatMap literalProperties
  | [] => rfl
  | type :: rest => by
      simp only [collectAll, literalLeavesOf, List.flatMap_append,
        collectProperties_eq literalProperties type, collectAll_eq literalProperties rest]

end

theorem literalLeaves_sublist (inside : member ∈ types) :
    (literalLeaves member).Sublist (literalLeavesOf types) := by
  induction types with
  | nil => simp at inside
  | cons type rest ih =>
      rcases List.mem_cons.mp inside with rfl | later
      · exact List.sublist_append_left _ _
      · exact (ih later).trans (List.sublist_append_right _ _)

theorem objectLiteral_or_intersection (literals : allObjectLiterals types = true)
    (inside : member ∈ types) (meaningful : isMarkerType member = false) :
    (∃ metadata properties index implements,
      member = .objectLiteral metadata properties index implements) ∨
      isObjectLiteralIntersection member = true := by
  induction types with
  | nil => simp at inside
  | cons type rest ih =>
      rcases List.mem_cons.mp inside with rfl | later
      · cases member with
        | objectLiteral metadata properties index implements =>
            exact Or.inl ⟨_, _, _, _, rfl⟩
        | intersection metadata members =>
            simp only [allObjectLiterals, meaningful, Bool.false_or, Bool.and_eq_true] at literals
            exact Or.inr literals.1
        | _ => simp [allObjectLiterals, meaningful] at literals
      · refine ih ?_ later
        cases type with
        | objectLiteral metadata properties index implements =>
            simpa only [allObjectLiterals] using literals
        | _ =>
            simp only [allObjectLiterals, Bool.and_eq_true] at literals
            exact literals.2

end Leaves

section Conjunction

variable {environment : Environment} {rule : ValidationAnnotation} {type concrete : ReflectedType}
  {value : Value} {types : List ReflectedType} {metadata : TypeMetadata}
  {member : String → TypeId → List ValidatorError} {item : ℕ → TypeId → List ValidatorError}
  {branches : List (List ValidatorError)} {annotationErrors : List ValidatorError}
  {index : Option TypeId} {implements : List TypeId} {annotations : List ValidationAnnotation}
  {path : String}

/-- The members of an intersection that are not markers. -/
def meaningfulMembers (types : List ReflectedType) : List ReflectedType :=
  types.filter fun member => !isMarkerType member

/-- The properties that the object literals of an intersection declare, one after the other. -/
def declaredProperties (environment : Environment) (type : ReflectedType) : List Property :=
  collectProperties (objectLiteralPropertiesFromType environment) type

/--
If the intersection accepts the value, so does every member that is not a marker, and
every annotation attached to a member lets the value pass.
-/
def IsConjunction (environment : Environment) (metadata : TypeMetadata)
    (types : List ReflectedType) (value : Value) : Prop :=
  Accepts environment value (.intersection metadata types) →
    (∀ member ∈ meaningfulMembers types, Accepts environment value member) ∧
      ∀ annotation ∈ surfaceAnnotations environment (.intersection metadata types),
        checkAnnotation environment annotation value "" = []

/--
The merged object literal keeps everything: the properties have different names, none
is a tag, no object literal has an index signature, and no nested intersection is read as
a string or a number by an annotation of its markers.
-/
structure MergesWhole (environment : Environment) (metadata : TypeMetadata)
    (types : List ReflectedType) : Prop where
  distinct : ((declaredProperties environment (.intersection metadata types)).map
    Property.name).Nodup
  untagged : ∀ property ∈ declaredProperties environment (.intersection metadata types),
    property.name ≠ "typia.tag"
  unindexed : ∀ leaf ∈ literalLeaves (.intersection metadata types),
    objectLiteralIndexType environment leaf = none
  untyped : ∀ member ∈ meaningfulMembers types, isObjectLiteralIntersection member = true →
    knownPrimitiveKind environment (unwrapValueType environment member) = none

/-- No member is dropped: annotations with one key are one annotation, and the members are merged
into a literal that keeps everything, or only one of them is not a marker. -/
def Conserved (environment : Environment) (metadata : TypeMetadata)
    (types : List ReflectedType) : Prop :=
  (∀ first ∈ surfaceAnnotations environment (.intersection metadata types),
    ∀ second ∈ surfaceAnnotations environment (.intersection metadata types),
    validationAnnotationKey first = validationAnnotationKey second → first = second) ∧
  match mergedIntersectionObjectLiteral environment (.intersection metadata types) with
  | some _ => MergesWhole environment metadata types
  | none => (meaningfulMembers types).length ≤ 1 ∧
      ∀ metadata',
        unwrapValueType environment (.intersection metadata types) ≠ .class metadata' none

theorem exists_distinctAnnotations (member : rule ∈ annotations) (seen : List String)
    (unseen : validationAnnotationKey rule ∉ seen) :
    ∃ kept ∈ distinctAnnotations seen annotations,
      validationAnnotationKey kept = validationAnnotationKey rule := by
  induction annotations generalizing seen with
  | nil => simp at member
  | cons first rest ih =>
      simp only [distinctAnnotations]
      rcases List.mem_cons.mp member with rfl | later
      · simp only [unseen, ↓reduceIte]
        exact ⟨rule, by simp, rfl⟩
      · split
        · exact ih later seen unseen
        · by_cases same : validationAnnotationKey rule = validationAnnotationKey first
          · exact ⟨first, by simp, same.symm⟩
          · rcases ih later (validationAnnotationKey first :: seen) (by simp [same, unseen]) with
              ⟨kept, inside, keyed⟩
            exact ⟨kept, List.mem_cons_of_mem _ inside, keyed⟩

theorem mem_of_mem_distinctAnnotations {seen : List String}
    (member : rule ∈ distinctAnnotations seen annotations) : rule ∈ annotations := by
  induction annotations generalizing seen with
  | nil => exact member
  | cons first rest ih =>
      simp only [distinctAnnotations] at member
      split at member
      · exact List.mem_cons_of_mem _ (ih member)
      · rcases List.mem_cons.mp member with rfl | later
        · exact List.mem_cons_self
        · exact List.mem_cons_of_mem _ (ih later)

theorem checkAnnotation_of_checkAnnotations
    (faithful : ∀ first ∈ surfaceAnnotations environment type,
      ∀ second ∈ surfaceAnnotations environment type,
      validationAnnotationKey first = validationAnnotationKey second → first = second)
    (passed : checkAnnotations environment type value "" = [])
    (member : rule ∈ surfaceAnnotations environment type) :
    checkAnnotation environment rule value "" = [] := by
  rcases exists_distinctAnnotations member [] (by simp) with ⟨kept, inside, keyed⟩
  have same : kept = rule :=
    faithful kept (mem_of_mem_distinctAnnotations inside) rule member keyed
  exact same ▸ List.flatMap_eq_nil_iff.mp passed kept inside

theorem surface_subset {member : ReflectedType} (inside : member ∈ types) :
    member.surface ⊆ ReflectedType.surfaces types := by
  induction types with
  | nil => simp at inside
  | cons type rest ih =>
      rcases List.mem_cons.mp inside with rfl | later
      · exact List.subset_append_left _ _
      · exact List.Subset.trans (ih later) (List.subset_append_right _ _)

theorem checkAnnotations_of_member {member : ReflectedType} (inside : member ∈ types)
    (passed : ∀ annotation ∈ surfaceAnnotations environment (.intersection metadata types),
      checkAnnotation environment annotation value "" = []) :
    checkAnnotations environment member value "" = [] := by
  rw [checkAnnotations, List.flatMap_eq_nil_iff]
  intro annotation kept
  refine passed annotation ?_
  rcases List.mem_flatMap.mp (mem_of_mem_distinctAnnotations kept) with ⟨child, surfaced, own⟩
  exact List.mem_flatMap.mpr
    ⟨child, List.mem_cons_of_mem _ (surface_subset inside surfaced), own⟩

theorem annotationErrors_of_structureErrors (resolved : ∀ metadata, concrete ≠ .class metadata none)
    (passed : structureErrors environment value concrete item member branches annotationErrors path
      = []) : annotationErrors = [] := by
  unfold structureErrors at passed
  split at passed
  case h_7 =>
    dsimp only at passed
    split at passed
    · exact (List.append_eq_nil_iff.mp passed).2
    · simp [typeError] at passed
  case h_10 => exact absurd rfl (resolved _)
  all_goals first
    | exact passed
    | exact (List.append_eq_nil_iff.mp passed).2

theorem structureErrors_of_annotationErrors
    (passed : structureErrors environment value concrete item member branches annotationErrors path
      = []) : structureErrors environment value concrete item member branches [] path = [] := by
  unfold structureErrors at passed ⊢
  split at passed
  case h_7 =>
    by_cases object : value.isObject = true
    · simp only [object, ↓reduceIte, List.append_nil] at passed ⊢
      exact (List.append_eq_nil_iff.mp passed).1
    · simp only [object, Bool.false_eq_true, ↓reduceIte] at passed ⊢
      exact passed
  all_goals first
    | exact passed
    | rfl
    | simpa using (List.append_eq_nil_iff.mp passed).1

theorem structureErrors_congr
    (passed : structureErrors environment value concrete item member branches annotationErrors path
      = []) {others : List ValidatorError} (clean : others = []) :
    structureErrors environment value concrete item member branches others path = [] :=
  clean ▸ structureErrors_of_annotationErrors passed

/-- What an object literal asks of one of its properties. -/
def PropertyPasses (environment : Environment) (value : Value) (property : Property) : Prop :=
  ((value.get property.name).isUndefined = true ∧ property.optional = true) ∨
    validateValue environment (value.get property.name) (environment.type property.type)
      (joinPath "" property.name) = []

theorem knownPrimitiveKind_objectLiteral {types : List Property}
    (unannotated : metadata.annotations = none)
    (untagged : ∀ property ∈ types, property.name ≠ "typia.tag") :
    knownPrimitiveKind environment (.objectLiteral metadata types index implements) = none := by
  have absent : types.find? (fun property => property.name = "typia.tag") = none := by
    simpa using untagged
  simp [knownPrimitiveKind, typeAnnotation, ReflectedType.surface, ReflectedType.annotation?,
    ReflectedType.metadata, unannotated, typiaTagTypeAnnotation, readTypiaTag, absent]

theorem accepts_iff_of_objectLiteral {types : List Property} (proper : value.isUndefined = false)
    (notNull : value.isNull = false)
    (unwrapped : unwrapValueType environment type = .objectLiteral metadata types index implements)
    (unknown :
      knownPrimitiveKind environment (.objectLiteral metadata types index implements) = none)
    (unindexed :
      objectLiteralIndexType environment (.objectLiteral metadata types index implements) = none) :
    Accepts environment value type ↔ value.isObject = true ∧
      (∀ property ∈ objectLiteralPropertiesFromType environment
        (.objectLiteral metadata types index implements),
        PropertyPasses environment value property) ∧
      checkAnnotations environment type value "" = [] := by
  rw [Accepts, validateValue_of_proper proper notNull, unwrapped]
  simp only [structureErrors, unknown, unindexed]
  by_cases object : value.isObject = true
  · simp only [object, ↓reduceIte, List.append_nil, List.append_eq_nil_iff,
      List.flatMap_eq_nil_iff, true_and, and_congr_left_iff]
    intro _
    refine forall₂_congr fun property _ => ?_
    simp only [PropertyPasses]
    split
    · rename_i skipped
      simp [skipped]
    · rename_i checked
      simp only [false_or, checked]
  · simp [object, typeError]

theorem objectLiteralPropertiesFromType_of_unmarked {types : List Property}
    (unmarked : isMarkerType (.objectLiteral metadata types index implements) = false) :
    ∃ inherited, objectLiteralPropertiesFromType environment
        (.objectLiteral metadata types index implements) =
      mergeUtilityProperties (inherited ++ types) := by
  simp only [objectLiteralPropertiesFromType, literalPropertiesFrom, unmarked, Bool.false_eq_true,
    ↓reduceIte]
  exact ⟨_, rfl⟩

theorem objectLiteralPropertiesFromType_of_merged {typeName : Option String}
    {properties : List Property} (distinct : (properties.map Property.name).Nodup)
    (untagged : ∀ property ∈ properties, property.name ≠ "typia.tag") :
    objectLiteralPropertiesFromType environment
      (.objectLiteral ⟨typeName, none, none, false⟩ properties none []) = properties := by
  have unmarked : isMarkerType (.objectLiteral ⟨typeName, none, none, false⟩ properties none []) =
      false := by
    cases properties with
    | nil => simp [isMarkerType, ReflectedType.metadata, isBareKnownMarkerType,
        isTypiaTagOnlyObject]
    | cons first rest => simp [isMarkerType, ReflectedType.metadata, isBareKnownMarkerType,
        isTypiaTagOnlyObject, untagged first (by simp)]
  simp only [objectLiteralPropertiesFromType, literalPropertiesFrom, unmarked, Bool.false_eq_true,
    ↓reduceIte, List.foldl_nil, List.nil_append, mergeUtilityProperties_of_nodup distinct]

theorem accepts_iff_of_merged (proper : value.isUndefined = false) (notNull : value.isNull = false)
    (literals : isObjectLiteralIntersection type = true)
    (declares : declaredProperties environment type ≠ [])
    (distinct : ((declaredProperties environment type).map Property.name).Nodup)
    (untagged : ∀ property ∈ declaredProperties environment type, property.name ≠ "typia.tag") :
    Accepts environment value type ↔ value.isObject = true ∧
      (∀ property ∈ declaredProperties environment type,
        PropertyPasses environment value property) ∧
      checkAnnotations environment type value "" = [] := by
  have merged : mergeProperties (objectLiteralPropertiesFromType environment) type =
      declaredProperties environment type := mergeUtilityProperties_of_nodup distinct
  have unwrapped : unwrapValueType environment type =
      .objectLiteral ⟨type.metadata.typeName, none, none, false⟩
        (declaredProperties environment type) none [] := by
    cases type with
    | intersection metadata types =>
        have found : mergedLiteral (objectLiteralPropertiesFromType environment)
            (.intersection metadata types) = some (.objectLiteral ⟨metadata.typeName, none, none,
              false⟩ (declaredProperties environment (.intersection metadata types)) none []) := by
          simp only [mergedLiteral, literals, ↓reduceIte, merged]
          rfl
        simp only [unwrapValueType, unwrapWith, found, Option.getD_some]
        rfl
    | _ => simp [isObjectLiteralIntersection] at literals
  have unindexed : objectLiteralIndexType environment
      (.objectLiteral ⟨type.metadata.typeName, none, none, false⟩
        (declaredProperties environment type) none []) = none := rfl
  rw [accepts_iff_of_objectLiteral proper notNull unwrapped
    (knownPrimitiveKind_objectLiteral rfl untagged) unindexed,
    objectLiteralPropertiesFromType_of_merged distinct untagged]

theorem isObjectLiteralIntersection_of_merged {literal : ReflectedType}
    (merged : mergedIntersectionObjectLiteral environment type = some literal) :
    isObjectLiteralIntersection type = true ∧ declaredProperties environment type ≠ [] := by
  simp only [mergedIntersectionObjectLiteral, mergedLiteral] at merged
  split at merged
  · rename_i literals
    refine ⟨literals, fun empty => ?_⟩
    have nothing : mergeProperties (objectLiteralPropertiesFromType environment) type = [] :=
      congrArg mergeUtilityProperties empty
    simp [nothing] at merged
  · cases merged

theorem not_accepts_intersection_of_absent
    (absent : value.isUndefined = true ∨ value.isNull = true) :
    ¬Accepts environment value (.intersection metadata types) := by
  cases value with
  | undefined =>
      rw [accepts_undefined_iff]
      exact Bool.false_ne_true
  | null =>
      rw [accepts_null_iff]
      exact Bool.false_ne_true
  | _ => simp [Value.isUndefined, Value.isNull] at absent

theorem mem_meaningfulMembers {member : ReflectedType}
    (meaningful : member ∈ meaningfulMembers types) :
    member ∈ types ∧ isMarkerType member = false := by
  simpa [meaningfulMembers] using meaningful

theorem unwrapMeaningful_of_single {literalProperties : ReflectedType → List Property}
    {whole only : ReflectedType} (single : meaningfulMembers types = [only]) :
    unwrapMeaningful literalProperties whole types = unwrapWith literalProperties only := by
  induction types with
  | nil => simp [meaningfulMembers] at single
  | cons type rest ih =>
      simp only [unwrapMeaningful]
      split
      · rename_i marker
        exact ih (by simpa [meaningfulMembers, marker] using single)
      · rename_i meaningful
        have head : type = only := by
          simp only [meaningfulMembers, List.filter_cons, meaningful, Bool.not_false, ↓reduceIte,
            List.cons.injEq] at single
          exact single.1
        rw [head]

section Undeclared

variable (literalProperties : ReflectedType → List Property)

/-- An intersection of markers, or one of the object literals, without properties. -/
def Undeclared (leaves : List ReflectedType) (unwrapped : ReflectedType) : Prop :=
  (∃ metadata types, unwrapped = .intersection metadata types) ∨
    (∃ metadata types index implements,
      unwrapped = .objectLiteral metadata types index implements) ∧
      unwrapped ∈ leaves ∧ literalProperties unwrapped = []

theorem Undeclared.mono {literalProperties : ReflectedType → List Property}
    {leaves others : List ReflectedType} {unwrapped : ReflectedType}
    (undeclared : Undeclared literalProperties leaves unwrapped) (subset : leaves ⊆ others) :
    Undeclared literalProperties others unwrapped :=
  undeclared.imp_right fun literal => ⟨literal.1, subset literal.2.1, literal.2.2⟩

mutual

theorem unwrapWith_undeclared : ∀ type : ReflectedType, isMarkerType type = false →
    isObjectLiteralIntersection type = true → collectProperties literalProperties type = [] →
      Undeclared literalProperties (literalLeaves type) (unwrapWith literalProperties type)
  | .intersection metadata types, unmarked, literals, nothing => by
      have none : mergedLiteral literalProperties (.intersection metadata types) = none := by
        simp [mergedLiteral, literals, mergeProperties, nothing, mergeUtilityProperties]
      simp only [collectProperties, unmarked, Bool.false_eq_true, ↓reduceIte] at nothing
      simp only [unwrapWith, none, Option.getD_none, literalLeaves, unmarked, Bool.false_eq_true,
        ↓reduceIte]
      exact unwrapMeaningful_undeclared _ ⟨_, _, rfl⟩ types literals nothing

theorem unwrapMeaningful_undeclared (whole : ReflectedType)
    (intersection : ∃ metadata types, whole = .intersection metadata types) :
    ∀ types : List ReflectedType, allObjectLiterals types = true →
      collectAll literalProperties types = [] →
        Undeclared literalProperties (literalLeavesOf types)
          (unwrapMeaningful literalProperties whole types)
  | [], _, _ => Or.inl intersection
  | type :: rest, literals, nothing => by
      simp only [collectAll, List.append_eq_nil_iff] at nothing
      have later : allObjectLiterals rest = true := by
        cases type with
        | objectLiteral metadata properties index implements =>
            simpa only [allObjectLiterals] using literals
        | _ =>
            simp only [allObjectLiterals, Bool.and_eq_true] at literals
            exact literals.2
      simp only [unwrapMeaningful]
      split
      · exact (unwrapMeaningful_undeclared whole intersection rest later nothing.2).mono
          (List.subset_append_right _ _)
      · rename_i meaningful
        have unmarked : isMarkerType type = false := by simpa using meaningful
        rcases objectLiteral_or_intersection literals List.mem_cons_self unmarked with
          ⟨metadata, properties, index, implements, rfl⟩ | nested
        · refine Or.inr ⟨⟨_, _, _, _, rfl⟩, List.mem_append_left _ ?_, ?_⟩
          · simp [literalLeaves, unmarked, unwrapWith]
          · simpa [collectProperties, unmarked, unwrapWith] using nothing.1
        · exact (unwrapWith_undeclared type unmarked nested nothing.1).mono
            (List.subset_append_left _ _)

end

end Undeclared

theorem MergesWhole.accepts_member (whole : MergesWhole environment metadata types)
    (proper : value.isUndefined = false) (notNull : value.isNull = false)
    (literals : isObjectLiteralIntersection (.intersection metadata types) = true)
    (unmarked : isMarkerType (.intersection metadata types) = false)
    (object : value.isObject = true)
    (passes : ∀ property ∈ declaredProperties environment (.intersection metadata types),
      PropertyPasses environment value property) {member : ReflectedType}
    (meaningful : member ∈ meaningfulMembers types)
    (annotations : checkAnnotations environment member value "" = []) :
    Accepts environment value member := by
  rcases mem_meaningfulMembers meaningful with ⟨inside, memberUnmarked⟩
  have leaves : literalLeaves (.intersection metadata types) = literalLeavesOf types := by
    simp [literalLeaves, unmarked]
  have sub : (declaredProperties environment member).Sublist
      (declaredProperties environment (.intersection metadata types)) := by
    simp only [declaredProperties, collectProperties_eq, leaves]
    exact (literalLeaves_sublist inside).flatMap _
  have distinct : ((declaredProperties environment member).map Property.name).Nodup :=
    whole.distinct.sublist (sub.map _)
  have untagged : ∀ property ∈ declaredProperties environment member,
      property.name ≠ "typia.tag" := fun property declared =>
    whole.untagged property (sub.subset declared)
  have memberPasses : ∀ property ∈ declaredProperties environment member,
      PropertyPasses environment value property := fun property declared =>
    passes property (sub.subset declared)
  rcases objectLiteral_or_intersection literals inside memberUnmarked with literal | nested
  · rcases literal with ⟨metadata', properties, index, implements, rfl⟩
    have leaf : literalLeaves (.objectLiteral metadata' properties index implements) =
        [.objectLiteral metadata' properties index implements] := by
      simp [literalLeaves, memberUnmarked]
    have declared : declaredProperties environment
        (.objectLiteral metadata' properties index implements) =
        objectLiteralPropertiesFromType environment
          (.objectLiteral metadata' properties index implements) := by
      simp [declaredProperties, collectProperties_eq, leaf]
    have unindexed : objectLiteralIndexType environment
        (.objectLiteral metadata' properties index implements) = none := by
      refine whole.unindexed _ ?_
      rw [leaves]
      exact (literalLeaves_sublist inside).subset (by simp [leaf])
    have ownUntagged : ∀ property ∈ properties, property.name ≠ "typia.tag" := by
      intro property own tagged
      rcases @objectLiteralPropertiesFromType_of_unmarked environment _ _ _ _ memberUnmarked with
        ⟨inherited, merged⟩
      have kept : "typia.tag" ∈ (mergeUtilityProperties (inherited ++ properties)).map
          Property.name :=
        mem_names_mergeUtilityProperties (List.mem_map.mpr ⟨property, by simp [own], tagged⟩)
      rw [← merged, ← declared] at kept
      rcases List.mem_map.mp kept with ⟨found, foundIn, named⟩
      exact untagged found foundIn named
    have unannotated : metadata'.annotations = none := by
      simp only [isMarkerType, ReflectedType.metadata, Bool.or_eq_false_iff] at memberUnmarked
      simpa using memberUnmarked.1.1.1.1
    rw [accepts_iff_of_objectLiteral proper notNull rfl
      (knownPrimitiveKind_objectLiteral unannotated ownUntagged) unindexed, ← declared]
    exact ⟨object, memberPasses, annotations⟩
  · by_cases declares : declaredProperties environment member = []
    · have unknown := whole.untyped member meaningful nested
      rcases unwrapWith_undeclared _ member memberUnmarked nested declares with
        ⟨metadata', members, unwrapped⟩ | ⟨literal, leaf, undeclared⟩
      · rw [← unwrapValueType] at unwrapped
        rw [Accepts, validateValue_of_proper proper notNull]
        rw [unwrapped] at unknown ⊢
        simpa only [structureErrors, unknown] using annotations
      · rw [← unwrapValueType] at literal leaf undeclared
        have unindexed := whole.unindexed _ (leaves ▸ (literalLeaves_sublist inside).subset leaf)
        rcases literal with ⟨metadata', properties, index, implements, unwrapped⟩
        rw [unwrapped] at unknown unindexed undeclared
        rw [accepts_iff_of_objectLiteral proper notNull unwrapped unknown unindexed, undeclared]
        exact ⟨object, by simp, annotations⟩
    · exact (accepts_iff_of_merged proper notNull nested declares distinct untagged).mpr
        ⟨object, memberPasses, annotations⟩

/--
An intersection that drops nothing validates as the conjunction of its members and of
the annotations attached to them.
-/
theorem isConjunction_of_conserved {metadata : TypeMetadata} {types : List ReflectedType}
    (conserved : Conserved environment metadata types) (value : Value) :
    IsConjunction environment metadata types value := by
  intro accepted
  by_cases absent : value.isUndefined = true ∨ value.isNull = true
  · exact absurd accepted (not_accepts_intersection_of_absent absent)
  simp only [not_or, Bool.not_eq_true] at absent
  rcases conserved with ⟨faithful, kept⟩
  split at kept
  · rename_i literal merged
    rcases isObjectLiteralIntersection_of_merged merged with ⟨literals, declares⟩
    have unmarked : isMarkerType (.intersection metadata types) = false := by
      by_contra marked
      simp only [Bool.not_eq_false] at marked
      exact declares (by simp [declaredProperties, collectProperties, marked])
    rcases (accepts_iff_of_merged absent.1 absent.2 literals declares kept.distinct
      kept.untagged).mp accepted with ⟨object, passes, annotations⟩
    have checked : ∀ rule ∈ surfaceAnnotations environment (.intersection metadata types),
        checkAnnotation environment rule value "" = [] :=
      fun _ => checkAnnotation_of_checkAnnotations faithful annotations
    refine ⟨fun member meaningful => ?_, checked⟩
    exact kept.accepts_member absent.1 absent.2 literals unmarked object passes meaningful
      (checkAnnotations_of_member (mem_meaningfulMembers meaningful).1 checked)
  · rename_i unmerged
    rw [Accepts, validateValue_of_proper absent.1 absent.2] at accepted
    have annotations := annotationErrors_of_structureErrors kept.2 accepted
    have checked : ∀ rule ∈ surfaceAnnotations environment (.intersection metadata types),
        checkAnnotation environment rule value "" = [] :=
      fun _ => checkAnnotation_of_checkAnnotations faithful annotations
    refine ⟨fun member meaningful => ?_, checked⟩
    have single : meaningfulMembers types = [member] := by
      have one : (meaningfulMembers types).length = 1 :=
        le_antisymm kept.1 (List.length_pos_of_mem meaningful)
      rcases List.length_eq_one_iff.mp one with ⟨only, single⟩
      simp only [single, List.mem_singleton] at meaningful
      rw [single, meaningful]
    have unwrapped : unwrapValueType environment (.intersection metadata types) =
        unwrapValueType environment member := by
      have none : mergedLiteral (objectLiteralPropertiesFromType environment)
          (.intersection metadata types) = none := unmerged
      simp only [unwrapValueType, unwrapWith, none, Option.getD_none]
      exact unwrapMeaningful_of_single single
    rw [unwrapped] at accepted
    rw [Accepts, validateValue_of_proper absent.1 absent.2]
    exact structureErrors_congr accepted
      (checkAnnotations_of_member (mem_meaningfulMembers meaningful).1 checked)

end Conjunction

/-- Tables with `string`, `number`, and a class that has an amount. -/
def amountEnvironment : Environment :=
  { Environment.empty with
    types := [plainString, plainNumber]
    classProperties := fun _ => [⟨"amount", 1, false⟩]
    classNames := fun _ => List.nodup_singleton _ }

/-- `{ label: string }`. -/
def labelled : ReflectedType := .objectLiteral .bare [⟨"label", 0, false⟩] none []

/-- `{ amount: number }`. -/
def counted : ReflectedType := .objectLiteral .bare [⟨"amount", 1, false⟩] none []

/-- `{ amount: number } & { label: string }` is the conjunction of the two. -/
theorem isConjunction_counted_labelled :
    IsConjunction amountEnvironment .bare [counted, labelled]
      (.object .objectPrototype [("amount", .number (.finite 1)),
          ("label", .string "joined")]) := by
  have conserved : Conserved amountEnvironment .bare [counted, labelled] := by
    have unannotated : surfaceAnnotations amountEnvironment
      (.intersection .bare [counted, labelled])
        = [] := by decide +kernel
    refine ⟨by simp [unannotated], ?_⟩
    have declared : declaredProperties amountEnvironment (.intersection .bare [counted, labelled]) =
        [⟨"amount", 1, false⟩, ⟨"label", 0, false⟩] := by decide +kernel
    have merges : MergesWhole amountEnvironment .bare [counted, labelled] := by
      refine ⟨?_, ?_, ?_, ?_⟩
      · rw [declared]
        decide
      · rw [declared]
        decide
      · intro leaf inside
        have listed : leaf = counted ∨ leaf = labelled := by
          simpa [literalLeaves, literalLeavesOf, counted, labelled, isMarkerType,
            ReflectedType.metadata, TypeMetadata.bare, isBareKnownMarkerType,
            isKnownMarkerTypeName, isTypiaTagOnlyObject] using inside
        rcases listed with rfl | rfl
        · rfl
        · rfl
      · intro member meaningful
        have listed : member = counted ∨ member = labelled := by
          simpa using (mem_meaningfulMembers meaningful).1
        rcases listed with rfl | rfl
        · simp [counted, isObjectLiteralIntersection]
        · simp [labelled, isObjectLiteralIntersection]
    split
    · exact merges
    · rename_i unmerged
      have literals : isObjectLiteralIntersection (.intersection .bare [counted, labelled]) =
          true := by
        simp [isObjectLiteralIntersection, allObjectLiterals, counted, labelled]
      have merged : mergeProperties (objectLiteralPropertiesFromType amountEnvironment)
          (.intersection .bare [counted, labelled]) ≠ [] := by decide +kernel
      simp only [mergedIntersectionObjectLiteral, mergedLiteral, literals, ↓reduceIte] at unmerged
      cases unmerged
  exact isConjunction_of_conserved conserved _

/-- A class with an amount, and `{ label: string }`, accept an object without a label. -/
theorem not_isConjunction_class_labelled :
    ¬IsConjunction amountEnvironment .bare [.class .bare (some (.named 0)), labelled]
      (.object .objectPrototype [("amount", .number (.finite 1))]) := by
  have unwrapped : unwrapValueType amountEnvironment
      (.intersection .bare [.class .bare (some (.named 0)), labelled]) =
      .class .bare (some (.named 0)) := by
    simp [unwrapValueType, unwrapWith, mergedLiteral, isObjectLiteralIntersection,
      allObjectLiterals, unwrapMeaningful, isMarkerType, ReflectedType.metadata, TypeMetadata.bare,
      isBareKnownMarkerType, isKnownMarkerTypeName, isTypiaTagOnlyObject]
  have accepted : Accepts amountEnvironment
      (.object .objectPrototype [("amount", .number (.finite 1))])
      (.intersection .bare [.class .bare (some (.named 0)), labelled]) := by
    have amount : validateValue amountEnvironment (.number (.finite 1)) plainNumber "amount" =
        [] := by
      rw [validateValue_of_proper rfl rfl]
      decide +kernel
    rw [Accepts, validateValue_of_proper rfl rfl, unwrapped]
    have unknown : knownPrimitiveKind amountEnvironment (.class .bare (some (.named 0))) =
        none := by
      decide +kernel
    have annotations : checkAnnotations amountEnvironment
        (.intersection .bare [.class .bare (some (.named 0)), labelled])
        (.object .objectPrototype [("amount", .number (.finite 1))]) "" = [] := by
      decide +kernel
    have declared : amountEnvironment.classProperties (.named 0) = [⟨"amount", 1, false⟩] := rfl
    simp only [structureErrors, unknown, annotations, List.append_nil, declared,
      List.flatMap_cons, List.flatMap_nil, Bool.false_eq_true, and_false, ↓reduceIte]
    exact amount
  have rejected : ¬Accepts amountEnvironment
      (.object .objectPrototype [("amount", .number (.finite 1))]) labelled := by
    rw [accepts_iff_of_objectLiteral rfl rfl rfl (by decide +kernel) (by decide +kernel)]
    rintro ⟨-, passes, -⟩
    rcases passes ⟨"label", 0, false⟩ (by decide +kernel) with skipped | valid
    · exact Bool.false_ne_true skipped.2
    · rw [validateValue] at valid
      revert valid
      decide +kernel
  intro conjunction
  exact rejected ((conjunction accepted).1 labelled
    (by simp [meaningfulMembers, labelled, isMarkerType, ReflectedType.metadata, TypeMetadata.bare,
      isBareKnownMarkerType, isKnownMarkerTypeName, isTypiaTagOnlyObject]))

end ServerFoundation.Reflection
