import ServerFoundation.Reflection.Types

/-!
# The structure behind a type

`unwrapValueType` finds the one type that decides how a value is read: the only
concrete branch of a union, the object literal that an intersection of object
literals is merged into, or the first member of another intersection that is not a
marker. The properties of an object literal include those of the interfaces it
extends.
-/

namespace ServerFoundation.Reflection

section Markers

/-- `isKnownMarkerTypeName`. -/
def isKnownMarkerTypeName (typeName : Option String) : Bool :=
  match typeName with
  | none => false
  | some name =>
      name ∈ ["ApiName", "AutoIncrement", "DatabaseField", "GreaterThan", "HasDefault", "Index",
        "Length", "LessThan", "Maximum", "MaxLength", "Minimum", "MinLength", "MySQL", "OnUpdate",
        "Pattern", "PrimaryKey", "Reference", "TypeAnnotation", "Unique"]

/-- `isBareKnownMarkerType`. -/
def isBareKnownMarkerType (type : ReflectedType) : Bool :=
  isKnownMarkerTypeName type.metadata.typeName &&
    match type with
    | .primitive _ .unknown => true
    | .class _ none => true
    | _ => false

/-- `isTypiaTagOnlyObject`. -/
def isTypiaTagOnlyObject : ReflectedType → Bool
  | .objectLiteral _ types _ _ =>
      types ≠ [] && types.all fun property => property.name = "typia.tag"
  | _ => false

/-- `isMarkerType`. -/
def isMarkerType (type : ReflectedType) : Bool :=
  type.metadata.annotations.isSome || type.metadata.validation.isSome || type.metadata.database ||
    isBareKnownMarkerType type || isTypiaTagOnlyObject type

end Markers

section Merging

/-- A property in the place of an earlier one of its name, or at the end. -/
def addProperty (properties : List Property) (property : Property) : List Property :=
  if properties.any fun found => found.name = property.name then
    properties.map fun found => if found.name = property.name then property else found
  else properties ++ [property]

/-- `mergeUtilityProperties`: each name where it came first, with what it was last. -/
def mergeUtilityProperties (properties : List Property) : List Property :=
  properties.foldl addProperty []

variable (literalProperties : ReflectedType → List Property)

mutual

/-- The properties that `mergeStructuredProperties` collects from a type, in its order. -/
def collectProperties : ReflectedType → List Property
  | .intersection metadata types =>
      if isMarkerType (.intersection metadata types) then [] else collectAll types
  | .objectLiteral metadata types index implements =>
      if isMarkerType (.objectLiteral metadata types index implements) then []
      else literalProperties (.objectLiteral metadata types index implements)
  | _ => []

/-- The properties of several types. -/
def collectAll : List ReflectedType → List Property
  | [] => []
  | type :: rest => collectProperties type ++ collectAll rest

end

/-- `mergeStructuredProperties`. -/
def mergeProperties (type : ReflectedType) : List Property :=
  mergeUtilityProperties (collectProperties literalProperties type)

mutual

/-- `isObjectLiteralIntersection`. -/
def isObjectLiteralIntersection : ReflectedType → Bool
  | .intersection _ types => allObjectLiterals types
  | _ => false

/-- Whether every member is a marker, an object literal or an intersection of such. -/
def allObjectLiterals : List ReflectedType → Bool
  | [] => true
  | .intersection metadata types :: rest =>
      (isMarkerType (.intersection metadata types) || allObjectLiterals types) &&
        allObjectLiterals rest
  | .objectLiteral _ _ _ _ :: rest => allObjectLiterals rest
  | type :: rest => isMarkerType type && allObjectLiterals rest

end

/-- `mergedIntersectionObjectLiteral`. -/
def mergedLiteral (type : ReflectedType) : Option ReflectedType :=
  if isObjectLiteralIntersection type then
    match mergeProperties literalProperties type with
    | [] => none
    | properties =>
        some (.objectLiteral ⟨type.metadata.typeName, none, none, false⟩ properties none [])
  else none

mutual

/-- `unwrapValueType`. -/
def unwrapWith : ReflectedType → ReflectedType
  | .union metadata types =>
      match types.filter fun item => !item.isAbsent with
      | [_] => unwrapConcrete (.union metadata types) types
      | _ => .union metadata types
  | .intersection metadata types =>
      (mergedLiteral literalProperties (.intersection metadata types)).getD
        (unwrapMeaningful (.intersection metadata types) types)
  | type => type

/-- The first branch of a union that is not absent, unwrapped. -/
def unwrapConcrete (whole : ReflectedType) : List ReflectedType → ReflectedType
  | [] => whole
  | type :: rest => if type.isAbsent then unwrapConcrete whole rest else unwrapWith type

/-- The first member of an intersection that is not a marker, unwrapped. -/
def unwrapMeaningful (whole : ReflectedType) : List ReflectedType → ReflectedType
  | [] => whole
  | type :: rest => if isMarkerType type then unwrapMeaningful whole rest else unwrapWith type

end

end Merging

section Inheritance

variable (environment : Environment)

/-- `objectLiteralPropertiesFromType`, with the interfaces seen so far. The budget bounds the length
of a chain of interfaces. -/
def literalPropertiesFrom : ℕ → List TypeId → ReflectedType → List Property × List TypeId
  | 0, seen, _ => ([], seen)
  | budget + 1, seen, .objectLiteral metadata types index implements =>
      if isMarkerType (.objectLiteral metadata types index implements) then ([], seen)
      else
        let properties (type : ReflectedType) := (literalPropertiesFrom budget [] type).1
        let inherit (state : List Property × List TypeId) (base : TypeId) :
            List Property × List TypeId :=
          let unwrapped := unwrapWith properties (environment.type base)
          if base ∈ state.2 then state
          else
            match unwrapped with
            | .objectLiteral _ _ _ _ =>
                let found := literalPropertiesFrom budget (base :: state.2) unwrapped
                (state.1 ++ found.1, found.2)
            | .intersection _ _ => (state.1 ++ mergeProperties properties unwrapped, state.2)
            | .class _ (some classType) =>
                (state.1 ++ environment.classProperties classType, state.2)
            | _ => state
        let inherited := implements.foldl inherit ([], seen)
        (mergeUtilityProperties (inherited.1 ++ types), inherited.2)
  | _ + 1, seen, _ => ([], seen)

/-- `objectLiteralPropertiesFromType`. -/
def objectLiteralPropertiesFromType (type : ReflectedType) : List Property :=
  (literalPropertiesFrom environment (environment.types.length + 1) [] type).1

/-- `unwrapValueType`. -/
def unwrapValueType (type : ReflectedType) : ReflectedType :=
  unwrapWith (objectLiteralPropertiesFromType environment) type

/-- `mergeStructuredProperties`. -/
def mergeStructuredProperties (type : ReflectedType) : List Property :=
  mergeProperties (objectLiteralPropertiesFromType environment) type

/-- `mergedIntersectionObjectLiteral`. -/
def mergedIntersectionObjectLiteral (type : ReflectedType) : Option ReflectedType :=
  mergedLiteral (objectLiteralPropertiesFromType environment) type

/-- `objectLiteralIndexType`, with the same budget. -/
def literalIndexFrom : ℕ → List TypeId → ReflectedType → Option TypeId × List TypeId
  | 0, seen, _ => (none, seen)
  | budget + 1, seen, .objectLiteral _ _ index implements =>
      match index with
      | some found => (some found, seen)
      | none =>
          let search (state : Option TypeId × List TypeId) (base : TypeId) :
              Option TypeId × List TypeId :=
            if state.1.isSome then state
            else
              match unwrapValueType environment (environment.type base) with
              | .objectLiteral metadata types baseIndex bases =>
                  if baseIndex.isNone ∧ base ∈ state.2 then state
                  else literalIndexFrom budget (base :: state.2)
                    (.objectLiteral metadata types baseIndex bases)
              | _ => state
          implements.foldl search (none, seen)
  | _ + 1, seen, _ => (none, seen)

/-- `objectLiteralIndexType`. -/
def objectLiteralIndexType (type : ReflectedType) : Option TypeId :=
  (literalIndexFrom environment (environment.types.length + 1) [] type).1

end Inheritance

section MergedProperties

variable {properties : List Property}

theorem addProperty_of_absent {property : Property}
    (absent : property.name ∉ properties.map Property.name) :
    addProperty properties property = properties ++ [property] := by
  have none : properties.any (fun found => found.name = property.name) = false := by
    simp only [List.any_eq_false, decide_eq_true_eq]
    intro found member same
    exact absent (List.mem_map.mpr ⟨found, member, same⟩)
  simp [addProperty, none]

theorem names_addProperty_of_present {property : Property}
    (present : property.name ∈ properties.map Property.name) :
    (addProperty properties property).map Property.name = properties.map Property.name := by
  have found : properties.any (fun found => found.name = property.name) = true := by
    rcases List.mem_map.mp present with ⟨found, member, same⟩
    exact List.any_eq_true.mpr ⟨found, member, by simpa using same⟩
  simp only [addProperty, found, ↓reduceIte, List.map_map]
  refine List.map_congr_left fun held _ => ?_
  simp only [Function.comp_apply]
  split
  · rename_i same
    exact same.symm
  · rfl

theorem nodup_names_addProperty (property : Property)
    (distinct : (properties.map Property.name).Nodup) :
    ((addProperty properties property).map Property.name).Nodup := by
  by_cases present : property.name ∈ properties.map Property.name
  · rw [names_addProperty_of_present present]
    exact distinct
  · rw [addProperty_of_absent present, List.map_append, List.nodup_append]
    refine ⟨distinct, by simp, ?_⟩
    intro name member other single
    simp only [List.map_cons, List.map_nil, List.mem_singleton] at single
    rintro rfl
    exact present (single ▸ member)

theorem nodup_names_mergeUtilityProperties (properties : List Property) :
    ((mergeUtilityProperties properties).map Property.name).Nodup := by
  have merged : ∀ start : List Property, (start.map Property.name).Nodup →
      ((properties.foldl addProperty start).map Property.name).Nodup := by
    induction properties with
    | nil => exact fun _ distinct => distinct
    | cons property rest ih =>
        exact fun start distinct => ih _ (nodup_names_addProperty property distinct)
  exact merged [] List.nodup_nil

theorem mergeUtilityProperties_of_nodup (distinct : (properties.map Property.name).Nodup) :
    mergeUtilityProperties properties = properties := by
  have merged : ∀ start : List Property, ((start ++ properties).map Property.name).Nodup →
      properties.foldl addProperty start = start ++ properties := by
    induction properties with
    | nil => simp
    | cons property rest ih =>
        intro start nodup
        have absent : property.name ∉ start.map Property.name := by
          intro member
          rw [List.map_append, List.nodup_append] at nodup
          exact nodup.2.2 _ member property.name (by simp) rfl
        have moved : start ++ property :: rest = (start ++ [property]) ++ rest := by simp
        rw [List.foldl_cons, addProperty_of_absent absent, moved]
        rw [moved] at nodup
        exact ih (List.Nodup.of_cons (by simpa using distinct)) _ nodup
  simpa [mergeUtilityProperties] using merged [] (by simpa using distinct)

theorem mem_names_mergeUtilityProperties {name : String}
    (member : name ∈ properties.map Property.name) :
    name ∈ (mergeUtilityProperties properties).map Property.name := by
  have kept : ∀ (property : Property) (start : List Property) (found : String),
      found ∈ start.map Property.name ∨ found = property.name →
      found ∈ (addProperty start property).map Property.name := by
    intro property start found either
    by_cases present : property.name ∈ start.map Property.name
    · rw [names_addProperty_of_present present]
      rcases either with earlier | rfl
      · exact earlier
      · exact present
    · rw [addProperty_of_absent present]
      simpa [or_comm, eq_comm] using either
  have merged : ∀ start : List Property,
      name ∈ start.map Property.name ∨ name ∈ properties.map Property.name →
      name ∈ (properties.foldl addProperty start).map Property.name := by
    clear member
    induction properties with
    | nil => simp
    | cons property rest ih =>
        intro start either
        refine ih _ ?_
        rcases either with earlier | here
        · exact Or.inl (kept _ _ _ (Or.inl earlier))
        · rcases List.mem_cons.mp here with rfl | later
          · exact Or.inl (kept _ _ _ (Or.inr rfl))
          · exact Or.inr later
  exact merged [] (Or.inr member)

end MergedProperties

section Sizes

variable {literalProperties : ReflectedType → List Property}

mutual

theorem sizeOf_unwrapWith : ∀ type : ReflectedType,
    (∃ metadata types, unwrapWith literalProperties type = .objectLiteral metadata types none []) ∨
      sizeOf (unwrapWith literalProperties type) ≤ sizeOf type
  | .union metadata types => by
      simp only [unwrapWith]
      split
      · exact sizeOf_unwrapConcrete (.union metadata types) types le_rfl (by simp)
      · exact Or.inr le_rfl
  | .intersection metadata types => by
      simp only [unwrapWith]
      cases merged : mergedLiteral literalProperties (.intersection metadata types) with
      | none =>
          exact sizeOf_unwrapMeaningful (.intersection metadata types) types le_rfl
            (by simp)
      | some found =>
          simp only [mergedLiteral] at merged
          split at merged
          · split at merged
            · cases merged
            · cases merged
              exact Or.inl ⟨_, _, rfl⟩
          · cases merged
  | .primitive _ _ => Or.inr le_rfl
  | .literal _ _ => Or.inr le_rfl
  | .enum _ _ => Or.inr le_rfl
  | .array _ _ => Or.inr le_rfl
  | .tuple _ _ => Or.inr le_rfl
  | .class _ _ => Or.inr le_rfl
  | .objectLiteral _ _ _ _ => Or.inr le_rfl
  | .promise _ _ => Or.inr le_rfl

theorem sizeOf_unwrapConcrete (whole : ReflectedType) : ∀ types : List ReflectedType, ∀ {bound : ℕ},
    sizeOf whole ≤ bound → sizeOf types ≤ bound →
    (∃ metadata properties,
      unwrapConcrete literalProperties whole types = .objectLiteral metadata properties none []) ∨
      sizeOf (unwrapConcrete literalProperties whole types) ≤ bound
  | [], _, wholeBound, _ => Or.inr wholeBound
  | type :: rest, _, wholeBound, typesBound => by
      simp only [List.cons.sizeOf_spec] at typesBound
      simp only [unwrapConcrete]
      split
      · exact sizeOf_unwrapConcrete whole rest wholeBound (by omega)
      · rcases sizeOf_unwrapWith type with merged | below
        · exact Or.inl merged
        · exact Or.inr (by omega)

theorem sizeOf_unwrapMeaningful (whole : ReflectedType) :
    ∀ types : List ReflectedType, ∀ {bound : ℕ}, sizeOf whole ≤ bound → sizeOf types ≤ bound →
    (∃ metadata properties,
      unwrapMeaningful literalProperties whole types = .objectLiteral metadata properties none []) ∨
      sizeOf (unwrapMeaningful literalProperties whole types) ≤ bound
  | [], _, wholeBound, _ => Or.inr wholeBound
  | type :: rest, _, wholeBound, typesBound => by
      simp only [List.cons.sizeOf_spec] at typesBound
      simp only [unwrapMeaningful]
      split
      · exact sizeOf_unwrapMeaningful whole rest wholeBound (by omega)
      · rcases sizeOf_unwrapWith type with merged | below
        · exact Or.inl merged
        · exact Or.inr (by omega)

end

/-- The branches of a union. -/
def ReflectedType.branches : ReflectedType → List ReflectedType
  | .union _ types => types
  | _ => []

theorem sizeOf_lt_of_unwrap (environment : Environment) {type branch : ReflectedType}
    (member : branch ∈ (unwrapValueType environment type).branches) :
    sizeOf branch < sizeOf type := by
  rcases @sizeOf_unwrapWith (objectLiteralPropertiesFromType environment) type with merged | below
  · rcases merged with ⟨_, _, merged⟩
    rw [unwrapValueType, merged] at member
    simp [ReflectedType.branches] at member
  · cases unwrapped : unwrapValueType environment type with
    | union metadata types =>
        rw [unwrapped] at member
        have inner := List.sizeOf_lt_of_mem member
        rw [unwrapValueType] at unwrapped
        rw [unwrapped] at below
        simp only [ReflectedType.union.sizeOf_spec] at below
        simp only [ReflectedType.branches] at inner
        omega
    | _ => simp [unwrapped, ReflectedType.branches] at member

end Sizes

end ServerFoundation.Reflection
