import ServerFoundation.Data.OptionRel
import ServerFoundation.Reflection.Deserialization
import ServerFoundation.Reflection.IntersectionValidation

/-!
# Deserialization and hostile keys

What `validatedDeserialize` returns is faithful to its input at every depth: an object
that an object literal makes has the keys of its type, and what is read from it was
converted from the input's own property and validated. Two things are left open for
one key at a time: what happens to `__proto__`, and a declared name that the input
only inherits.
-/

namespace ServerFoundation.Reflection

section Writing

theorem lookup_place (properties : List (String × Value)) (key name : String) (item : Value) :
    (Value.place properties key item).lookup name =
      if name = key then some item else properties.lookup name := by
  induction properties with
  | nil =>
      by_cases same : name = key
      · simp [Value.place, same]
      · simp [Value.place, List.lookup_cons, beq_eq_false_iff_ne.mpr same, same]
  | cons entry rest ih =>
      rcases entry with ⟨held, value⟩
      by_cases same : held = key
      · by_cases asked : name = key
        · simp [Value.place, same, asked]
        · simp [Value.place, same, List.lookup_cons, beq_eq_false_iff_ne.mpr asked, asked]
      · by_cases asked : name = held
        · subst asked
          simp [Value.place, same]
        · simp [Value.place, same, List.lookup_cons, ih, beq_eq_false_iff_ne.mpr asked]

theorem mem_ownKeys_object {prototype : Value} {properties : List (String × Value)} {key : String} :
    key ∈ (Value.object prototype properties).ownKeys ↔ (properties.lookup key).isSome = true := by
  have enumerated : key ∈ Value.enumerated (properties.map Prod.fst) ↔
      key ∈ properties.map Prod.fst := by
    simp only [Value.enumerated, List.mem_append, (sortOn_perm _ _).mem_iff, List.mem_filter,
      ← and_or_left]
    refine and_iff_left ?_
    cases JsObject.arrayIndex key <;> simp
  rw [Value.ownKeys, enumerated, List.lookup_isSome_iff, List.mem_map]
  refine exists_congr fun entry => and_congr_right fun _ => ?_
  rw [beq_iff_eq, eq_comm]

theorem set_object (prototype : Value) (properties : List (String × Value)) (key : String)
    (item : Value) :
    ∃ prototype' properties', (Value.object prototype properties).set key item =
        .object prototype' properties' ∧
      (key ≠ "__proto__" → prototype' = prototype ∧ properties'.lookup key = some item) ∧
      ∀ name, name ≠ key → properties'.lookup name = properties.lookup name := by
  simp only [Value.set]
  split
  · rename_i written
    split
    · exact ⟨item, properties, rfl, fun ordinary => absurd written.1 ordinary, fun _ _ => rfl⟩
    · exact ⟨prototype, properties, rfl, fun ordinary => absurd written.1 ordinary, fun _ _ => rfl⟩
  · refine ⟨prototype, _, rfl, fun _ => ⟨rfl, ?_⟩, fun name other => ?_⟩
    · simp [lookup_place]
    · simp [lookup_place, other]

variable {environment : Environment} {convert : Value → ReflectedType → Option Value}

/-- What is left in an object after it was filled with entries. -/
structure Filled (environment : Environment) (convert : Value → ReflectedType → Option Value)
    (entries : List (String × Value × TypeId)) (prototype prototype' : Value)
    (properties properties' : List (String × Value)) : Prop where
  unwritten : ∀ key, key ∉ entries.map Prod.fst →
    properties'.lookup key = properties.lookup key
  written : ∀ entry ∈ entries, entry.1 ≠ "__proto__" →
    ∃ converted, convert entry.2.1 (environment.type entry.2.2) = some converted ∧
      properties'.lookup entry.1 = some converted
  prototype : "__proto__" ∉ entries.map Prod.fst → prototype' = prototype

theorem filled_of_fill {prototype : Value} {properties : List (String × Value)}
    {entries : List (String × Value × TypeId)} {result : Value}
    (agree : ∀ first ∈ entries, ∀ second ∈ entries, first.1 = second.1 → first = second)
    (filled : fill environment convert (.object prototype properties) entries = some result) :
    ∃ prototype' properties', result = .object prototype' properties' ∧
      Filled environment convert entries prototype prototype' properties properties' := by
  induction entries generalizing prototype properties with
  | nil =>
      cases filled
      exact ⟨prototype, properties, rfl, fun _ _ => rfl, by simp, fun _ => rfl⟩
  | cons entry rest ih =>
      rcases entry with ⟨key, item, type⟩
      simp only [fill] at filled
      rcases Option.bind_eq_some_iff.mp filled with ⟨converted, conversion, onwards⟩
      rcases set_object prototype properties key converted with
        ⟨next, nextProperties, written, ordinary, others⟩
      rw [written] at onwards
      rcases ih (fun first member second memberToo => agree first (List.mem_cons_of_mem _ member)
        second (List.mem_cons_of_mem _ memberToo)) onwards with
        ⟨prototype', properties', rfl, rest'⟩
      refine ⟨prototype', properties', rfl, ?_, ?_, ?_⟩
      · intro name absent
        simp only [List.map_cons, List.mem_cons, not_or] at absent
        rw [rest'.unwritten name absent.2, others name absent.1]
      · intro found member notProto
        rcases List.mem_cons.mp member with rfl | later
        · by_cases again : key ∈ rest.map Prod.fst
          · rcases List.mem_map.mp again with ⟨same, inRest, sameKey⟩
            have equal := agree same (List.mem_cons_of_mem _ inRest) (key, item, type)
              List.mem_cons_self sameKey
            exact rest'.written _ (equal ▸ inRest) notProto
          · refine ⟨converted, conversion, ?_⟩
            rw [rest'.unwritten key again]
            exact (ordinary notProto).2
        · exact rest'.written found later notProto
      · intro absent
        simp only [List.map_cons, List.mem_cons, not_or] at absent
        rw [rest'.prototype absent.2]
        exact (ordinary (Ne.symm absent.1)).1

end Writing

section Faithful

variable (environment : Environment) (conversions : Conversions) {properties : List Property}
  {value : Value} {convert : Value → ReflectedType → Option Value} {index : Option TypeId}
  {entry : String × Value × TypeId} {type : ReflectedType}
  {entries : List (String × Value × TypeId)} {fields : List (String × Value)}

/-- The own property of an input, `undefined` when there is none. -/
def Value.ownValue (value : Value) (key : String) : Value := (value.own? key).getD .undefined

/-- The type declares the key as a property. -/
def Declares (literal : ReflectedType) (key : String) : Prop :=
  key ∈ (objectLiteralPropertiesFromType environment literal).map Property.name

/-- The type has an index signature and the input the key. -/
def Indexes (literal : ReflectedType) (input : Value) (key : String) : Prop :=
  (objectLiteralIndexType environment literal).isSome = true ∧ key ∈ input.ownKeys

/-- What is read under a key was converted from the input's own property and validated. -/
structure Converted (input result : Value) (key : String) (type : TypeId) (optional : Bool) :
    Prop where
  deserialized : ∃ budget, deserializeValue environment conversions budget (input.ownValue key)
    (environment.type type) = some (result.get key)
  validated : ((result.get key).isUndefined = true ∧ optional = true) ∨
    ∃ path, validateValue environment (result.get key) (environment.type type) path = []

/-- The kinds whose parts are converted. -/
def ReflectedType.isStructured : ReflectedType → Bool
  | .array _ _ => true
  | .tuple _ _ => true
  | .union _ _ => true
  | .objectLiteral _ _ _ _ => true
  | .class _ (some (.named _)) => true
  | _ => false

/-- Whether a type is an object literal. -/
def ReflectedType.isObjectLiteral : ReflectedType → Bool
  | .objectLiteral _ _ _ _ => true
  | _ => false

/--
The result is faithful to the input, as deep as the types say something about it.
Nothing is said of scalars, of types without parts to convert, of intersections that are
not merged into an object literal, of the object literal that declares nothing, and of a
union none of whose branches accepts what it makes of the input. Of the keys of an
object, `__proto__` is left open where the type or the input brings it, and so is a
declared property that the input inherits.
-/
inductive Faithful : ReflectedType → Value → Value → Prop where
  | scalar {type : ReflectedType} {input result : Value} (scalar : result.isComposite = false) :
      Faithful type input result
  | unstructured {type : ReflectedType} {input result : Value}
      (unstructured : (unwrapValueType environment type).isStructured = false) :
      Faithful type input result
  | unmerged {metadata : TypeMetadata} {types : List ReflectedType} {input result : Value}
      (unmerged :
        mergedIntersectionObjectLiteral environment (.intersection metadata types) = none ∨
          input.isObject = false ∨ input.isDate = true) :
      Faithful (.intersection metadata types) input result
  | array {type : ReflectedType} {metadata : TypeMetadata} {element : TypeId}
      {items results : List Value}
      (unwrapped : unwrapValueType environment type = .array metadata element)
      (length : results.length = items.length)
      (each : ∀ (index : ℕ) (item result : Value), items[index]? = some item →
        results[index]? = some result → Faithful (environment.type element) item result) :
      Faithful type (.array items) (.array results)
  | tuple {type : ReflectedType} {metadata : TypeMetadata} {elements : List TypeId}
      {items results : List Value}
      (unwrapped : unwrapValueType environment type = .tuple metadata elements)
      (length : results.length = elements.length)
      (each : ∀ (index : ℕ) (element : TypeId) (result : Value), elements[index]? = some element →
        results[index]? = some result →
        Faithful (environment.type element) ((Value.array items).item index) result) :
      Faithful type (.array items) (.array results)
  | union {type branch : ReflectedType} {metadata : TypeMetadata} {types : List ReflectedType}
      {input result : Value} (unwrapped : unwrapValueType environment type = .union metadata types)
      (member : branch ∈ types) (accepted : Accepts environment result branch)
      (faithful : Faithful branch input result) : Faithful type input result
  | unmatched {type : ReflectedType} {metadata : TypeMetadata} {types : List ReflectedType}
      {input : Value} (unwrapped : unwrapValueType environment type = .union metadata types)
      (budget : ℕ) (unmatched : ∀ branch ∈ types, ∃ candidate,
        deserializeValue environment conversions budget input branch = some candidate ∧
          ¬Accepts environment candidate branch) : Faithful type input input
  | undeclared {type literal : ReflectedType} {input : Value}
      (unwrapped : unwrapValueType environment type = literal)
      (isLiteral : literal.isObjectLiteral = true)
      (undeclared : objectLiteralPropertiesFromType environment literal = [] ∧
        objectLiteralIndexType environment literal = none) : Faithful type input input
  | literal {type literal : ReflectedType} {input prototype : Value}
      {properties : List (String × Value)}
      (unwrapped : unwrapValueType environment type = literal)
      (isLiteral : literal.isObjectLiteral = true)
      (keys : ∀ key, key ≠ "__proto__" → (key ∈ (Value.object prototype properties).ownKeys ↔
        Declares environment literal key ∨ Indexes environment literal input key))
      (plain : ¬Declares environment literal "__proto__" →
        ¬Indexes environment literal input "__proto__" →
        prototype = .objectPrototype ∧ "__proto__" ∉ (Value.object prototype properties).ownKeys)
      (declared : ∀ property ∈ objectLiteralPropertiesFromType environment literal,
        property.name ≠ "__proto__" → input.get property.name = input.ownValue property.name →
        Converted environment conversions input (.object prototype properties) property.name
          property.type property.optional)
      (declaredFaithful : ∀ property ∈ objectLiteralPropertiesFromType environment literal,
        property.name ≠ "__proto__" → input.get property.name = input.ownValue property.name →
        Faithful (environment.type property.type) (input.ownValue property.name)
          ((Value.object prototype properties).get property.name))
      (indexed : ∀ indexType, objectLiteralIndexType environment literal = some indexType →
        ∀ key ∈ input.ownKeys, key ≠ "__proto__" → ¬Declares environment literal key →
        Converted environment conversions input (.object prototype properties) key indexType false)
      (indexedFaithful : ∀ indexType, objectLiteralIndexType environment literal = some indexType →
        ∀ key ∈ input.ownKeys, key ≠ "__proto__" → ¬Declares environment literal key →
        Faithful (environment.type indexType) (input.ownValue key)
          ((Value.object prototype properties).get key)) :
      Faithful type input (.object prototype properties)
  | instance {type : ReflectedType} {metadata : TypeMetadata} {index : ℕ} {input prototype : Value}
      {properties : List (String × Value)}
      (unwrapped : unwrapValueType environment type = .class metadata (some (.named index)))
      (keys : ∀ key, key ≠ "__proto__" → (key ∈ (Value.object prototype properties).ownKeys ↔
        key ∈ (Value.object prototype (conversions.construct (.named index)).2).ownKeys ∨
          key ∈ (environment.classProperties (.named index)).map Property.name))
      (plain : "__proto__" ∉ (environment.classProperties (.named index)).map Property.name →
        prototype = (conversions.construct (.named index)).1)
      (declared : ∀ property ∈ environment.classProperties (.named index),
        property.name ≠ "__proto__" → input.get property.name = input.ownValue property.name →
        Converted environment conversions input (.object prototype properties) property.name
          property.type property.optional)
      (declaredFaithful : ∀ property ∈ environment.classProperties (.named index),
        property.name ≠ "__proto__" → input.get property.name = input.ownValue property.name →
        Faithful (environment.type property.type) (input.ownValue property.name)
          ((Value.object prototype properties).get property.name)) :
      Faithful type input (.object prototype properties)

variable {environment conversions}

theorem nodup_names_objectLiteralPropertiesFromType (literal : ReflectedType) :
    ((objectLiteralPropertiesFromType environment literal).map Property.name).Nodup := by
  simp only [objectLiteralPropertiesFromType]
  cases literal with
  | objectLiteral metadata types index implements =>
      simp only [literalPropertiesFrom]
      split
      · exact List.nodup_nil
      · exact nodup_names_mergeUtilityProperties _
  | _ => exact List.nodup_nil

theorem eq_of_name_eq (distinct : (properties.map Property.name).Nodup) {first second : Property}
    (firstIn : first ∈ properties) (secondIn : second ∈ properties)
    (same : first.name = second.name) : first = second :=
  List.inj_on_of_nodup_map distinct firstIn secondIn same

theorem mem_literalEntries :
    entry ∈ literalEntries properties index value ↔
      (∃ property ∈ properties,
        entry = (property.name, value.get property.name, property.type)) ∨
      ∃ indexType, index = some indexType ∧ ∃ key ∈ value.ownKeys,
        key ∉ properties.map Property.name ∧ entry = (key, value.ownValue key, indexType) := by
  simp only [literalEntries, List.mem_append, List.mem_map]
  refine or_congr ⟨?_, ?_⟩ ?_
  · rintro ⟨property, member, rfl⟩
    exact ⟨property, member, rfl⟩
  · rintro ⟨property, member, rfl⟩
    exact ⟨property, member, rfl⟩
  · cases index with
    | none => simp
    | some indexType =>
        constructor
        · intro member
          rcases List.mem_map.mp member with ⟨found, kept, rfl⟩
          rcases List.mem_filter.mp kept with ⟨inside, undeclared⟩
          rcases List.mem_map.mp inside with ⟨key, own, rfl⟩
          refine ⟨indexType, rfl, key, own, ?_, rfl⟩
          simpa using undeclared
        · rintro ⟨found, same, key, own, undeclared, rfl⟩
          cases same
          refine List.mem_map.mpr ⟨(key, value.ownValue key), List.mem_filter.mpr ⟨?_, ?_⟩, rfl⟩
          · exact List.mem_map.mpr ⟨key, own, rfl⟩
          · simpa using undeclared

theorem literalEntries_agree (distinct : (properties.map Property.name).Nodup) :
    ∀ first ∈ literalEntries properties index value,
      ∀ second ∈ literalEntries properties index value, first.1 = second.1 → first = second := by
  intro first firstIn second secondIn same
  rcases mem_literalEntries.mp firstIn with ⟨property, member, rfl⟩ | ⟨indexType, indexed, key,
    own, undeclared, rfl⟩
  · rcases mem_literalEntries.mp secondIn with ⟨other, otherIn, rfl⟩ | ⟨_, _, _, _, undeclared, rfl⟩
    · rw [eq_of_name_eq distinct member otherIn same]
    · exact absurd (List.mem_map.mpr ⟨property, member, same⟩) undeclared
  · rcases mem_literalEntries.mp secondIn with ⟨other, otherIn, rfl⟩ | ⟨otherType, otherIndexed,
      otherKey, _, _, rfl⟩
    · exact absurd (List.mem_map.mpr ⟨other, otherIn, same.symm⟩) undeclared
    · have sameKey : key = otherKey := same
      rw [sameKey, Option.some.inj (indexed.symm.trans otherIndexed)]

theorem mem_keys_literalEntries {literal : ReflectedType} {key : String} :
    key ∈ (literalEntries (objectLiteralPropertiesFromType environment literal)
        (objectLiteralIndexType environment literal) value).map Prod.fst ↔
      Declares environment literal key ∨ Indexes environment literal value key := by
  constructor
  · intro member
    rcases List.mem_map.mp member with ⟨entry, inside, rfl⟩
    rcases mem_literalEntries.mp inside with ⟨property, declared, rfl⟩ | ⟨indexType, indexed, key,
      own, -, rfl⟩
    · exact Or.inl (List.mem_map.mpr ⟨property, declared, rfl⟩)
    · exact Or.inr ⟨by simp [indexed], own⟩
  · intro either
    by_cases declared : Declares environment literal key
    · rcases List.mem_map.mp declared with ⟨property, inside, rfl⟩
      exact List.mem_map.mpr ⟨_, mem_literalEntries.mpr (Or.inl ⟨property, inside, rfl⟩), rfl⟩
    · rcases either with declaredToo | ⟨indexed, own⟩
      · exact absurd declaredToo declared
      · rcases Option.isSome_iff_exists.mp indexed with ⟨indexType, found⟩
        exact List.mem_map.mpr ⟨_, mem_literalEntries.mpr
          (Or.inr ⟨indexType, found, key, own, declared, rfl⟩), rfl⟩

theorem structureErrors_of_isComposite {path : String} (composite : value.isComposite = true)
    (validated : validateValue environment value type path = []) :
    knownPrimitiveKind environment (unwrapValueType environment type) = none ∧
      structureErrors environment value (unwrapValueType environment type)
        (fun index element => validateValue environment (value.item index)
          (environment.type element) (joinPath path (toString index)))
        (fun key element => validateValue environment (value.get key) (environment.type element)
          (joinPath path key))
        ((unwrapValueType environment type).branches.map fun branch =>
          validateValue environment value branch path)
        (checkAnnotations environment type value path) path = [] := by
  have proper : value.isUndefined = false ∧ value.isNull = false ∧ isString value = false ∧
      isNumber value = false := by
    cases value with
    | array items => exact ⟨rfl, rfl, rfl, rfl⟩
    | object prototype properties => exact ⟨rfl, rfl, rfl, rfl⟩
    | _ => cases composite
  rw [validateValue_of_proper proper.1 proper.2.1] at validated
  refine ⟨?_, validated⟩
  cases known : knownPrimitiveKind environment (unwrapValueType environment type) with
  | none => rfl
  | some kind =>
      cases kind with
      | string => simp [structureErrors, known, typeError, proper.2.2.1] at validated
      | number => simp [structureErrors, known, typeError, proper.2.2.2] at validated

theorem property_of_flatMap {member : String → TypeId → List ValidatorError}
    (passed : (properties.flatMap fun found =>
      if (value.get found.name).isUndefined ∧ found.optional then []
      else member found.name found.type) = []) {property : Property}
    (declared : property ∈ properties) :
    (value.get property.name).isUndefined = true ∧ property.optional = true ∨
      member property.name property.type = [] := by
  have own := List.flatMap_eq_nil_iff.mp passed property declared
  split at own
  · rename_i skipped
    exact Or.inl skipped
  · exact Or.inr own

theorem Filled.get_eq {before prototype : Value} {properties : List (String × Value)}
    (filled : Filled environment convert entries before prototype fields properties)
    (inside : entry ∈ entries) (ordinary : entry.1 ≠ "__proto__") :
    convert entry.2.1 (environment.type entry.2.2) =
      some ((Value.object prototype properties).get entry.1) := by
  rcases filled.written entry inside ordinary with ⟨converted, conversion, found⟩
  simp [Value.get, Value.own?, found, conversion]

theorem Filled.mem_ownKeys {before prototype : Value} {properties : List (String × Value)}
    (filled : Filled environment convert entries before prototype fields properties) {key : String}
    (ordinary : key ≠ "__proto__") :
    key ∈ (Value.object prototype properties).ownKeys ↔
      key ∈ (Value.object prototype fields).ownKeys ∨ key ∈ entries.map Prod.fst := by
  rw [mem_ownKeys_object, mem_ownKeys_object]
  by_cases member : key ∈ entries.map Prod.fst
  · rcases List.mem_map.mp member with ⟨entry, inside, rfl⟩
    rcases filled.written entry inside ordinary with ⟨converted, -, found⟩
    simp only [found, Option.isSome_some, member, or_true]
  · rw [filled.unwritten key member]
    simp only [member, or_false]

section Induction

variable {budget : ℕ}
  (ih : ∀ (input : Value) (type : ReflectedType) (result : Value) (path : String),
    deserializeValue environment conversions budget input type = some result →
      validateValue environment result type path = [] →
        Faithful environment conversions type input result)
  {input : Value} {path : String} {type : ReflectedType}

include ih

theorem declared_of_filled {properties : List Property} {index : Option TypeId}
    {before prototype : Value} {fields written : List (String × Value)}
    (filled : Filled environment (deserializeValue environment conversions budget)
      (literalEntries properties index input) before prototype fields written)
    (checked : (properties.flatMap fun found =>
      if ((Value.object prototype written).get found.name).isUndefined ∧ found.optional then []
      else validateValue environment ((Value.object prototype written).get found.name)
        (environment.type found.type) (joinPath path found.name)) = []) {property : Property}
    (declared : property ∈ properties) (ordinary : property.name ≠ "__proto__")
    (own : input.get property.name = input.ownValue property.name) :
    Converted environment conversions input (.object prototype written) property.name
        property.type property.optional ∧
      Faithful environment conversions (environment.type property.type)
        (input.ownValue property.name) ((Value.object prototype written).get property.name) := by
  have read := filled.get_eq (mem_literalEntries.mpr (Or.inl ⟨property, declared, rfl⟩)) ordinary
  simp only [own] at read
  rcases @property_of_flatMap _ _ (fun key type => validateValue environment
    ((Value.object prototype written).get key) (environment.type type) (joinPath path key)) checked
    property declared with skipped | valid
  · refine ⟨⟨⟨budget, read⟩, Or.inl skipped⟩, Faithful.scalar ?_⟩
    cases held : (Value.object prototype written).get property.name with
    | undefined => rfl
    | _ => simp [held, Value.isUndefined] at skipped
  · exact ⟨⟨⟨budget, read⟩, Or.inr ⟨_, valid⟩⟩, ih _ _ _ _ read valid⟩

theorem faithful_of_literalResult {literal : ReflectedType} {result : Value}
    (unwrapped : unwrapValueType environment type = literal)
    (isLiteral : literal.isObjectLiteral = true)
    (made : literalResult environment (deserializeValue environment conversions budget) literal
      input = some result) (validated : validateValue environment result type path = []) :
    Faithful environment conversions type input result := by
  simp only [literalResult] at made
  split at made
  · rename_i undeclared
    cases made
    exact Faithful.undeclared unwrapped isLiteral undeclared
  rcases filled_of_fill (literalEntries_agree (nodup_names_objectLiteralPropertiesFromType literal))
    made with ⟨prototype, properties, rfl, filled⟩
  have owned : ∀ key, key ≠ "__proto__" →
      (key ∈ (Value.object prototype properties).ownKeys ↔
        Declares environment literal key ∨ Indexes environment literal input key) := by
    intro key ordinary
    have none : key ∉ (Value.object prototype []).ownKeys := by
      rw [mem_ownKeys_object]
      exact Bool.false_ne_true
    rw [filled.mem_ownKeys ordinary, ← mem_keys_literalEntries]
    exact or_iff_right none
  rcases structureErrors_of_isComposite rfl validated with ⟨unknown, errors⟩
  rw [unwrapped] at unknown errors
  cases literal with
  | objectLiteral metadata types index implements =>
      simp only [structureErrors, unknown, Value.isObject, ↓reduceIte,
        List.append_eq_nil_iff] at errors
      have indexedBoth : ∀ indexType,
          objectLiteralIndexType environment (.objectLiteral metadata types index implements) =
            some indexType → ∀ key ∈ input.ownKeys, key ≠ "__proto__" →
          ¬Declares environment (.objectLiteral metadata types index implements) key →
          Converted environment conversions input (.object prototype properties) key indexType
              false ∧
            Faithful environment conversions (environment.type indexType) (input.ownValue key)
              ((Value.object prototype properties).get key) := by
        intro indexType found key own ordinary undeclared
        have read := filled.get_eq (mem_literalEntries.mpr
          (Or.inr ⟨indexType, found, key, own, undeclared, rfl⟩)) ordinary
        have present := (owned key ordinary).mpr (Or.inr ⟨by simp [found], own⟩)
        simp only [found] at errors
        have valid := List.flatMap_eq_nil_iff.mp errors.1.2 key present
        split at valid
        · rename_i declared
          refine absurd ?_ undeclared
          simpa [Declares] using declared
        · exact ⟨⟨⟨budget, read⟩, Or.inr ⟨_, valid⟩⟩, ih _ _ _ _ read valid⟩
      refine Faithful.literal unwrapped isLiteral owned ?_ ?_ ?_ ?_ ?_
      · intro undeclared unindexed
        have absent := (not_iff_not.mpr mem_keys_literalEntries).mpr
          (not_or.mpr ⟨undeclared, unindexed⟩)
        refine ⟨filled.prototype absent, ?_⟩
        rw [mem_ownKeys_object, filled.unwritten _ absent]
        exact Bool.false_ne_true
      · exact fun property declared ordinary own =>
          (declared_of_filled ih filled errors.1.1 declared ordinary own).1
      · exact fun property declared ordinary own =>
          (declared_of_filled ih filled errors.1.1 declared ordinary own).2
      · exact fun indexType found key own ordinary undeclared =>
          (indexedBoth indexType found key own ordinary undeclared).1
      · exact fun indexType found key own ordinary undeclared =>
          (indexedBoth indexType found key own ordinary undeclared).2
  | _ => cases isLiteral

theorem faithful_of_instance {metadata : TypeMetadata} {index : ℕ} {result : Value}
    (unwrapped : unwrapValueType environment type = .class metadata (some (.named index)))
    (made : fill environment (deserializeValue environment conversions budget)
      (.object (conversions.construct (.named index)).1 (conversions.construct (.named index)).2)
      (literalEntries (environment.classProperties (.named index)) none input) = some result)
    (validated : validateValue environment result type path = []) :
    Faithful environment conversions type input result := by
  rcases filled_of_fill (literalEntries_agree (environment.classNames (.named index))) made with
    ⟨prototype, properties, rfl, filled⟩
  rcases structureErrors_of_isComposite rfl validated with ⟨unknown, errors⟩
  rw [unwrapped] at unknown errors
  simp only [structureErrors, unknown, List.append_eq_nil_iff] at errors
  have entryKeys : (literalEntries (environment.classProperties (.named index)) none input).map
      Prod.fst = (environment.classProperties (.named index)).map Property.name := by
    simp [literalEntries]
  refine Faithful.instance unwrapped ?_ ?_ ?_ ?_
  · intro key ordinary
    rw [filled.mem_ownKeys ordinary, entryKeys]
  · intro absent
    exact filled.prototype (entryKeys ▸ absent)
  · exact fun property declared ordinary own =>
      (declared_of_filled ih filled errors.1 declared ordinary own).1
  · exact fun property declared ordinary own =>
      (declared_of_filled ih filled errors.1 declared ordinary own).2

end Induction

theorem unionResult_cases {result : Value} {types : List ReflectedType}
    (made : unionResult environment convert value types = some result) :
    (∃ branch ∈ types, convert value branch = some result ∧ Accepts environment result branch) ∨
      (result = value ∧ ∀ branch ∈ types, ∃ candidate, convert value branch = some candidate ∧
        ¬Accepts environment candidate branch) := by
  induction types with
  | nil =>
      cases made
      exact Or.inr ⟨rfl, by simp⟩
  | cons branch rest ih =>
      simp only [unionResult] at made
      rcases Option.bind_eq_some_iff.mp made with ⟨candidate, converted, onwards⟩
      split at onwards
      · rename_i accepted
        cases onwards
        exact Or.inl ⟨branch, List.mem_cons_self, converted, accepted⟩
      · rename_i rejected
        rcases ih onwards with ⟨found, member, facts⟩ | ⟨same, none⟩
        · exact Or.inl ⟨found, List.mem_cons_of_mem _ member, facts⟩
        · refine Or.inr ⟨same, fun found member => ?_⟩
          rcases List.mem_cons.mp member with rfl | later
          · exact ⟨candidate, converted, rejected⟩
          · exact none found later

theorem forall₂_getElem? {Item Result : Type} {related : Item → Result → Prop} {items : List Item}
    {results : List Result} (each : List.Forall₂ related items results) {index : ℕ} {item : Item}
    {result : Result} (found : items[index]? = some item)
    (foundToo : results[index]? = some result) :
    related item result := by
  rcases List.getElem?_eq_some_iff.mp found with ⟨inside, rfl⟩
  rcases List.getElem?_eq_some_iff.mp foundToo with ⟨insideToo, rfl⟩
  exact each.get inside insideToo

theorem hasTypeObject_of_isComposite (composite : value.isComposite = true) :
    value.hasTypeObject = true := by
  cases value with
  | array items => rfl
  | object prototype properties => rfl
  | _ => cases composite

theorem faithful_of_structureResult {budget : ℕ} {input result : Value} {path : String}
    (ih : ∀ (input : Value) (type : ReflectedType) (result : Value) (path : String),
      deserializeValue environment conversions budget input type = some result →
      validateValue environment result type path = [] →
      Faithful environment conversions type input result) (composite : result.isComposite = true)
    (made : structureResult environment conversions
        (deserializeValue environment conversions budget)
      input (unwrapValueType environment type) = some result)
    (validated : validateValue environment result type path = []) :
    Faithful environment conversions type input result := by
  rcases structureErrors_of_isComposite composite validated with ⟨unknown, errors⟩
  cases unwrapped : unwrapValueType environment type with
  | array metadata element =>
      rw [unwrapped] at made unknown errors
      cases input with
      | array items =>
          simp only [structureResult] at made
          rcases Option.map_eq_some_iff.mp made with ⟨results, each, rfl⟩
          have converted := forall₂_of_mapM each
          simp only [structureErrors, unknown, List.append_eq_nil_iff] at errors
          refine Faithful.array unwrapped converted.length_eq.symm
            fun index item result found foundToo => ?_
          have inside : index < results.length := (List.getElem?_eq_some_iff.mp foundToo).1
          have valid := List.flatMap_eq_nil_iff.mp errors.1 index (List.mem_range.mpr inside)
          simp only [Value.item, List.getD_eq_getElem?_getD, foundToo, Option.getD_some] at valid
          exact ih _ _ _ _ (forall₂_getElem? converted found foundToo) valid
      | _ =>
          cases made
          simp [structureErrors, unknown, typeError] at errors composite
  | tuple metadata elements =>
      rw [unwrapped] at made unknown errors
      cases input with
      | array items =>
          simp only [structureResult] at made
          rcases Option.map_eq_some_iff.mp made with ⟨results, each, rfl⟩
          have converted := forall₂_of_mapM each
          simp only [structureErrors, unknown, List.append_eq_nil_iff] at errors
          refine Faithful.tuple unwrapped (by simpa using converted.length_eq.symm)
            fun index element result found foundToo => ?_
          have placed : elements.zipIdx[index]? = some (element, index) := by
            simp [List.getElem?_zipIdx, found]
          have valid := List.flatMap_eq_nil_iff.mp errors.1 _ (List.mem_of_getElem? placed)
          simp only [Value.item, List.getD_eq_getElem?_getD, foundToo, Option.getD_some] at valid
          exact ih _ _ _ _ (forall₂_getElem? converted placed foundToo) valid
      | _ =>
          cases made
          simp [structureErrors, unknown, typeError] at errors composite
  | union metadata types =>
      rw [unwrapped] at made
      rcases unionResult_cases made with ⟨branch, member, converted, accepted⟩ | ⟨rfl, none⟩
      · exact Faithful.union unwrapped member accepted (ih _ _ _ _ converted accepted)
      · exact Faithful.unmatched unwrapped budget none
  | objectLiteral metadata types index implements =>
      rw [unwrapped] at made
      simp only [structureResult] at made
      split at made
      · exact faithful_of_literalResult ih unwrapped rfl made validated
      · rename_i scalar
        cases made
        exact absurd (hasTypeObject_of_isComposite composite) scalar
  | «class» metadata classType =>
      cases classType with
      | none => exact Faithful.unstructured (by rw [unwrapped]; rfl)
      | some found =>
          cases found with
          | date => exact Faithful.unstructured (by rw [unwrapped]; rfl)
          | named index =>
              rw [unwrapped] at made
              simp only [structureResult] at made
              split at made
              · exact faithful_of_instance ih unwrapped made validated
              · rename_i scalar
                cases made
                exact absurd (hasTypeObject_of_isComposite composite) scalar
  | _ => exact Faithful.unstructured (by rw [unwrapped]; rfl)

theorem faithful_of_deserializeValue (budget : ℕ) (input : Value) (type : ReflectedType)
    (result : Value) (path : String)
    (made : deserializeValue environment conversions budget input type = some result)
    (validated : validateValue environment result type path = []) :
    Faithful environment conversions type input result := by
  induction budget generalizing input type result path with
  | zero => cases made
  | succ budget ih =>
      by_cases scalar : result.isComposite = false
      · exact Faithful.scalar scalar
      have composite : result.isComposite = true := by simpa using scalar
      simp only [deserializeValue] at made
      split at made
      · rename_i absent
        cases made
        cases input with
        | undefined => cases composite
        | null => cases composite
        | _ => simp [Value.isUndefined, Value.isNull] at absent
      split at made
      · rename_i metadata types
        split at made
        · rename_i object
          split at made
          · rename_i merged found
            rcases Option.map_eq_some_iff.mp made with ⟨raw, literalMade, rfl⟩
            have outer := conversions.apply_of_isComposite composite
            rw [outer] at composite validated ⊢
            have inner := conversions.apply_of_isComposite composite
            rw [inner] at composite validated ⊢
            have unwrapped : unwrapValueType environment (.intersection metadata types) =
                merged := by
              have merges : mergedLiteral (objectLiteralPropertiesFromType environment)
                  (.intersection metadata types) = some merged := found
              simp only [unwrapValueType, unwrapWith, merges, Option.getD_some]
            have isLiteral : merged.isObjectLiteral = true := by
              simp only [mergedIntersectionObjectLiteral, mergedLiteral] at found
              split at found
              · split at found
                · cases found
                · cases found
                  rfl
              · cases found
            exact faithful_of_literalResult ih unwrapped isLiteral literalMade validated
          · rename_i unmerged
            exact Faithful.unmerged (Or.inl unmerged)
        · rename_i scalarInput
          refine Faithful.unmerged (Or.inr ?_)
          simpa [or_iff_not_imp_left] using scalarInput
      · rcases Option.map_eq_some_iff.mp made with ⟨raw, structureMade, rfl⟩
        have undecorated := conversions.apply_of_isComposite composite
        rw [undecorated] at composite validated ⊢
        exact faithful_of_structureResult ih composite structureMade validated

/-- What `validatedDeserialize` returns is faithful to its input. -/
theorem faithful_of_validatedDeserialize {budget : ℕ} {input : Value} {type : ReflectedType}
    {result : Value}
    (returned : validatedDeserialize environment conversions budget input type =
      some (.ok result)) : Faithful environment conversions type input result := by
  rcases Option.map_eq_some_iff.mp returned with ⟨made, deserialized, outcome⟩
  split at outcome
  · rename_i validated
    cases outcome
    exact faithful_of_deserializeValue budget input type result "" deserialized validated
  · cases outcome

end Faithful

/-- The decorators of the library, with a cleaning of phone numbers that finds none valid. -/
def plainConversions (environment : Environment) : Conversions :=
  ⟨builtInDecorators environment (fun _ => "¡InvalidPhone¡") (fun _ => "¡InvalidPhone¡"),
    fun _ => (.objectPrototype, []), fun _ => none, builtInDecorators_keep⟩

/-- `{ label: string }` drops `__proto__` from a document. -/
theorem faithful_label_with_proto :
    Faithful amountEnvironment (plainConversions amountEnvironment)
      labelled
      (.object .objectPrototype [("label", .string "x"),
        ("__proto__", .object .objectPrototype [("admin", .boolean true)])])
      (.object .objectPrototype [("label", .string "x")]) := by
  have deserialized : deserializeValue amountEnvironment (plainConversions amountEnvironment) 2
      (.object .objectPrototype [("label", .string "x"),
        ("__proto__", .object .objectPrototype [("admin", .boolean true)])])
      labelled =
      some (.object .objectPrototype [("label", .string "x")]) := by
    rfl
  have label : validateValue amountEnvironment (.string "x") plainString "label" = [] := by
    rw [validateValue_of_proper rfl rfl]
    decide +kernel
  have validated : validateValue amountEnvironment
      (.object .objectPrototype [("label", .string "x")])
      labelled "" = [] := by
    refine (accepts_iff_of_objectLiteral rfl rfl rfl (by decide +kernel) (by decide +kernel)).mpr
      ⟨rfl, fun property declared => ?_, by decide +kernel⟩
    have only : objectLiteralPropertiesFromType amountEnvironment labelled =
        [⟨"label", 0, false⟩] := by decide +kernel
    rw [show property = ⟨"label", 0, false⟩ from List.mem_singleton.mp (only ▸ declared)]
    exact Or.inr label
  have returned : validatedDeserialize amountEnvironment (plainConversions amountEnvironment) 2
      (.object .objectPrototype [("label", .string "x"),
        ("__proto__", .object .objectPrototype [("admin", .boolean true)])]) labelled =
      some (.ok (.object .objectPrototype [("label", .string "x")])) := by
    simp only [validatedDeserialize, deserialized, validated, Option.map_some]
  exact faithful_of_validatedDeserialize returned

/-- `{}` returns a document with its keys, which it does not declare. -/
theorem empty_literal_keeps_keys :
    ∃ result, validatedDeserialize .empty (plainConversions .empty) 1
        (.object .objectPrototype [("a", .number (.finite 1))]) (.objectLiteral .bare [] none []) =
        some (.ok result) ∧
      ¬∀ key, key ∈ result.ownKeys ↔
        Declares .empty (.objectLiteral .bare [] none []) key ∨
          Indexes .empty (.objectLiteral .bare [] none [])
            (.object .objectPrototype [("a", .number (.finite 1))]) key := by
  refine ⟨.object .objectPrototype [("a", .number (.finite 1))], ?_, ?_⟩
  · have validated : validateValue .empty (.object .objectPrototype [("a", .number (.finite 1))])
        (.objectLiteral .bare [] none []) "" = [] := by
      rw [validateValue_of_proper rfl rfl]
      decide +kernel
    have deserialized : deserializeValue .empty (plainConversions .empty) 1
        (.object .objectPrototype [("a", .number (.finite 1))]) (.objectLiteral .bare [] none []) =
        some (.object .objectPrototype [("a", .number (.finite 1))]) := by rfl
    simp only [validatedDeserialize, deserialized, validated, Option.map_some]
  · intro exact_
    have declared := (exact_ "a").mp (by decide +kernel)
    revert declared
    simp only [Declares, Indexes]
    decide +kernel

end ServerFoundation.Reflection
