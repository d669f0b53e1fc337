import ServerFoundation.Reflection.FaithfulDeserialization

/-!
# Deserialization of unions of object literals

A union is deserialized by the first of its branches that accepts what it makes of the
value. What is left of a property depends on the branch that is chosen alone, so a
property that only a later branch declares is lost.
-/

namespace ServerFoundation.Reflection

variable {environment : Environment} {conversions : Conversions}

section Choice

variable (environment)

/-- Without properties and without an index signature. -/
def IsEmptyLiteral (literal : ReflectedType) : Prop :=
  objectLiteralPropertiesFromType environment literal = [] ∧
    objectLiteralIndexType environment literal = none

instance (literal : ReflectedType) : Decidable (IsEmptyLiteral environment literal) :=
  inferInstanceAs (Decidable (_ ∧ _))

/-- The type that an object literal has for a key. -/
def typeAt (literal : ReflectedType) (key : String) : Option TypeId :=
  (((objectLiteralPropertiesFromType environment literal).find? fun property =>
    property.name = key).map Property.type).or (objectLiteralIndexType environment literal)

/-- What an object literal makes of an own property; the empty one leaves all as they are. -/
def valueAt (convert : Value → ReflectedType → Option Value) (literal : ReflectedType)
    (value : Value) (key : String) : Option Value :=
  if IsEmptyLiteral environment literal then value.own? key
  else (typeAt environment literal key).bind fun type =>
    convert (value.ownValue key) (environment.type type)

/-- The first branch that accepts what it makes of a value. -/
def chosenBranch (convert : Value → ReflectedType → Option Value) (value : Value)
    (types : List ReflectedType) : Option ReflectedType :=
  types.find? fun branch => (convert value branch).any fun candidate =>
    validateValue environment candidate branch "" = []

/-- What becomes of an own property. -/
def outcomeAt (convert convertPart : Value → ReflectedType → Option Value) (value : Value)
    (types : List ReflectedType) (key : String) : Option Value :=
  match chosenBranch environment convert value types with
  | some branch => valueAt environment convertPart branch value key
  | none => value.own? key

variable {environment}

theorem unionResult_eq {convert : Value → ReflectedType → Option Value} {value result : Value}
    {types : List ReflectedType}
    (made : unionResult environment convert value types = some result) :
    match chosenBranch environment convert value types with
    | some branch => branch ∈ types ∧ convert value branch = some result
    | none => result = value := by
  induction types with
  | nil =>
      cases made
      rfl
  | cons branch rest ih =>
      rw [unionResult] at made
      rcases Option.bind_eq_some_iff.mp made with ⟨candidate, converted, onwards⟩
      rw [chosenBranch, List.find?_cons, converted]
      split at onwards
      · rename_i accepted
        cases onwards
        simp [accepted, converted]
      · rename_i rejected
        have later := ih onwards
        rw [chosenBranch] at later
        simp only [Option.any_some, rejected, decide_false]
        split at later
        · rename_i found chosen
          rw [chosen]
          exact ⟨List.mem_cons_of_mem _ later.1, later.2⟩
        · rename_i none
          rw [none]
          exact later

end Choice

section Literals

variable {literal : ReflectedType} {key : String}

theorem typeAt_of_property {property : Property}
    (declared : property ∈ objectLiteralPropertiesFromType environment literal) :
    typeAt environment literal property.name = some property.type := by
  cases found : (objectLiteralPropertiesFromType environment literal).find? fun other =>
      other.name = property.name with
  | none =>
      have differs := List.find?_eq_none.mp found property declared
      simp at differs
  | some other =>
      have sameName : other.name = property.name := by simpa using List.find?_some found
      have same := eq_of_name_eq (nodup_names_objectLiteralPropertiesFromType literal)
        (List.mem_of_find?_eq_some found) declared sameName
      rw [typeAt, found, same, Option.map_some, Option.some_or]

theorem typeAt_of_undeclared (undeclared : ¬Declares environment literal key) :
    typeAt environment literal key = objectLiteralIndexType environment literal := by
  have absent : ((objectLiteralPropertiesFromType environment literal).find? fun property =>
      property.name = key) = none := by
    rw [List.find?_eq_none]
    intro property member
    simpa using fun same : property.name = key =>
      undeclared (List.mem_map.mpr ⟨property, member, same⟩)
  rw [typeAt, absent, Option.map_none, Option.none_or]

theorem get_of_mem_ownKeys {value : Value} (own : (value.own? key).isSome = true) :
    value.get key = value.ownValue key := by
  rcases Option.isSome_iff_exists.mp own with ⟨item, found⟩
  rw [Value.get, Value.ownValue, found, Option.getD_some, Option.getD_some]

theorem own?_of_literalResult {convert : Value → ReflectedType → Option Value}
    {prototype result : Value} {properties : List (String × Value)}
    (own : key ∈ (Value.object prototype properties).ownKeys) (ordinary : key ≠ "__proto__")
    (made : literalResult environment convert literal (.object prototype properties) =
      some result) :
    result.own? key = valueAt environment convert literal (.object prototype properties) key ∧
      (Declares environment literal key → (result.own? key).isSome = true) := by
  have isOwn : ((Value.object prototype properties).own? key).isSome = true :=
    mem_ownKeys_object.mp own
  unfold literalResult at made
  dsimp only at made
  unfold valueAt
  by_cases empty : IsEmptyLiteral environment literal
  · rw [if_pos empty]
    rw [IsEmptyLiteral] at empty
    rw [if_pos empty] at made
    cases made
    exact ⟨rfl, fun _ => isOwn⟩
  · rw [if_neg empty]
    rw [IsEmptyLiteral] at empty
    rw [if_neg empty] at made
    rcases filled_of_fill
      (literalEntries_agree (nodup_names_objectLiteralPropertiesFromType literal)) made with
        ⟨prototype', properties', rfl, filled⟩
    have written : ∀ entry ∈ literalEntries (objectLiteralPropertiesFromType environment literal)
        (objectLiteralIndexType environment literal) (.object prototype properties),
        entry.1 = key → properties'.lookup key =
          convert entry.2.1 (environment.type entry.2.2) ∧ (properties'.lookup key).isSome =
              true := by
      rintro entry member rfl
      rcases filled.written entry member ordinary with ⟨converted, conversion, found⟩
      rw [found, conversion]
      exact ⟨rfl, rfl⟩
    by_cases declared : Declares environment literal key
    · rcases List.mem_map.mp declared with ⟨property, member, rfl⟩
      rw [typeAt_of_property member, Option.bind_some, ← get_of_mem_ownKeys isOwn]
      have shown := written _ (mem_literalEntries.mpr (Or.inl ⟨property, member, rfl⟩)) rfl
      exact ⟨shown.1, fun _ => shown.2⟩
    · rw [typeAt_of_undeclared declared]
      cases indexed : objectLiteralIndexType environment literal with
      | some indexType =>
          have shown := written _ (mem_literalEntries.mpr
            (Or.inr ⟨indexType, indexed, key, own, declared, rfl⟩)) rfl
          exact ⟨shown.1, fun isDeclared => absurd isDeclared declared⟩
      | none =>
          have outside : key ∉ (literalEntries (objectLiteralPropertiesFromType environment literal)
              (objectLiteralIndexType environment literal)
              (.object prototype properties)).map Prod.fst := by
            rw [mem_keys_literalEntries, not_or, Indexes, indexed]
            refine ⟨declared, ?_⟩
            rintro ⟨⟨⟩, -⟩
          exact ⟨filled.unwritten key outside, fun isDeclared => absurd isDeclared declared⟩

end Literals

section Unions

variable {budget : ℕ} {metadata : TypeMetadata} {types : List ReflectedType}
  {properties : List (String × Value)}

/-- No decorator is registered for a type. -/
def Undecorated (conversions : Conversions) (type : ReflectedType) : Prop :=
  ∀ decorator ∈ conversions.decorators, decorator.predicate type = false

theorem apply_of_undecorated {type : ReflectedType} (undecorated : Undecorated conversions type) :
    conversions.apply type = id := by
  funext value
  rw [Conversions.apply]
  revert undecorated
  rw [Undecorated]
  induction conversions.decorators with
  | nil => exact fun _ => rfl
  | cons decorator rest ih =>
      intro undecorated
      rw [List.foldl_cons, undecorated decorator List.mem_cons_self]
      exact ih fun other member => undecorated other (List.mem_cons_of_mem _ member)

theorem deserializeValue_literal {literal : ReflectedType} {prototype : Value}
    (isLiteral : literal.isObjectLiteral = true) (undecorated : Undecorated conversions literal) :
    deserializeValue environment conversions (budget + 1) (.object prototype properties) literal =
      literalResult environment (deserializeValue environment conversions budget) literal
        (.object prototype properties) := by
  cases literal with
  | objectLiteral metadata types index implements =>
      have unwrapped : unwrapValueType environment
        (.objectLiteral metadata types index implements) =
          .objectLiteral metadata types index implements := rfl
      simp only [deserializeValue, unwrapped, structureResult, Value.hasTypeObject, Value.isObject,
        Value.isUndefined, Value.isNull, apply_of_undecorated undecorated, Option.map_id]
      simp
  | _ => cases isLiteral

theorem deserializeValue_union {prototype : Value} (several : 2 ≤ types.length)
    (literals : ∀ branch ∈ types, branch.isObjectLiteral = true)
    (undecorated : Undecorated conversions (.union metadata types)) :
    deserializeValue environment conversions (budget + 1) (.object prototype properties)
        (.union metadata types) =
      unionResult environment (deserializeValue environment conversions budget)
        (.object prototype properties) types := by
  have concrete : concreteBranches types = types := by
    rw [concreteBranches, List.filter_eq_self]
    intro branch member
    have isLiteral := literals branch member
    cases branch with
    | objectLiteral => rfl
    | _ => cases isLiteral
  have unwrapped : unwrapValueType environment (.union metadata types) = .union metadata types := by
    apply unwrapValueType_union_of_several
    rintro only single
    rw [concrete] at single
    rw [single] at several
    simp at several
  simp only [deserializeValue, unwrapped, structureResult, Value.isUndefined, Value.isNull,
    apply_of_undecorated undecorated, Option.map_id]
  simp

/-- Every own property of a value is kept with what a branch makes of it. -/
def KeepsAll (value kept result : Value) : Prop :=
  ∀ key ∈ value.ownKeys, ∃ item, kept.own? key = some item ∧ result.own? key = some item

/-- A union keeps every own property as a branch that declares them all would, if and only if
the branch that is chosen makes the same of each. -/
theorem union_keepsAll_iff {properties : List (String × Value)} {branch : ReflectedType}
    {kept result : Value} (several : 2 ≤ types.length)
    (literals : ∀ branch ∈ types, branch.isObjectLiteral = true)
    (undecorated : ∀ type ∈ .union metadata types :: types, Undecorated conversions type)
    (member : branch ∈ types)
    (declares : ∀ key ∈ (Value.object .objectPrototype properties).ownKeys,
      Declares environment branch key)
    (ordinary : "__proto__" ∉ (Value.object .objectPrototype properties).ownKeys)
    (alone : deserializeValue environment conversions (budget + 1)
      (.object .objectPrototype properties) branch = some kept)
    (made : deserializeValue environment conversions (budget + 2)
      (.object .objectPrototype properties) (.union metadata types) = some result) :
    KeepsAll (.object .objectPrototype properties) kept result ↔
      ∀ key ∈ (Value.object .objectPrototype properties).ownKeys,
        outcomeAt environment (deserializeValue environment conversions (budget + 1))
            (deserializeValue environment conversions budget)
            (.object .objectPrototype properties) types key =
          valueAt environment (deserializeValue environment conversions budget) branch
            (.object .objectPrototype properties) key := by
  have ofBranch : ∀ found ∈ types, ∀ candidate, deserializeValue environment conversions
      (budget + 1) (.object .objectPrototype properties) found = some candidate →
      ∀ key ∈ (Value.object .objectPrototype properties).ownKeys,
        candidate.own? key = valueAt environment (deserializeValue environment conversions budget)
            found (.object .objectPrototype properties) key ∧
          (Declares environment found key → (candidate.own? key).isSome = true) := by
    intro found among candidate converted key own
    rw [deserializeValue_literal (literals found among)
      (undecorated found (List.mem_cons_of_mem _ among))] at converted
    exact own?_of_literalResult own (fun same => ordinary (same ▸ own)) converted
  have chosen : ∀ key ∈ (Value.object .objectPrototype properties).ownKeys,
      result.own? key = outcomeAt environment
        (deserializeValue environment conversions (budget + 1))
        (deserializeValue environment conversions budget)
        (.object .objectPrototype properties) types key := by
    intro key own
    rw [deserializeValue_union several literals (undecorated _ List.mem_cons_self)] at made
    have decided := unionResult_eq made
    rw [outcomeAt]
    cases isChosen : chosenBranch environment
      (deserializeValue environment conversions (budget + 1))
        (.object .objectPrototype properties) types with
    | some found =>
        rw [isChosen] at decided
        exact (ofBranch found decided.1 result decided.2 key own).1
    | none =>
        rw [isChosen] at decided
        rw [decided]
  refine forall₂_congr fun key own => ?_
  rcases ofBranch branch member kept alone key own with ⟨shown, isKept⟩
  rcases Option.isSome_iff_exists.mp (isKept (declares key own)) with ⟨item, found⟩
  rw [← chosen key own, ← shown, found]
  constructor
  · rintro ⟨other, same, left⟩
    rw [same]
    exact left
  · exact fun same => ⟨item, rfl, same⟩

/-- `{ label: string, amount: number }`. -/
def labelledAmount : ReflectedType :=
  .objectLiteral .bare [⟨"label", 0, false⟩, ⟨"amount", 1, false⟩] none []

/-- `{ label: "x", amount: 1 }`. -/
def document : Value :=
  .object .objectPrototype [("label", .string "x"), ("amount", .number (.finite 1))]

theorem accepts_label :
    Accepts amountEnvironment (.object .objectPrototype [("label", .string "x")]) labelled := by
  have label : validateValue amountEnvironment (.string "x") plainString "label" = [] := by
    rw [validateValue_of_proper rfl rfl]
    decide +kernel
  refine (accepts_iff_of_objectLiteral rfl rfl rfl (by decide +kernel) (by decide +kernel)).mpr
    ⟨rfl, fun property declared => ?_, by decide +kernel⟩
  have only : objectLiteralPropertiesFromType amountEnvironment labelled =
      [⟨"label", 0, false⟩] := by decide +kernel
  rw [show property = ⟨"label", 0, false⟩ from List.mem_singleton.mp (only ▸ declared)]
  exact Or.inr label

theorem accepts_document : Accepts amountEnvironment document labelledAmount := by
  have label : validateValue amountEnvironment (.string "x") plainString "label" = [] := by
    rw [validateValue_of_proper rfl rfl]
    decide +kernel
  have amount : validateValue amountEnvironment (.number (.finite 1)) plainNumber "amount" =
      [] := by
    rw [validateValue_of_proper rfl rfl]
    decide +kernel
  refine (accepts_iff_of_objectLiteral rfl rfl rfl (by decide +kernel) (by decide +kernel)).mpr
    ⟨rfl, fun property declared => ?_, by decide +kernel⟩
  have both : objectLiteralPropertiesFromType amountEnvironment labelledAmount =
      [⟨"label", 0, false⟩, ⟨"amount", 1, false⟩] := by decide +kernel
  rcases List.mem_cons.mp (both ▸ declared) with rfl | last
  · exact Or.inr label
  · rw [List.mem_singleton.mp last]
    exact Or.inr amount

theorem undecorated_documents :
    ∀ type ∈ [.union .bare [labelled, labelledAmount], labelled, labelledAmount],
      Undecorated (plainConversions amountEnvironment) type := by
  unfold Undecorated
  decide +kernel

theorem deserializeValue_document (budget : ℕ) :
    deserializeValue amountEnvironment (plainConversions amountEnvironment) (budget + 3) document
      (.union .bare [labelled, labelledAmount]) =
        some (.object .objectPrototype [("label", .string "x")]) := by
  have converted : deserializeValue amountEnvironment (plainConversions amountEnvironment)
      (budget + 2) document labelled =
          some (.object .objectPrototype [("label", .string "x")]) := by
    rfl
  rw [document, deserializeValue_union (by decide) (by decide) (undecorated_documents _
    List.mem_cons_self), ← document, unionResult, converted, Option.bind_some]
  exact if_pos accepts_label

theorem union_keepsAll_iff_document :
    KeepsAll document document (.object .objectPrototype [("label", .string "x")]) ↔
      ∀ key ∈ document.ownKeys,
        outcomeAt amountEnvironment
            (deserializeValue amountEnvironment (plainConversions amountEnvironment) 2)
            (deserializeValue amountEnvironment (plainConversions amountEnvironment) 1)
            document [labelled, labelledAmount] key =
          valueAt amountEnvironment
            (deserializeValue amountEnvironment (plainConversions amountEnvironment) 1)
            labelledAmount document key :=
  union_keepsAll_iff (by decide) (by decide) undecorated_documents
    (List.mem_cons_of_mem _ List.mem_cons_self) (by unfold Declares; decide +kernel)
    (by decide +kernel) rfl (deserializeValue_document 0)

/-- The shorter branch comes first and takes the document, and its amount is lost. -/
theorem amount_lost :
    Accepts amountEnvironment document labelledAmount ∧
      (∀ key ∈ document.ownKeys, Declares amountEnvironment labelledAmount key) ∧
      ∀ budget, ∃ result,
        deserializeValue amountEnvironment (plainConversions amountEnvironment) (budget + 3)
          document (.union .bare [labelled, labelledAmount]) = some result ∧
        result.own? "amount" = none :=
  ⟨accepts_document, by unfold Declares; decide +kernel,
    fun budget => ⟨_, deserializeValue_document budget, rfl⟩⟩

end Unions

end ServerFoundation.Reflection
