import ServerFoundation.Reflection.Validation

/-!
# Deserialization

`deserializeValue` rebuilds a value by its type, with new objects that are filled one
property after the other. Writing `__proto__` does not create a property but sets the
prototype. The recursion has a budget, since an intersection converts what its first
members made of the value.
-/

namespace ServerFoundation.Reflection

namespace Value

/-- Arrays, and objects that are not built in. -/
def isComposite : Value → Bool
  | array _ => true
  | object _ _ => true
  | _ => false

/-- `Array.isArray`. -/
def isArray : Value → Bool
  | array _ => true
  | _ => false

/-- `value instanceof Date`. -/
def isDate : Value → Bool
  | date _ => true
  | _ => false

/-- `typeof value === 'object'`, of a value that is not `null`. -/
def hasTypeObject (value : Value) : Bool := value.isObject || value.isArray

/-- What a prototype can be set to. -/
def isPrototype : Value → Bool
  | null => true
  | native _ => true
  | value => value.hasTypeObject

/-- Whether `Object.prototype` is on the chain that starts here. -/
def reachesObject : Value → Bool
  | null => false
  | undefined => false
  | object prototype _ => reachesObject prototype
  | _ => true

/-- A property in its place, or at the end. -/
def place (properties : List (String × Value)) (key : String) (item : Value) :
    List (String × Value) :=
  match properties with
  | [] => [(key, item)]
  | (name, held) :: rest =>
      if name = key then (key, item) :: rest else (name, held) :: place rest key item

/-- `output[key] = item`. -/
def set (output : Value) (key : String) (item : Value) : Value :=
  match output with
  | object prototype properties =>
      if key = "__proto__" ∧ properties.lookup key = none ∧ prototype.reachesObject then
        if item.isPrototype then object item properties else object prototype properties
      else object prototype (place properties key item)
  | value => value

/-- `Object.entries`. -/
def entries (value : Value) : List (String × Value) :=
  value.ownKeys.map fun key => (key, (value.own? key).getD undefined)

/-- `Object.assign(target, source)`. -/
def assignFrom (target source : Value) : Value :=
  source.entries.foldl (fun output entry => output.set entry.1 entry.2) target

end Value

/-- A decorator of the registry: the types it is for, and its transforms one after the other. -/
structure Decorator where
  predicate : ReflectedType → Bool
  transform : ReflectedType → Value → Value

/-- The registered decorators, the prototype and the fields of a new instance of a class, and `new
Date(value)`. A decorator makes no arrays and objects of its own. -/
structure Conversions where
  decorators : List Decorator
  construct : ClassId → Value × List (String × Value)
  date : Value → Option ℤ
  keeps : ∀ decorator ∈ decorators, ∀ type value,
    (decorator.transform type value).isComposite = true → decorator.transform type value = value

/-- `DeserializerRegistry.apply`. -/
def Conversions.apply (conversions : Conversions) (type : ReflectedType) (value : Value) : Value :=
  conversions.decorators.foldl
    (fun result decorator =>
      if decorator.predicate type then decorator.transform type result else result) value

theorem Conversions.apply_of_isComposite {conversions : Conversions} {type : ReflectedType}
    {value : Value} (composite : (conversions.apply type value).isComposite = true) :
    conversions.apply type value = value := by
  have folded : ∀ (decorators : List Decorator), (∀ decorator ∈ decorators,
      decorator ∈ conversions.decorators) → ∀ start : Value,
      (decorators.foldl (fun result decorator =>
        if decorator.predicate type then decorator.transform type result else result)
        start).isComposite = true →
      decorators.foldl (fun result decorator =>
        if decorator.predicate type then decorator.transform type result else result) start =
        start := by
    intro decorators registered
    induction decorators with
    | nil => exact fun _ _ => rfl
    | cons decorator rest ih =>
        intro start composite
        rw [List.foldl_cons] at composite ⊢
        have onwards := ih (fun found member => registered found (List.mem_cons_of_mem _ member))
          _ composite
        rw [onwards] at composite ⊢
        split
        · rename_i applies
          simp only [applies, ↓reduceIte] at composite
          exact conversions.keeps decorator (registered decorator List.mem_cons_self) type start
            composite
        · rfl
  exact folded conversions.decorators (fun _ member => member) value composite

section BuiltIn

/-- The transform of trimmed strings. -/
def trimText : Value → Value
  | .string text => .string (String.ofList (JsNumber.trim text.toList))
  | value => value

/-- The decorators that the library registers: trimmed strings, and phone numbers in two forms. -/
def builtInDecorators (environment : Environment) (cleanPhone cleanPhoneNanp : Value → String) :
    List Decorator :=
  [⟨fun type => Option.isSome <| typeAnnotation environment type "tsf:trim", fun _ => trimText⟩,
    ⟨fun type => typeAnnotation environment type "tsf:type" = some (some (.string "phone")),
      fun _ value => .string (cleanPhone value)⟩,
    ⟨fun type => typeAnnotation environment type "tsf:type" = some (some (.string "phoneNanp")),
      fun _ value => .string (cleanPhoneNanp value)⟩]

theorem builtInDecorators_keep {environment : Environment}
    {cleanPhone cleanPhoneNanp : Value → String} :
    ∀ decorator ∈ builtInDecorators environment cleanPhone cleanPhoneNanp, ∀ type value,
      (decorator.transform type value).isComposite = true →
        decorator.transform type value = value := by
  intro decorator member type value composite
  simp only [builtInDecorators, List.mem_cons, List.not_mem_nil, or_false] at member
  rcases member with rfl | rfl | rfl
  · cases value with
    | string text => cases composite
    | _ => rfl
  · cases composite
  · cases composite

end BuiltIn

section Deserialize

variable (environment : Environment) (conversions : Conversions)

/-- `coerceBooleanValue`. -/
def coerceBooleanValue : Value → Value
  | .number value => .boolean (value ≠ .finite 0)
  | .bigint value => .boolean (value ≠ 0)
  | .string text =>
      if text = "true" ∨ text = "1" then .boolean true
      else if text = "false" ∨ text = "0" then .boolean false
      else .string text
  | value => value

/-- A text as the number that an enum has among its values, if it has. -/
def enumValue (values : List Literal) (text : String) : Value :=
  let numeric := JsNumber.ofText text
  if numeric ≠ .nan ∧ values.any fun literal => literal.sameValueZero (.number numeric) then
    .number numeric
  else .string text

variable (convert : Value → ReflectedType → Option Value)

/-- Converts each item and writes it under its key. -/
def fill : Value → List (String × Value × TypeId) → Option Value
  | output, [] => some output
  | output, (key, item, type) :: rest =>
      (convert item (environment.type type)).bind fun converted =>
        fill (output.set key converted) rest

/-- What is read of a value: the properties of a type, then the keys under its index. -/
def literalEntries (properties : List Property) (index : Option TypeId) (value : Value) :
    List (String × Value × TypeId) :=
  (properties.map fun property => (property.name, value.get property.name, property.type)) ++
    match index with
    | some indexType =>
        (value.entries.filter fun entry =>
          !properties.any fun property => property.name = entry.1).map fun entry =>
            (entry.1, entry.2, indexType)
    | none => []

/-- The object that an object literal makes of a value. -/
def literalResult (literal : ReflectedType) (value : Value) : Option Value :=
  let properties := objectLiteralPropertiesFromType environment literal
  let index := objectLiteralIndexType environment literal
  if properties = [] ∧ index = none then some value
  else
    fill environment convert (.object .objectPrototype []) (literalEntries properties index value)

/-- The first branch that accepts what it makes of the value. -/
def unionResult (value : Value) : List ReflectedType → Option Value
  | [] => some value
  | branch :: rest =>
      (convert value branch).bind fun candidate =>
        if validateValue environment candidate branch "" = [] then some candidate
        else unionResult value rest

/-- The parts that the members of an intersection make of an object, in one object. -/
def assignParts (value : Value) : Value → Bool → List ReflectedType → Option Value
  | output, merged, [] => some (if merged then output else value)
  | output, merged, member :: rest =>
      (convert value member).bind fun part =>
        if part.isObject ∧ ¬part.isDate then assignParts value (output.assignFrom part) true rest
        else assignParts value output merged rest

/-- What the members of an intersection make of a scalar or an array, one after the other. -/
def convertThrough : Value → List ReflectedType → Option Value
  | value, [] => some value
  | value, member :: rest =>
      (convert value member).bind fun converted => convertThrough converted rest

/-- What an unwrapped type makes of a value, before it is decorated. -/
def structureResult (value : Value) (concrete : ReflectedType) : Option Value :=
  match concrete, value with
  | .primitive _ .number, .string text =>
      some (if JsNumber.trim text.toList = [] then .string text else .number (.ofText text))
  | .primitive _ .boolean, value => some (coerceBooleanValue value)
  | .enum _ values, .string text => some (enumValue values text)
  | .array _ element, .array items =>
      (items.mapM fun item => convert item (environment.type element)).map .array
  | .tuple _ elements, .array items =>
      (elements.zipIdx.mapM fun element =>
        convert ((Value.array items).item element.2) (environment.type element.1)).map .array
  | .union _ types, value => unionResult environment convert value types
  | .class _ (some .date), value =>
      some (if value.isDate then value else .date (conversions.date value))
  | .class _ (some classType), value =>
      if value.hasTypeObject then
        fill environment convert
          (.object (conversions.construct classType).1 (conversions.construct classType).2)
          (literalEntries (environment.classProperties classType) none value)
      else some value
  | .objectLiteral metadata types index implements, value =>
      if value.hasTypeObject then
        literalResult environment convert (.objectLiteral metadata types index implements) value
      else some value
  | _, value => some value

/-- `deserializeValue`. -/
def deserializeValue : ℕ → Value → ReflectedType → Option Value
  | 0, _, _ => none
  | budget + 1, value, type =>
      let convert := deserializeValue budget
      if value.isUndefined ∨ value.isNull then some value
      else
        match type with
        | .intersection metadata types =>
            let whole := ReflectedType.intersection metadata types
            if value.isObject ∧ ¬value.isDate then
              match mergedIntersectionObjectLiteral environment whole with
              | some merged =>
                  (literalResult environment convert merged value).map fun result =>
                    conversions.apply whole (conversions.apply merged result)
              | none =>
                  (assignParts convert value (.object .objectPrototype []) false types).map
                    (conversions.apply whole)
            else (convertThrough convert value types).map (conversions.apply whole)
        | type =>
            (structureResult environment conversions convert value
              (unwrapValueType environment type)).map (conversions.apply type)

/-- `validatedDeserialize`, of a type that has been normalized. -/
def validatedDeserialize (budget : ℕ) (value : Value) (type : ReflectedType) :
    Option (Except ValidatorError Value) :=
  (deserializeValue environment conversions budget value type).map fun result =>
    match validateValue environment result type "" with
    | [] => .ok result
    | error :: _ => .error error

end Deserialize

end ServerFoundation.Reflection
