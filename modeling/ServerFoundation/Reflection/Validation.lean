import ServerFoundation.Reflection.Structure

/-!
# Validation

`validateValue`: what the unwrapped type asks of the value, and then the validation
annotations found on the surface of the type.
-/

namespace ServerFoundation.Reflection

/-- `ValidatorError`. -/
structure ValidatorError where
  code : String
  message : String
  path : String
deriving DecidableEq, Repr

/-- `joinPath`. -/
def joinPath (base key : String) : String := if base = "" then key else base ++ "." ++ key

/-- `value === literal`. -/
def Literal.equals : Literal → Value → Bool
  | .undefined, .undefined => true
  | .null, .null => true
  | .boolean left, .boolean right => left = right
  | .number left, .number right => left = right ∧ left ≠ .nan
  | .bigint left, .bigint right => left = right
  | .string left, .string right => left = right
  | _, _ => false

/-- Equality as `includes` takes it, which finds `NaN`. -/
def Literal.sameValueZero : Literal → Value → Bool
  | .number .nan, .number .nan => true
  | literal, value => literal.equals value

section AnnotationChecks

variable (environment : Environment)

/-- `literalNumber`. -/
def literalNumber (argument : Option Argument) : Option JsNumber :=
  match argument.bind Argument.literal with
  | some (.number value) => some value
  | _ => none

/-- `resolveRuntimeValue`. -/
def resolveRuntimeValue (argument : Option Argument) : Option RuntimeValue := do
  let found ← argument
  match found.runtime with
  | some runtime => some (environment.runtime runtime.closure)
  | none => found.literal.map .literal

/-- An error when a number bound is broken. -/
def boundError (bound : Option JsNumber) (broken : JsNumber → Bool)
    (code before after path : String) :
    List ValidatorError :=
  match bound with
  | some limit =>
      if broken limit then [⟨code, before ++ String.ofList limit.text ++ after, path⟩] else []
  | none => []

/-- The error a validator returns. -/
def validatorError (result : Option (String × String)) (path : String) : List ValidatorError :=
  (result.map fun error => ⟨error.1, error.2, path⟩).toList

/-- What one annotation asks of a value. -/
def checkAnnotation (rule : ValidationAnnotation) (value : Value) (path : String) :
    List ValidatorError :=
  let argument := rule.args.head?
  match rule.name, value with
  | "minLength", .string text =>
      boundError (literalNumber argument) (fun min => (JsNumber.finite (JsText.length text)).lt min)
        "minLength" "The value must be at least " " characters." path
  | "maxLength", .string text =>
      boundError (literalNumber argument) (fun max => max.lt (.finite (JsText.length text)))
        "maxLength" "The value must be at most " " characters." path
  | "minimum", .number number =>
      boundError (literalNumber argument) (fun min => number.lt min)
        "minimum" "The value must be at least " "." path
  | "greaterThan", .number number =>
      boundError (literalNumber argument) (fun min => number.le min)
        "greaterThan" "The value must be greater than " "." path
  | "maximum", .number number =>
      boundError (literalNumber argument) (fun max => max.lt number)
        "maximum" "The value must be at most " "." path
  | "lessThan", .number number =>
      boundError (literalNumber argument) (fun max => max.le number)
        "lessThan" "The value must be less than " "." path
  | "pattern", .string text =>
      let fits :=
        match resolveRuntimeValue environment argument with
        | some (.literal (.string pattern)) => environment.matchesText pattern text
        | some (.regexp id) => environment.matchesRegexp id text
        | _ => true
      if fits then []
      else [⟨"pattern", "The value does not match the required pattern.", path⟩]
  | "validate", value =>
      match resolveRuntimeValue environment argument with
      | some (.validator run) => validatorError (run value) path
      | _ => []
  | "validator", value =>
      match resolveRuntimeValue environment argument with
      | some (.literal (.string name)) =>
          match environment.validator name with
          | some run => validatorError (run value) path
          | none => []
      | _ => []
  | _, _ => []

/-- The loop over the annotations of a type. -/
def checkAnnotations (type : ReflectedType) (value : Value) (path : String) :
    List ValidatorError :=
  (getAnnotations environment type).flatMap fun annotation =>
    checkAnnotation environment annotation value path

end AnnotationChecks

section Validate

variable (environment : Environment)

/-- `typeof value !== 'number' || Number.isNaN(value)`, negated. -/
def isNumber : Value → Bool
  | .number value => value ≠ .nan
  | _ => false

/-- Whether a value is a string. -/
def isString : Value → Bool
  | .string _ => true
  | _ => false

/-- Whether a value is a boolean. -/
def isBoolean : Value → Bool
  | .boolean _ => true
  | _ => false

/-- An error unless the test holds. -/
def typeError (test : Bool) (message path : String) : List ValidatorError :=
  if test then [] else [⟨"type", message, path⟩]

/-- The branch with the fewest errors, the first of them. -/
def fewestErrors : List (List ValidatorError) → List ValidatorError
  | [] => []
  | [errors] => errors
  | errors :: rest =>
      if (fewestErrors rest).length < errors.length then fewestErrors rest else errors

/-- The errors of a union, from those of its branches. -/
def unionErrors (branches : List (List ValidatorError)) (path : String) : List ValidatorError :=
  if branches.any List.isEmpty then []
  else
    match fewestErrors branches with
    | [] => [⟨"type", "The value does not match any allowed type.", path⟩]
    | best => best

/-- What an unwrapped type asks of a value that is neither `undefined` nor `null`; its annotations
come last, unless it returns early. -/
def structureErrors (value : Value) (concrete : ReflectedType)
    (item : ℕ → TypeId → List ValidatorError) (member : String → TypeId → List ValidatorError)
    (branches : List (List ValidatorError)) (annotationErrors : List ValidatorError)
    (path : String) : List ValidatorError :=
  let property (found : Property) : List ValidatorError :=
    if (value.get found.name).isUndefined ∧ found.optional then [] else member found.name found.type
  match knownPrimitiveKind environment concrete, concrete with
  | some .string, _ =>
      typeError (isString value) "The value must be a string." path ++ annotationErrors
  | some .number, _ =>
      typeError (isNumber value) "The value must be a number." path ++ annotationErrors
  | none, .primitive _ kind =>
      (match kind with
        | .undefined => typeError false "The value does not match the required type." path
        | .null => typeError false "The value does not match the required type." path
        | .never => typeError false "The value does not match the required type." path
        | .string => typeError (isString value) "The value must be a string." path
        | .templateLiteral => typeError (isString value) "The value must be a string." path
        | .number => typeError (isNumber value) "The value must be a number." path
        | .boolean => typeError (isBoolean value) "The value must be a boolean." path
        | _ => []) ++ annotationErrors
  | none, .array _ element =>
      (match value with
        | .array items => (List.range items.length).flatMap fun index => item index element
        | _ => typeError false "The value must be an array." path) ++ annotationErrors
  | none, .tuple _ elements =>
      (match value with
        | .array _ => elements.zipIdx.flatMap fun element => item element.2 element.1
        | _ => typeError false "The value must be an array." path) ++ annotationErrors
  | none, .union _ _ => unionErrors branches path ++ annotationErrors
  | none, .objectLiteral metadata types index implements =>
      let literal := ReflectedType.objectLiteral metadata types index implements
      if value.isObject then
        let properties := objectLiteralPropertiesFromType environment literal
        let indexed :=
          match objectLiteralIndexType environment literal with
          | some indexType =>
              value.ownKeys.flatMap fun key =>
                if properties.any fun found => found.name = key then [] else member key indexType
          | none => []
        properties.flatMap property ++ indexed ++ annotationErrors
      else typeError false "The value must be an object." path
  | none, .literal _ literal =>
      typeError (literal.equals value) ("The value must be " ++ literal.text ++ ".") path ++
        annotationErrors
  | none, .enum _ values =>
      typeError (values.any fun literal => literal.sameValueZero value)
        "The value does not match any allowed enum value." path ++ annotationErrors
  | none, .class _ none => typeError value.isObject "The value must be an object." path
  | none, .class _ (some .date) => annotationErrors
  | none, .class _ (some classType) =>
      (environment.classProperties classType).flatMap property ++ annotationErrors
  | none, .intersection _ _ => annotationErrors
  | none, .promise _ _ => annotationErrors

/-- The branches of the union that a type unwraps to, each below the type. -/
def unwrappedBranches (type : ReflectedType) :
    List { branch : ReflectedType // sizeOf branch < sizeOf type } :=
  (unwrapValueType environment type).branches.attach.map fun branch =>
    ⟨branch.1, sizeOf_lt_of_unwrap environment branch.2⟩

/-- `validateValue`. -/
def validateValue (value : Value) (type : ReflectedType) (path : String) : List ValidatorError :=
  if _absent : value.isUndefined then
    if type.allowsUndefined then [] else [⟨"required", "The value is required.", path⟩]
  else if value.isNull then
    if type.allowsNull then [] else [⟨"required", "The value cannot be null.", path⟩]
  else
    structureErrors environment value (unwrapValueType environment type)
      (fun index element => validateValue (value.item index) (environment.type element)
        (joinPath path (toString index)))
      (fun key element => validateValue (value.get key) (environment.type element)
        (joinPath path key))
      ((unwrappedBranches environment type).map fun branch => validateValue value branch.1 path)
      (checkAnnotations environment type value path) path
termination_by (value.rank, sizeOf type)
decreasing_by
  · exact Prod.Lex.left _ _ (Value.rank_item index (by simpa using _absent))
  · exact Prod.Lex.left _ _ (Value.rank_get key (by simpa using _absent))
  · exact Prod.Lex.right _ branch.2

variable {environment}

theorem validateValue_of_proper {value : Value} (proper : value.isUndefined = false)
    (notNull : value.isNull = false) (type : ReflectedType) (path : String) :
    validateValue environment value type path =
      structureErrors environment value (unwrapValueType environment type)
        (fun index element => validateValue environment (value.item index)
          (environment.type element) (joinPath path (toString index)))
        (fun key element => validateValue environment (value.get key) (environment.type element)
          (joinPath path key))
        ((unwrapValueType environment type).branches.map fun branch =>
          validateValue environment value branch path)
        (checkAnnotations environment type value path) path := by
  rw [validateValue]
  simp only [proper, notNull, Bool.false_eq_true, ↓reduceDIte, ↓reduceIte, unwrappedBranches,
    List.map_attach_eq_pmap, List.map_pmap, List.pmap_eq_map]

end Validate

end ServerFoundation.Reflection
