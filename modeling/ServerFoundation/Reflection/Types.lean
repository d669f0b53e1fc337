import ServerFoundation.Data.NumberText
import ServerFoundation.Reflection.Values

/-!
# Reflected types

Type metadata as the compiler emits it. The unions and intersections over a type
form a finite tree, its surface; what lies behind a property, an array, a tuple or
an index signature is referred to by its place in a table, so that types may be
recursive there. The functions of `annotations.ts` look for markers on the surface.
-/

namespace ServerFoundation.Reflection

/-- The place of a type in the table. -/
abbrev TypeId := ℕ

/-- The value of a literal type. -/
inductive Literal where
  | undefined
  | null
  | boolean (value : Bool)
  | number (value : JsNumber)
  | bigint (value : ℤ)
  | string (value : String)
deriving DecidableEq

/-- `String(literal)`. -/
def Literal.text : Literal → String
  | undefined => "undefined"
  | null => "null"
  | boolean value => if value then "true" else "false"
  | number value => String.ofList value.text
  | bigint value => toString value
  | string value => value

/-- The kinds without further data, in the order of `ReflectionKind`. -/
inductive Primitive where
  | never
  | any
  | unknown
  | void
  | undefined
  | null
  | string
  | number
  | boolean
  | bigint
  | object
  | method
  | templateLiteral
deriving DecidableEq, Repr

/-- A function that an annotation keeps: its source text, and which closure it is. -/
structure Runtime where
  text : String
  closure : ℕ
deriving DecidableEq, Repr

/-- What is read of a type that is the argument of an annotation. -/
structure Argument where
  kind : ℕ
  typeName : Option String
  literal : Option Literal
  runtime : Option Runtime
deriving DecidableEq

/-- `ValidationAnnotation`. -/
structure ValidationAnnotation where
  name : String
  args : List Argument
deriving DecidableEq

/-- What any type may carry; of an annotation type only the literal it is, if any, is read. -/
structure TypeMetadata where
  typeName : Option String
  annotations : Option (List (String × Option Literal))
  validation : Option (List ValidationAnnotation)
  database : Bool
deriving DecidableEq

/-- A type without metadata of its own. -/
def TypeMetadata.bare : TypeMetadata := ⟨none, none, none, false⟩

/-- `TypePropertySignature`. -/
structure Property where
  name : String
  type : TypeId
  optional : Bool
deriving DecidableEq, Repr

/-- `Type`; a class type that does not resolve has no class. -/
inductive ReflectedType where
  | primitive (metadata : TypeMetadata) (kind : Primitive)
  | literal (metadata : TypeMetadata) (literal : Literal)
  | enum (metadata : TypeMetadata) (values : List Literal)
  | union (metadata : TypeMetadata) (types : List ReflectedType)
  | intersection (metadata : TypeMetadata) (types : List ReflectedType)
  | array (metadata : TypeMetadata) (type : TypeId)
  | tuple (metadata : TypeMetadata) (types : List TypeId)
  | class (metadata : TypeMetadata) (classType : Option ClassId)
  | objectLiteral (metadata : TypeMetadata) (types : List Property) (index : Option TypeId)
      (implements : List TypeId)
  | promise (metadata : TypeMetadata) (type : TypeId)

/-- What `resolveRuntimeValue` gives. -/
inductive RuntimeValue where
  | literal (value : Literal)
  | regexp (id : ℕ)
  | validator (run : Value → Option (String × String))

/-- The tables that types refer to, what the functions of annotations return, the test of a pattern,
and the registered validators. -/
structure Environment where
  types : List ReflectedType
  classProperties : ClassId → List Property
  classNames : ∀ classType, ((classProperties classType).map Property.name).Nodup
  runtime : ℕ → RuntimeValue
  matchesText : String → String → Bool
  matchesRegexp : ℕ → String → Bool
  validator : String → Option (Value → Option (String × String))

/-- Tables without types, classes, closures and validators. -/
def Environment.empty : Environment :=
  ⟨[], fun _ => [], fun _ => List.nodup_nil, fun _ => .literal .null, fun _ _ => true,
    fun _ _ => true, fun _ => none⟩

/-- The type at a place. -/
def Environment.type (environment : Environment) (id : TypeId) : ReflectedType :=
  environment.types.getD id (.primitive .bare .never)

namespace ReflectedType

/-- What the type carries. -/
def metadata : ReflectedType → TypeMetadata
  | primitive metadata _ => metadata
  | literal metadata _ => metadata
  | enum metadata _ => metadata
  | union metadata _ => metadata
  | intersection metadata _ => metadata
  | array metadata _ => metadata
  | tuple metadata _ => metadata
  | .class metadata _ => metadata
  | objectLiteral metadata _ _ _ => metadata
  | promise metadata _ => metadata

/-- `type.kind`. -/
def kind : ReflectedType → ℕ
  | primitive _ .never => 0
  | primitive _ .any => 1
  | primitive _ .unknown => 2
  | primitive _ .void => 3
  | primitive _ .undefined => 4
  | primitive _ .null => 5
  | primitive _ .string => 6
  | primitive _ .number => 7
  | primitive _ .boolean => 8
  | primitive _ .bigint => 9
  | literal _ _ => 10
  | enum _ _ => 11
  | union _ _ => 12
  | intersection _ _ => 13
  | array _ _ => 14
  | tuple _ _ => 15
  | .class _ _ => 16
  | primitive _ .object => 17
  | objectLiteral _ _ _ _ => 18
  | primitive _ .method => 21
  | promise _ _ => 22
  | primitive _ .templateLiteral => 23

/-- The literal of a literal type. -/
def literal? : ReflectedType → Option Literal
  | literal _ value => some value
  | _ => none

/-- `item.kind === undefined || item.kind === null`. -/
def isAbsent : ReflectedType → Bool
  | primitive _ .undefined => true
  | primitive _ .null => true
  | _ => false

mutual

/-- The types that `visitTypeSurface` visits, in its order. -/
def surface : ReflectedType → List ReflectedType
  | union metadata types => union metadata types :: surfaces types
  | intersection metadata types => intersection metadata types :: surfaces types
  | type => [type]

/-- The surfaces of several types. -/
def surfaces : List ReflectedType → List ReflectedType
  | [] => []
  | type :: rest => surface type ++ surfaces rest

end

/-- `allowsUndefined` and `allowsNull`, by the kind that stands for the value. -/
def allows (absent : Primitive) : ReflectedType → Bool
  | primitive _ kind => kind = .any || kind = absent
  | union _ types => allowsSome types
  | _ => false
where
  /-- Whether some type allows the value. -/
  allowsSome : List ReflectedType → Bool
    | [] => false
    | type :: rest => allows absent type || allowsSome rest

/-- A type has `undefined` among its values. -/
def allowsUndefined (type : ReflectedType) : Bool := type.allows .undefined

/-- A type has `null` among its values. -/
def allowsNull (type : ReflectedType) : Bool := type.allows .null

/-- `unwrapOptionalType`. -/
def unwrapOptional : ReflectedType → ReflectedType
  | union metadata types =>
      match types.filter fun item => !item.isAbsent with
      | [only] => only
      | _ => union metadata types
  | type => type

/-- A type as the argument of an annotation. -/
def toArgument (type : ReflectedType) : Argument :=
  ⟨type.kind, type.metadata.typeName, type.literal?, none⟩

end ReflectedType

section TypiaTags

variable (environment : Environment)

/-- `schemaProperty`. -/
def schemaProperty (type : Option ReflectedType) (name : String) : Option ReflectedType :=
  match type.map ReflectedType.unwrapOptional with
  | some (.objectLiteral _ types _ _) =>
      (types.find? fun property => property.name = name).map fun property =>
        environment.type property.type
  | _ => none

/-- `literalString`. -/
def literalString (type : Option ReflectedType) : Option String :=
  match type.bind ReflectedType.literal? with
  | some (.string value) => some value
  | _ => none

/-- `TypiaTag`. -/
structure TypiaTag where
  kind : String
  value : Option ReflectedType
  schema : Option ReflectedType

/-- `readTypiaTag`. -/
def readTypiaTag : ReflectedType → Option TypiaTag
  | .objectLiteral _ types _ _ => do
      let tagProperty ← types.find? fun property => property.name = "typia.tag"
      let tagType := (environment.type tagProperty.type).unwrapOptional
      match tagType with
      | .objectLiteral _ _ _ _ => do
          let kind ← literalString (schemaProperty environment (some tagType) "kind")
          if kind = "" then none
          else
            return ⟨kind, schemaProperty environment (some tagType) "value",
              schemaProperty environment (some tagType) "schema"⟩
      | _ => none
  | _ => none

/-- `formatPattern`. -/
def formatPattern (format : String) : Option String :=
  if format = "date" then some "^\\d\x7b4\x7d-\\d\x7b2\x7d-\\d\x7b2\x7d$"
  else if format = "email" then some "^[a-zA-Z0-9_+.-]+@[a-zA-Z0-9-.]+\\.[a-zA-Z]+$"
  else if format = "uuid" then some
    "^(?:urn:uuid:)?[0-9a-fA-F]\x7b8\x7d-(?:[0-9a-fA-F]\x7b4\x7d-)\x7b3\x7d[0-9a-fA-F]\x7b12\x7d$"
  else none

/-- The argument that stands for a missing type. -/
def undefinedArgument : Argument := (ReflectedType.primitive .bare .undefined).toArgument

/-- `typiaTagValidationAnnotation`. -/
def typiaTagValidationAnnotation (type : ReflectedType) : Option ValidationAnnotation := do
  let tag ← readTypiaTag environment type
  if tag.kind ∈ ["minLength", "maxLength", "minimum", "greaterThan", "maximum", "lessThan"] then
    tag.value.map fun value => ⟨tag.kind, [value.toArgument]⟩
  else if tag.kind = "pattern" then
    let pattern := tag.value.or (schemaProperty environment tag.schema "pattern")
    some ⟨"pattern", [(pattern.map ReflectedType.toArgument).getD undefinedArgument]⟩
  else if tag.kind = "format" then do
    let format ← (literalString tag.value).or
      (literalString (schemaProperty environment tag.schema "format"))
    let pattern ← formatPattern format
    return ⟨"pattern", [(ReflectedType.literal .bare (.string pattern)).toArgument]⟩
  else if tag.kind = "tsf:validator" then
    some ⟨"validator", [(tag.value.map ReflectedType.toArgument).getD undefinedArgument]⟩
  else none

/-- `typiaTagTypeAnnotation`, as the literal that the annotation is. -/
def typiaTagTypeAnnotation (name : String) (type : ReflectedType) : Option (Option Literal) := do
  let tag ← readTypiaTag environment type
  if tag.kind = name ∧ (tag.kind.startsWith "tsf:" ∨ tag.kind.startsWith "openapi:") then
    some (tag.value.bind ReflectedType.literal?)
  else none

end TypiaTags

section Annotations

variable (environment : Environment)

/-- `type.annotations?.[name]`. -/
def ReflectedType.annotation? (type : ReflectedType) (name : String) : Option (Option Literal) :=
  (type.metadata.annotations.getD []).lookup name

/-- `typeAnnotation.getType`, as the literal that the annotation is. -/
def typeAnnotation (type : ReflectedType) (name : String) : Option (Option Literal) :=
  (type.surface.findSome? fun child => child.annotation? name).or
    (type.surface.findSome? <| typiaTagTypeAnnotation environment name)

/-- `validationAnnotationArgKey`. -/
def validationAnnotationArgKey (argument : Argument) : String :=
  match argument.literal, argument.runtime with
  | some literal, _ => "literal:" ++ literal.text
  | none, some runtime => "runtime:" ++ runtime.text
  | none, none => toString argument.kind ++ ":" ++ argument.typeName.getD ""

/-- `validationAnnotationKey`. -/
def validationAnnotationKey (rule : ValidationAnnotation) : String :=
  rule.name ++ ":" ++ "|".intercalate (rule.args.map validationAnnotationArgKey)

/-- The annotations of one type of the surface. -/
def ownAnnotations (type : ReflectedType) : List ValidationAnnotation :=
  type.metadata.validation.getD [] ++
    (Option.toList <| typiaTagValidationAnnotation environment type)

/-- Annotations without those whose key was seen before. -/
def distinctAnnotations (seen : List String) :
    List ValidationAnnotation → List ValidationAnnotation
  | [] => []
  | annotation :: rest =>
      if validationAnnotationKey annotation ∈ seen then distinctAnnotations seen rest
      else annotation :: distinctAnnotations (validationAnnotationKey annotation :: seen) rest

/-- All annotations of the surface of a type. -/
def surfaceAnnotations (type : ReflectedType) : List ValidationAnnotation :=
  type.surface.flatMap (ownAnnotations environment)

/-- `validationAnnotation.getAnnotations`. -/
def getAnnotations (type : ReflectedType) : List ValidationAnnotation :=
  distinctAnnotations [] (surfaceAnnotations environment type)

/-- The kinds that a foundation type can prescribe. -/
inductive KnownPrimitive where
  | string
  | number
deriving DecidableEq, Repr

/-- `knownPrimitiveKind`. -/
def knownPrimitiveKind (type : ReflectedType) : Option KnownPrimitive :=
  match typeAnnotation environment type "tsf:type" with
  | some (some (.string "integer")) => some .number
  | some (some (.string _)) => some .string
  | _ => none

end Annotations

end ServerFoundation.Reflection
