import Mathlib.Data.Nat.Digits.Defs
import ServerFoundation.Data.JsText

/-!
# Names of form fields

A field name is the name of a property, followed by groups in brackets: another property,
an array index, or nothing for the end of an array. The scanner reads one group after the
other; what it accepts can be written back.
-/

namespace ServerFoundation.Http

/-- `FormBodyLimits`. -/
structure FormBodyLimits where
  maxFormFields : ℕ
  maxFormFieldNameLength : ℕ
  maxFormDepth : ℕ
  maxFormArrayIndex : ℕ
deriving DecidableEq, Repr

/-- `defaultFormBodyLimits`. -/
def defaultFormBodyLimits : FormBodyLimits where
  maxFormFields := 10000
  maxFormFieldNameLength := 2048
  maxFormDepth := 16
  maxFormArrayIndex := 10000

/-- `FormPathToken`. -/
inductive FormPathToken where
  | property (name : String)
  | index (index : ℕ)
  | append
deriving DecidableEq, Repr

/-- `HttpBadRequestError` and `HttpPayloadTooLargeError`. -/
inductive FormError where
  | badRequest (message : String)
  | payloadTooLarge (message : String)
deriving DecidableEq, Repr

/-- `unsafePropertyNames`. -/
def unsafePropertyNames : List String := ["__proto__", "prototype", "constructor"]

/-- `malformedFieldName`. -/
def malformedFieldName (name : String) : FormError :=
  .badRequest ("Malformed form field name \"" ++ name ++ "\"")

/-- `/^\d+$/`. -/
def isDigits (segment : List Char) : Bool := segment ≠ [] && segment.all Char.isDigit

/-- `canonicalArrayIndexPattern`. -/
def isCanonicalArrayIndex : List Char → Bool
  | [] => false
  | char :: rest =>
      if char = '0' then rest = [] else char.isDigit && rest.all Char.isDigit

/-- `numericLikePropertyPattern`. -/
def isNumericLikeProperty (segment : List Char) : Bool :=
  let unsigned :=
    match segment with
    | '+' :: unsigned => unsigned
    | '-' :: unsigned => unsigned
    | unsigned => unsigned
  let whole := unsigned.takeWhile Char.isDigit
  match unsigned.dropWhile Char.isDigit with
  | [] => whole ≠ []
  | '.' :: fraction => fraction.all Char.isDigit && (whole ≠ [] || fraction ≠ [])
  | _ => false

/-- `propertyToken`. -/
def propertyToken (name : String) : Except FormError FormPathToken :=
  if name ∈ unsafePropertyNames then
    .error (.badRequest ("Unsafe form field property \"" ++ name ++ "\""))
  else .ok (.property name)

/-- `Number(segment)` of a row of digits, as long as it is a safe integer. -/
def digitsNumber (segment : List Char) : ℕ := Nat.ofDigitChars 10 segment 0

/-- `parseBracketToken`. -/
def parseBracketToken (segment : List Char) (fieldName : String) (limits : FormBodyLimits) :
    Except FormError FormPathToken :=
  if segment = [] then .ok .append
  else if isDigits segment then
    if ¬isCanonicalArrayIndex segment then
      .error (.badRequest ("Invalid array index in form field \"" ++ fieldName ++ "\""))
    else if 2 ^ 53 - 1 < digitsNumber segment ∨ limits.maxFormArrayIndex < digitsNumber segment then
      .error
        (.payloadTooLarge ("Array index is too large in form field \"" ++ fieldName ++ "\""))
    else .ok (.index (digitsNumber segment))
  else if isNumericLikeProperty segment then
    .error (.badRequest ("Invalid array index in form field \"" ++ fieldName ++ "\""))
  else propertyToken (String.ofList segment)

/-- The loop over the groups, with at least one turn left for each character. -/
def parseBrackets (name : String) (limits : FormBodyLimits) :
    ℕ → List Char → Except FormError (List FormPathToken)
  | _, [] => .ok []
  | 0, _ :: _ => .error (malformedFieldName name)
  | turns + 1, opening :: rest =>
      if opening ≠ '[' then .error (malformedFieldName name)
      else
        match rest.dropWhile (· ≠ ']') with
        | [] => .error (malformedFieldName name)
        | _ :: afterGroup =>
            let segment := rest.takeWhile (· ≠ ']')
            if '[' ∈ segment then .error (malformedFieldName name)
            else
              match parseBracketToken segment name limits with
              | .error error => .error error
              | .ok token =>
                  if afterGroup.head?.any (· ≠ '[') then .error (malformedFieldName name)
                  else (parseBrackets name limits turns afterGroup).map (token :: ·)

/-- The checks of the tokens once all are read. -/
def checkTokens (name : String) (limits : FormBodyLimits) (tokens : List FormPathToken) :
    Except FormError (List FormPathToken) :=
  if limits.maxFormDepth < tokens.length then
    .error (.payloadTooLarge "Form field nesting is too deep")
  else if .append ∈ tokens.dropLast then
    .error (.badRequest
      ("Array append notation must be terminal in form field \"" ++ name ++ "\""))
  else .ok tokens

/-- `parseFormFieldPath`. -/
def parseFormFieldPath (name : String) (limits : FormBodyLimits) :
    Except FormError (List FormPathToken) :=
  if name = "" then .error (.badRequest "Form field name cannot be empty")
  else if limits.maxFormFieldNameLength < JsText.length name then
    .error (.payloadTooLarge "Form field name is too long")
  else
    let rootName := name.toList.takeWhile (· ≠ '[')
    let groups := name.toList.dropWhile (· ≠ '[')
    if rootName = [] ∨ ']' ∈ rootName then .error (malformedFieldName name)
    else
      match propertyToken (String.ofList rootName) with
      | .error error => .error error
      | .ok root =>
          match parseBrackets name limits groups.length groups with
          | .error error => .error error
          | .ok tokens => checkTokens name limits (root :: tokens)

end ServerFoundation.Http
