import ServerFoundation.Data.Json
import ServerFoundation.Data.NumberText

/-!
# JSON values

What `JSON.parse` returns and `JSON.stringify` writes. An object is given by its own
properties in the order in which they are enumerated.
-/

namespace ServerFoundation

/-- The values of JSON. -/
inductive JsonValue where
  | null
  | boolean (value : Bool)
  | number (value : JsNumber)
  | string (text : String)
  | array (items : List JsonValue)
  | object (members : List (String × JsonValue))

namespace JsonValue

mutual

/-- The text of a value. -/
def write : JsonValue → List Char
  | .null => "null".toList
  | .boolean value => (if value then "true" else "false").toList
  | .number value => if value.isFinite then value.text else "null".toList
  | .string text => Json.quote text
  | .array items => '[' :: [','].intercalate (writeItems items) ++ [']']
  | .object members => Json.object (writeMembers members)

/-- The texts of the elements. -/
def writeItems : List JsonValue → List (List Char)
  | [] => []
  | item :: items => item.write :: writeItems items

/-- The names and the texts of the members. -/
def writeMembers : List (String × JsonValue) → List (String × List Char)
  | [] => []
  | (key, value) :: members => (key, value.write) :: writeMembers members

end

/-- `JSON.stringify(value)`. -/
def stringify (value : JsonValue) : String := String.ofList value.write

/-- A property of an object; other values have none of the names that are asked for. -/
def property (name : String) : JsonValue → Option JsonValue
  | .object members => members.lookup name
  | _ => none

/-- Whether a value is the expected number. -/
def isNumber (expected : JsNumber) : JsonValue → Bool
  | .number value => value = expected
  | _ => false

/-- Whether a value is a string. -/
def isString : JsonValue → Bool
  | .string _ => true
  | _ => false

theorem lookup_property (name : String) (members : List (String × JsonValue)) :
    (object members).property name = members.lookup name := rfl

theorem two_le_utf8ByteSize_object (members : List (String × JsonValue)) :
    2 ≤ (object members).stringify.utf8ByteSize := by
  have text : (object members).stringify =
      "\x7b" ++ String.ofList ([','].intercalate ((writeMembers members).map Json.member)) ++
          "\x7d" := by
    apply String.toList_inj.mp
    rw [stringify, write, Json.object]
    simp
  rw [text, String.utf8ByteSize_append, String.utf8ByteSize_append]
  have opening : "\x7b".utf8ByteSize = 1 := by decide
  have closing : "\x7d".utf8ByteSize = 1 := by decide
  omega

end JsonValue

end ServerFoundation
