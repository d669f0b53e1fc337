import ServerFoundation.Data.JsText
import ServerFoundation.Data.RegExp

/-!
# Paths of routes

The path of a route is joined from those of its controller and its method, and compiled to a
regular expression and a list of segments. The segments say which routes are the same and
which of two routes goes first.
-/

namespace ServerFoundation.Http

/-- `KnownHttpMethod`, the methods that the decorators register. -/
inductive RouteMethod where
  | get
  | post
  | put
  | patch
  | delete
  | options
  | head
deriving DecidableEq, Repr

/-- The name of a method. -/
def RouteMethod.text : RouteMethod → String
  | .get => "GET"
  | .post => "POST"
  | .put => "PUT"
  | .patch => "PATCH"
  | .delete => "DELETE"
  | .options => "OPTIONS"
  | .head => "HEAD"

/-- `RouteSegment`. -/
inductive RouteSegment where
  | literal (value : String)
  | parameter
deriving DecidableEq, Repr

/-- `text.replace(/\/+/g, '/')`. -/
def collapseSlashes : List Char → List Char
  | [] => []
  | char :: rest =>
      if char = '/' ∧ rest.head? = some '/' then collapseSlashes rest
      else char :: collapseSlashes rest

/-- `text.endsWith('/')`. -/
def EndsWithSlash (text : List Char) : Prop := text.getLast? = some '/'

instance (text : List Char) : Decidable (EndsWithSlash text) := by
  unfold EndsWithSlash
  infer_instance

/-- `joinPaths`. -/
def joinPaths (base child : String) : String :=
  let joined := collapseSlashes ("/" ++ base ++ "/" ++ child).toList
  String.ofList (if 1 < joined.length ∧ EndsWithSlash joined then joined.dropLast else joined)

/-- The characters that `escapeRegex` escapes. -/
def escapedCharacters : List Char :=
  ['.', '*', '+', '?', '^', '$', '\x7b', '\x7d', '(', ')', '|', '[', ']', '\\']

/-- `escapeRegex`. -/
def escapeRegex (value : List Char) : List Char :=
  value.flatMap fun char => if char ∈ escapedCharacters then ['\\', char] else [char]

/-- What `compilePath` makes of a path. -/
structure CompiledPath where
  regex : String
  paramNames : List String
  segments : List RouteSegment
deriving DecidableEq, Repr

/-- The segment of a part of a path. -/
def routeSegment (segment : List Char) : RouteSegment :=
  if segment.head? = some ':' then .parameter else .literal (String.ofList segment)

/-- The part of the regular expression for a segment. -/
def RouteSegment.pattern : RouteSegment → List Char
  | .parameter => "([^/]+)".toList
  | .literal value => escapeRegex value.toList

/-- `compilePath`. -/
def compilePath (path : String) : CompiledPath :=
  let parts := path.toList.splitOn '/'
  let segments := parts.map routeSegment
  { regex := "^" ++ String.ofList (['/'].intercalate (segments.map RouteSegment.pattern)) ++ "$"
    paramNames := (parts.filter fun part => part.head? = some ':').map fun part =>
      String.ofList part.tail
    segments := segments }

/-- The text of a segment in the key of a pattern. -/
def RouteSegment.key : RouteSegment → String
  | .parameter => ":"
  | .literal value => "=" ++ Nat.repr (JsText.length value) ++ ":" ++ value

/-- `routePatternKey`. -/
def routePatternKey (method : RouteMethod) (segments : List RouteSegment) : String :=
  method.text ++ "\x00" ++ "\x00".intercalate (segments.map RouteSegment.key)

/-- A literal goes before a parameter. -/
def RouteSegment.rank : RouteSegment → ℕ
  | .literal _ => 0
  | .parameter => 1

/-- The segments are compared up to the end of the shorter list, and then the longer list goes
first. -/
def compareRouteSpecificity : List RouteSegment → List RouteSegment → ℤ
  | first :: left, second :: right =>
      if first.rank ≠ second.rank then (first.rank : ℤ) - second.rank
      else compareRouteSpecificity left right
  | left, right => (right.length : ℤ) - left.length

/-- `new RegExp(source).exec(text)`. -/
def execRegex (source : String) (text : List Char) : Option (List (List Char)) :=
  (RegExp.read source).bind fun atoms => RegExp.exec atoms text

/-- `matchRoutePath`. -/
def matchRoutePath (regex path : String) : Option (List (List Char)) :=
  match execRegex regex path.toList with
  | some groups => some groups
  | none =>
      if 1 < JsText.length path ∧ EndsWithSlash path.toList then
        execRegex regex path.toList.dropLast
      else none

end ServerFoundation.Http
