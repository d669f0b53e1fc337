import ServerFoundation.Data.JsObject

/-!
# Runtime values

The values that reflected types are about. An object has its own properties and a
prototype, from which it inherits what it does not have itself; so a property can be
read that was never written. Built-in functions are known by their names only and
have no properties of their own here, nor do strings beyond their length.
-/

namespace ServerFoundation.Reflection

/-- A class that a type refers to: the built-in dates, or one of the program. -/
inductive ClassId where
  | date
  | named (index : ℕ)
deriving DecidableEq, Repr

/-- What the language and the classes of the program bring along. -/
inductive Native where
  | function (name : String)
  | prototype (of : String)
  | classPrototype (of : ClassId) (methods : List String)
deriving DecidableEq, Repr

/-- A value. -/
inductive Value where
  | undefined
  | null
  | boolean (value : Bool)
  | number (value : JsNumber)
  | bigint (value : ℤ)
  | string (value : String)
  | date (time : Option ℤ)
  | native (value : Native)
  | array (items : List Value)
  | object (prototype : Value) (properties : List (String × Value))

namespace Value

variable {key : String} {value receiverPrototype : Value}

/-- `Object.prototype`. -/
def objectPrototype : Value := native (.prototype "Object")

/-- The properties of `Object.prototype`, beside `__proto__`. -/
def objectMembers : List String :=
  ["constructor", "__defineGetter__", "__defineSetter__", "hasOwnProperty", "__lookupGetter__",
    "__lookupSetter__", "isPrototypeOf", "propertyIsEnumerable", "toString", "valueOf",
    "toLocaleString"]

/-- The methods of a built-in prototype, and its `constructor`. -/
def builtInMembers : String → List String
  | "Object" => objectMembers
  | "Array" => ["constructor", "at", "concat", "copyWithin", "entries", "every", "fill", "filter",
      "find", "findIndex", "findLast", "findLastIndex", "flat", "flatMap", "forEach", "includes",
      "indexOf", "join", "keys", "lastIndexOf", "map", "pop", "push", "reduce", "reduceRight",
      "reverse", "shift", "slice", "some", "sort", "splice", "toLocaleString", "toReversed",
      "toSorted", "toSpliced", "toString", "unshift", "values", "with"]
  | "String" => ["constructor", "anchor", "at", "big", "blink", "bold", "charAt", "charCodeAt",
      "codePointAt", "concat", "endsWith", "fixed", "fontcolor", "fontsize", "includes", "indexOf",
      "isWellFormed", "italics", "lastIndexOf", "link", "localeCompare", "match", "matchAll",
      "normalize", "padEnd", "padStart", "repeat", "replace", "replaceAll", "search", "slice",
      "small", "split", "startsWith", "strike", "sub", "substr", "substring", "sup",
      "toLocaleLowerCase", "toLocaleUpperCase", "toLowerCase", "toString", "toUpperCase",
      "toWellFormed", "trim", "trimEnd", "trimLeft", "trimRight", "trimStart", "valueOf"]
  | "Number" => ["constructor", "toExponential", "toFixed", "toLocaleString", "toPrecision",
      "toString", "valueOf"]
  | "Boolean" => ["constructor", "toString", "valueOf"]
  | "BigInt" => ["constructor", "toLocaleString", "toString", "valueOf"]
  | "Date" => ["constructor", "getDate", "getDay", "getFullYear", "getHours", "getMilliseconds",
      "getMinutes", "getMonth", "getSeconds", "getTime", "getTimezoneOffset", "getUTCDate",
      "getUTCDay", "getUTCFullYear", "getUTCHours", "getUTCMilliseconds", "getUTCMinutes",
      "getUTCMonth", "getUTCSeconds", "getYear", "setDate", "setFullYear", "setHours",
      "setMilliseconds", "setMinutes", "setMonth", "setSeconds", "setTime", "setUTCDate",
      "setUTCFullYear", "setUTCHours", "setUTCMilliseconds", "setUTCMinutes", "setUTCMonth",
      "setUTCSeconds", "setYear", "toDateString", "toGMTString", "toISOString", "toJSON",
      "toLocaleDateString", "toLocaleString", "toLocaleTimeString", "toString", "toTimeString",
      "toUTCString", "valueOf"]
  | _ => []

/-- The methods that a prototype has itself. -/
def ownMethods : Native → List String
  | .function _ => []
  | .prototype of => builtInMembers of
  | .classPrototype _ methods => methods

/-- `value === undefined`. -/
def isUndefined : Value → Bool
  | undefined => true
  | _ => false

/-- `value === null`. -/
def isNull : Value → Bool
  | null => true
  | _ => false

/-- `value && typeof value === 'object' && !Array.isArray(value)`. -/
def isObject : Value → Bool
  | date _ => true
  | native (.prototype _) => true
  | native (.classPrototype _ _) => true
  | object _ _ => true
  | _ => false

/-- The prototype of a value. -/
def prototypeOf : Value → Value
  | undefined => null
  | null => null
  | boolean _ => native (.prototype "Boolean")
  | number _ => native (.prototype "Number")
  | bigint _ => native (.prototype "BigInt")
  | string _ => native (.prototype "String")
  | date _ => native (.prototype "Date")
  | native (.function _) => native (.function "")
  | native (.prototype of) => if of = "Object" then null else objectPrototype
  | native (.classPrototype _ _) => objectPrototype
  | array _ => native (.prototype "Array")
  | object prototype _ => prototype

/-- An own property. -/
def own? (key : String) : Value → Option Value
  | string value => if key = "length" then some (number (.finite (JsText.length value))) else none
  | array items =>
      if key = "length" then some (number (.finite items.length))
      else (JsObject.arrayIndex key).bind fun index => items[index]?
  | object _ properties => properties.lookup key
  | native found => if key ∈ ownMethods found then some (native (.function key)) else none
  | _ => none

/-- A property of `Object.prototype`, whose accessor `__proto__` gives the receiver's prototype. -/
def objectMember (receiverPrototype : Value) (key : String) : Value :=
  if key = "__proto__" then receiverPrototype
  else if key ∈ objectMembers then native (.function key)
  else undefined

/-- A property found from a prototype upwards. -/
def inherited (receiverPrototype : Value) (key : String) : Value → Value
  | object prototype properties =>
      (properties.lookup key).getD (inherited receiverPrototype key prototype)
  | native (.function _) => undefined
  | native found =>
      if key ∈ ownMethods found then native (.function key) else objectMember receiverPrototype key
  | _ => undefined

/-- `value[key]`. -/
def get (key : String) (value : Value) : Value :=
  (value.own? key).getD (inherited value.prototypeOf key value.prototypeOf)

/-- `value[index]` of an array. -/
def item (index : ℕ) : Value → Value
  | array items => items.getD index undefined
  | _ => undefined

/-- Keys in the order of enumeration: array indices first, the others as created. -/
def enumerated (keys : List String) : List String :=
  sortOn (fun key => (JsObject.arrayIndex key).getD 0)
      (keys.filter fun key => (JsObject.arrayIndex key).isSome) ++
    keys.filter fun key => (JsObject.arrayIndex key).isNone

/-- `Object.keys`. -/
def ownKeys : Value → List String
  | array items => (List.range items.length).map toString
  | object _ properties => enumerated (properties.map Prod.fst)
  | _ => []

mutual

/-- A measure under which every property is below the value it is read from. -/
def rank : Value → ℕ
  | undefined => 0
  | null => 1
  | native (.function _) => 1
  | native (.prototype of) => if of = "Object" then 2 else 3
  | native (.classPrototype _ _) => 3
  | boolean _ => 4
  | number _ => 4
  | bigint _ => 4
  | string _ => 5
  | date _ => 4
  | array items => 6 + rankItems items
  | object prototype properties => 6 + rank prototype + rankProperties properties

/-- The ranks of the items of an array, together. -/
def rankItems : List Value → ℕ
  | [] => 0
  | item :: rest => rank item + rankItems rest

/-- The ranks of properties, together. -/
def rankProperties : List (String × Value) → ℕ
  | [] => 0
  | (_, value) :: rest => rank value + rankProperties rest

end

theorem rank_le_rankItems {items : List Value} {item : Value} (member : item ∈ items) :
    item.rank ≤ rankItems items := by
  induction items with
  | nil => simp at member
  | cons first rest ih =>
      simp only [rankItems]
      rcases List.mem_cons.mp member with rfl | later
      · omega
      · have := ih later
        omega

theorem rank_le_rankProperties {properties : List (String × Value)}
    (found : properties.lookup key = some value) : value.rank ≤ rankProperties properties := by
  induction properties with
  | nil => simp at found
  | cons first rest ih =>
      rcases first with ⟨name, held⟩
      simp only [rankProperties]
      rw [List.lookup_cons] at found
      split at found
      · cases found
        omega
      · have := ih found
        omega

theorem rank_objectMember {bound : ℕ} (prototype : receiverPrototype.rank < bound)
    (function : 1 < bound) : (objectMember receiverPrototype key).rank < bound := by
  simp only [objectMember]
  split
  · exact prototype
  · split
    · exact function
    · simp only [rank]
      omega

theorem rank_inherited {from_ : Value} {bound : ℕ} (prototype : receiverPrototype.rank < bound)
    (function : 1 < bound) (chain : from_.rank < bound) :
    (inherited receiverPrototype key from_).rank < bound := by
  fun_induction inherited receiverPrototype key from_ with
  | case1 next properties ih =>
      simp only [rank] at chain
      cases found : properties.lookup key with
      | none => exact ih (by omega)
      | some value =>
          have := rank_le_rankProperties found
          simp only [Option.getD_some]
          omega
  | case2 | case5 =>
      simp only [rank]
      omega
  | case3 => exact function
  | case4 => exact rank_objectMember prototype function

theorem rank_own {held : Value} (found : value.own? key = some held) : held.rank < value.rank := by
  cases value with
  | string text =>
      simp only [own?] at found
      split at found
      · cases found
        simp [rank]
      · cases found
  | array items =>
      simp only [own?] at found
      split at found
      · cases found
        simp only [rank]
        omega
      · rcases Option.bind_eq_some_iff.mp found with ⟨index, -, item⟩
        have below := rank_le_rankItems (List.mem_of_getElem? item)
        simp only [rank]
        omega
  | object prototype properties =>
      have below := rank_le_rankProperties found
      simp only [rank]
      omega
  | native native =>
      simp only [own?] at found
      split at found
      · cases found
        cases native with
        | function name => simp [ownMethods] at *
        | prototype of =>
            simp only [rank]
            split <;> omega
        | classPrototype of methods => simp [rank]
      · cases found
  | _ => cases found

theorem rank_inherited_of_native {of : String} {bound : ℕ}
    (prototype : receiverPrototype.rank < bound) (function : 1 < bound) :
    (inherited receiverPrototype key (native (.prototype of))).rank < bound := by
  simp only [inherited]
  split
  · exact function
  · exact rank_objectMember prototype function

theorem rank_item (index : ℕ) (proper : value.isUndefined = false) :
    (value.item index).rank < value.rank := by
  cases value with
  | array items =>
      simp only [item, rank, List.getD_eq_getElem?_getD]
      cases found : items[index]? with
      | none =>
          simp only [Option.getD_none, rank]
          omega
      | some item =>
          have below := rank_le_rankItems (List.mem_of_getElem? found)
          simp only [Option.getD_some]
          omega
  | undefined => simp [isUndefined] at proper
  | native native =>
      cases native with
      | function name => simp [item, rank]
      | classPrototype of methods => simp [item, rank]
      | prototype of =>
          simp only [item, rank]
          split <;> omega
  | object prototype properties =>
      simp only [item, rank]
      omega
  | _ => simp [item, rank]

theorem rank_get (key : String) (proper : value.isUndefined = false) :
    (value.get key).rank < value.rank := by
  simp only [get]
  cases found : value.own? key with
  | some held => exact rank_own found
  | none =>
      simp only [Option.getD_none]
      cases value with
      | undefined => simp [isUndefined] at proper
      | null => simp [prototypeOf, inherited, rank]
      | object prototype properties =>
          refine rank_inherited ?_ ?_ ?_
          all_goals simp only [prototypeOf, rank]
          all_goals omega
      | array items =>
          exact rank_inherited_of_native (by simp [prototypeOf, rank]; omega)
            (by simp only [rank]; omega)
      | native native =>
          cases native with
          | function name => simp [prototypeOf, inherited, rank]
          | prototype of =>
              by_cases root : of = "Object"
              · simp [prototypeOf, root, inherited, rank]
              · simp only [prototypeOf, root, ↓reduceIte, objectPrototype]
                exact rank_inherited_of_native (by simp [rank, root]) (by simp [rank, root])
          | classPrototype of methods =>
              exact rank_inherited_of_native (by simp [rank, prototypeOf, objectPrototype])
                (by simp [rank])
      | _ => exact rank_inherited_of_native (by simp [prototypeOf, rank]) (by simp [rank])

end Value

end ServerFoundation.Reflection
