import Mathlib.Data.List.Induction
import ServerFoundation.Data.JsObject

/-!
# Requests as JavaScript objects

The headers of a request are the properties of a function, and its query parameters those of an
ordinary object. Both inherit properties, and a function has some of its own that cannot be
written. This module follows what a name that comes from the client finds there.

The parser of the URL is a parameter: it gives the path and the decoded query parameters in order,
or rejects the URL.
-/

namespace ServerFoundation.Http

/-- The names of the properties of `Object.prototype`. -/
def objectPrototypeNames : List String :=
  ["constructor", "__defineGetter__", "__defineSetter__", "hasOwnProperty", "__lookupGetter__",
    "__lookupSetter__", "isPrototypeOf", "propertyIsEnumerable", "toString", "valueOf",
    "__proto__", "toLocaleString"]

section Headers

/-- Header names are ASCII. -/
def toLowerCase (name : String) : String := String.ofList (name.toList.map Char.toLower)

/-- A header as Node presents it. -/
inductive HeaderValue where
  | undefined
  | text (value : String)
  | list (values : List String)
deriving DecidableEq, Repr

/-- The single string that a value collapses to. -/
def HeaderValue.single : HeaderValue → Option String
  | .undefined => none
  | .text value => some value
  | .list values => some (values.head?.getD "")

/-- The characters of a header name. -/
def isTokenChar (char : Char) : Bool := char.isAlphanum || "!#$%&'*+-.^_|~".toList.contains char ||
  char = Char.ofNat 96

/-- The headers of a request; their names differ in more than case. -/
structure SentHeaders where
  entries : List (String × HeaderValue)
  tokens : ∀ entry ∈ entries, entry.1 ≠ "" ∧ entry.1.toList.all isTokenChar = true
  distinct : (entries.map fun entry => toLowerCase entry.1).Nodup

/-- One header of `normalizeHeaders`. The setter of `__proto__` ignores a string. -/
def normalizeHeader (normalized : OrderedMap String String) (entry : String × HeaderValue) :
    OrderedMap String String :=
  match entry.2.single with
  | none => normalized
  | some value =>
      if toLowerCase entry.1 = "__proto__" then normalized
      else normalized.set (toLowerCase entry.1) value

/-- `normalizeHeaders`. -/
def normalizeHeaders (headers : List (String × HeaderValue)) : OrderedMap String String :=
  headers.foldl normalizeHeader .empty

/-- The properties of the arrow function that cannot be written, and the throwing accessors of
`Function.prototype`. -/
def protectedNames : List String := ["length", "name", "arguments", "caller"]

/-- The methods of `Function.prototype`; `length` and `name` belong to the function itself. -/
def functionPrototypeNames : List String := ["apply", "bind", "call", "constructor", "toString"]

/-- The properties that were assigned to the arrow function `store`. -/
structure HeaderStore where
  assigned : OrderedMap String String

/-- Setting a property, or a `TypeError`. -/
def HeaderStore.set (store : HeaderStore) (name value : String) : Option HeaderStore :=
  if name ∈ protectedNames then none else some ⟨store.assigned.set name value⟩

/-- `Object.assign(store, normalized)`. -/
def HeaderStore.assign (store : HeaderStore) (normalized : OrderedMap String String) :
    Option HeaderStore :=
  normalized.entries.foldlM (fun store entry => store.set entry.1 entry.2) store

/-- `createHeaderStore`. -/
def createHeaderStore (headers : List (String × HeaderValue)) : Option HeaderStore :=
  HeaderStore.assign ⟨.empty⟩ (normalizeHeaders headers)

/-- What reading a property gives; `other` is a value that is no string. -/
inductive Answer where
  | undefined
  | text (value : String)
  | other
  | typeError
deriving DecidableEq, Repr

/-- Reading a property of the store. -/
def HeaderStore.get (store : HeaderStore) (name : String) : Answer :=
  match store.assigned.get? name with
  | some value => .text value
  | none =>
      if name = "name" then .text "store"
      else if name = "length" then .other
      else if name = "arguments" ∨ name = "caller" then .typeError
      else if name ∈ functionPrototypeNames ∨ name ∈ objectPrototypeNames then .other
      else .undefined

/-- `getHeaderValue`. -/
def getHeaderValue (store : HeaderStore) (name : String) : Answer := store.get (toLowerCase name)

end Headers

section Query

/-- An element of an array that the constructor makes. -/
inductive QueryItem where
  | text (value : String)
  | builtin (name : String)
deriving DecidableEq, Repr

/-- A parameter, or several of one name. -/
inductive QueryValue where
  | text (value : String)
  | list (items : List QueryItem)
deriving DecidableEq, Repr

/-- What `__proto__` of the query object is. -/
inductive Prototype where
  | object
  | array (items : List QueryItem)
deriving DecidableEq, Repr

/-- The query object with its prototype. -/
structure QueryObject where
  own : OrderedMap String QueryValue
  prototype : Prototype

/-- What is found under a name before a value is added. -/
inductive Current where
  | undefined
  | list (items : List QueryItem)
  | other (item : QueryItem)
deriving DecidableEq, Repr

/-- The names of the properties of `Array.prototype`. -/
def arrayPrototypeNames : List String :=
  ["length", "at", "concat", "copyWithin", "fill", "find", "findIndex", "findLast",
    "findLastIndex", "lastIndexOf", "pop", "push", "reverse", "shift", "unshift", "slice", "sort",
    "splice", "includes", "indexOf", "join", "keys", "entries", "values", "forEach", "filter",
    "flat", "flatMap", "map", "every", "some", "reduce", "reduceRight", "toReversed", "toSorted",
    "toSpliced", "with"]

/-- Reading a property of a prototype. -/
def Prototype.get (name : String) : Prototype → Current
  | .object => if name ∈ objectPrototypeNames then .other (.builtin name) else .undefined
  | .array items =>
      if name = "__proto__" then .list items
      else
        match (JsObject.arrayIndex name).bind fun index => items[index]? with
        | some item => .other item
        | none =>
            if name ∈ arrayPrototypeNames ∨ name ∈ objectPrototypeNames then .other (.builtin name)
            else .undefined

namespace QueryObject

/-- Reading a property of the query. -/
def get (query : QueryObject) (name : String) : Current :=
  match query.own.get? name with
  | some (.text value) => .other (.text value)
  | some (.list items) => .list items
  | none => query.prototype.get name

/-- `query[name] = value`; an array that is assigned to `__proto__` becomes the prototype. -/
def put (query : QueryObject) (name : String) (value : QueryValue) : QueryObject :=
  if name = "__proto__" then
    match value with
    | .text _ => query
    | .list items => { query with prototype := .array items }
  else { query with own := query.own.set name value }

/-- One query parameter. Pushing to the array that was found writes it where it was found. -/
def append (query : QueryObject) (parameter : String × String) : QueryObject :=
  match query.get parameter.1 with
  | .undefined => query.put parameter.1 (.text parameter.2)
  | .list items => query.put parameter.1 (.list (items ++ [.text parameter.2]))
  | .other item => query.put parameter.1 (.list [item, .text parameter.2])

end QueryObject

/-- The query object of the parameters. -/
def readQuery (parameters : List (String × String)) : QueryObject :=
  parameters.foldl QueryObject.append ⟨.empty, .object⟩

/-- A single value, or the array of the values in order. -/
def valueOf : List String → Option QueryValue
  | [] => none
  | [value] => some (.text value)
  | values => some (.list (values.map .text))

/-- The query has the parameters as its own properties, and its prototype is as it was. -/
structure QueryFaithful (parameters : List (String × String)) (query : QueryObject) : Prop where
  prototype : query.prototype = .object
  values : ∀ name, query.own.get? name =
    valueOf ((parameters.filter fun parameter => parameter.1 = name).map Prod.snd)

end Query

section Request

/-- The constructor's parser of a URL: the path and the decoded query parameters. -/
abbrev UrlParser := String → Option (String × List (String × String))

/-- `HttpRequest`. -/
structure HttpRequest where
  method : String
  url : String
  headers : HeaderStore
  path : String
  query : QueryObject

/-- The constructor, for a request whose body is a stream; `none` is an exception. -/
def HttpRequest.create (parseUrl : UrlParser) (method url : String)
    (headers : List (String × HeaderValue)) : Option HttpRequest := do
  let store ← createHeaderStore headers
  let (path, parameters) ← parseUrl url
  return ⟨method, url, store, path, readQuery parameters⟩

/-- The request has what the client sent and nothing else. -/
structure Represents (parseUrl : UrlParser) (method url : String) (headers : SentHeaders)
    (request : HttpRequest) : Prop where
  line : request.method = method ∧ request.url = url
  sent : ∀ entry ∈ headers.entries, ∀ value, entry.2.single = some value →
    getHeaderValue request.headers entry.1 = .text value
  unsent : ∀ name, (∀ entry ∈ headers.entries, toLowerCase entry.1 = toLowerCase name →
    entry.2.single = none) → getHeaderValue request.headers name = .undefined
  query : ∀ path parameters, parseUrl url = some (path, parameters) →
    request.path = path ∧ QueryFaithful parameters request.query

end Request

section HeaderNames

variable {entry : String × HeaderValue} {name : String}

theorem entries_foldl_set {entries : List (String × String)} {map : OrderedMap String String}
    (nodup : (map.keys ++ entries.map Prod.fst).Nodup) :
    (entries.foldl (fun map entry => map.set entry.1 entry.2) map).entries =
      map.entries ++ entries := by
  induction entries generalizing map with
  | nil => rw [List.foldl_nil, List.append_nil]
  | cons entry entries ih =>
      have absent : entry.1 ∉ map.keys := by
        intro present
        rw [List.nodup_append] at nodup
        exact nodup.2.2 _ present _ List.mem_cons_self rfl
      rw [List.foldl_cons, ih, OrderedMap.entries_set_of_not_mem map _ absent, List.append_assoc,
        List.singleton_append]
      rw [OrderedMap.keys_set_of_not_mem map _ absent, List.append_assoc, List.singleton_append]
      exact nodup

theorem foldlM_set (entries : List (String × String)) (store : HeaderStore) :
    entries.foldlM (fun store entry => HeaderStore.set store entry.1 entry.2) store =
      if entries.any fun entry => entry.1 ∈ protectedNames then none
      else some ⟨entries.foldl (fun map entry => map.set entry.1 entry.2) store.assigned⟩ := by
  induction entries generalizing store with
  | nil => rfl
  | cons entry entries ih =>
      rw [List.foldlM_cons, HeaderStore.set, List.any_cons]
      by_cases isProtected : entry.1 ∈ protectedNames
      · simp [isProtected]
      · rw [if_neg isProtected, decide_eq_false isProtected, Bool.false_or]
        exact ih _

theorem createHeaderStore_eq (headers : List (String × HeaderValue)) :
    createHeaderStore headers =
      if (normalizeHeaders headers).entries.any fun entry => entry.1 ∈ protectedNames then none
      else some ⟨normalizeHeaders headers⟩ := by
  have copied : ((normalizeHeaders headers).entries.foldl
      (fun map entry => map.set entry.1 entry.2) .empty) = normalizeHeaders headers :=
    OrderedMap.eq_of_entries_eq (entries_foldl_set (normalizeHeaders headers).nodupKeys)
  rw [createHeaderStore, HeaderStore.assign, foldlM_set, copied]

theorem get?_normalizeHeader_of_not
    (other : toLowerCase entry.1 = name → entry.2.single = none ∨ name = "__proto__")
    (normalized : OrderedMap String String) :
    (normalizeHeader normalized entry).get? name = normalized.get? name := by
  unfold normalizeHeader
  split
  · rfl
  · rename_i value written
    split_ifs with isProto
    · rfl
    · rw [OrderedMap.get?_set, if_neg]
      rintro rfl
      rcases other rfl with absent | proto
      · rw [written] at absent
        cases absent
      · exact isProto proto

theorem get?_foldl_of_not {headers : List (String × HeaderValue)}
    (others : ∀ entry ∈ headers, toLowerCase entry.1 = name →
      entry.2.single = none ∨ name = "__proto__") (normalized : OrderedMap String String) :
    (headers.foldl normalizeHeader normalized).get? name = normalized.get? name := by
  induction headers generalizing normalized with
  | nil => rfl
  | cons entry headers ih =>
      rw [List.foldl_cons, ih fun other member => others other (List.mem_cons_of_mem _ member),
        get?_normalizeHeader_of_not (others entry List.mem_cons_self)]

theorem get?_foldl_of_mem {headers : List (String × HeaderValue)}
    (distinct : (headers.map fun entry => toLowerCase entry.1).Nodup) (member : entry ∈ headers)
    {value : String} (sent : entry.2.single = some value)
    (notProto : toLowerCase entry.1 ≠ "__proto__") (normalized : OrderedMap String String) :
    (headers.foldl normalizeHeader normalized).get? (toLowerCase entry.1) = some value := by
  induction headers generalizing normalized with
  | nil => cases member
  | cons first headers ih =>
      rw [List.map_cons, List.nodup_cons] at distinct
      rw [List.foldl_cons]
      rcases List.mem_cons.mp member with rfl | among
      · have others : ∀ other ∈ headers, toLowerCase other.1 = toLowerCase entry.1 →
            other.2.single = none ∨ toLowerCase entry.1 = "__proto__" := fun other isOther same =>
          absurd (List.mem_map.mpr ⟨other, isOther, same⟩) distinct.1
        rw [get?_foldl_of_not others, normalizeHeader, sent]
        dsimp only
        rw [if_neg notProto, OrderedMap.get?_set, if_pos rfl]
      · exact ih distinct.2 among _

variable (headers : SentHeaders)

theorem get?_normalizeHeaders_iff {value : String} :
    (normalizeHeaders headers.entries).get? name = some value ↔ name ≠ "__proto__" ∧
      ∃ entry ∈ headers.entries, toLowerCase entry.1 = name ∧ entry.2.single = some value := by
  constructor
  · intro found
    by_contra notSent
    have others : ∀ entry ∈ headers.entries, toLowerCase entry.1 = name →
        entry.2.single = none ∨ name = "__proto__" := by
      intro entry member same
      by_contra sent
      rw [not_or] at sent
      rcases Option.ne_none_iff_exists'.mp sent.1 with ⟨other, isOther⟩
      have stored := get?_foldl_of_mem headers.distinct member isOther (same ▸ sent.2) .empty
      rw [same] at stored
      cases found.symm.trans stored
      exact notSent ⟨sent.2, entry, member, same, isOther⟩
    cases found.symm.trans (get?_foldl_of_not others .empty)
  · rintro ⟨notProto, entry, member, rfl, sent⟩
    exact get?_foldl_of_mem headers.distinct member sent notProto .empty

theorem createHeaderStore_eq_none_iff : createHeaderStore headers.entries = none ↔
    ∃ entry ∈ headers.entries, entry.2.single.isSome = true ∧
      toLowerCase entry.1 ∈ protectedNames := by
  rw [createHeaderStore_eq]
  have isProtected : (normalizeHeaders headers.entries).entries.any
      (fun entry => entry.1 ∈ protectedNames) = true ↔
        ∃ entry ∈ headers.entries, entry.2.single.isSome = true ∧
          toLowerCase entry.1 ∈ protectedNames := by
    rw [List.any_eq_true]
    constructor
    · rintro ⟨⟨name, value⟩, member, isProtected⟩
      rcases (get?_normalizeHeaders_iff headers).mp
        ((OrderedMap.get?_eq_some_iff _ _ _).mpr member) with ⟨-, entry, sent, rfl, single⟩
      exact ⟨entry, sent, by rw [single]; rfl, of_decide_eq_true isProtected⟩
    · rintro ⟨entry, member, isSent, isProtected⟩
      rcases Option.isSome_iff_exists.mp isSent with ⟨value, single⟩
      have notProto : toLowerCase entry.1 ≠ "__proto__" := by
        intro proto
        rw [proto] at isProtected
        exact absurd isProtected (by decide)
      exact ⟨(toLowerCase entry.1, value), (OrderedMap.get?_eq_some_iff _ _ _).mp
        ((get?_normalizeHeaders_iff headers).mpr ⟨notProto, entry, member, rfl, single⟩),
          decide_eq_true isProtected⟩
  rw [← isProtected]
  split_ifs with any <;> simp [any]

end HeaderNames

section QueryNames

variable {query : QueryObject} {parameters : List (String × String)} {parameter : String × String}

/-- A value that was inherited is in the query, or the prototype is another one. -/
def QueryObject.Spoiled (query : QueryObject) : Prop :=
  query.prototype ≠ .object ∨ ∃ name items inherited,
    query.own.get? name = some (.list items) ∧ QueryItem.builtin inherited ∈ items

theorem QueryObject.put_of_ne {name : String} (notProto : name ≠ "__proto__")
    (query : QueryObject) (value : QueryValue) :
    query.put name value = { query with own := query.own.set name value } := by
  unfold QueryObject.put
  rw [if_neg notProto]

theorem QueryObject.prototype_put (query : QueryObject) (name : String) (value : QueryValue) :
    (query.put name value).prototype = query.prototype ∨
      ∃ items, (query.put name value).prototype = .array items := by
  unfold QueryObject.put
  split_ifs
  · cases value with
    | text => exact Or.inl rfl
    | list items => exact Or.inr ⟨items, rfl⟩
  · exact Or.inl rfl

theorem QueryObject.own_put_of_ne {name other : String} (differ : other ≠ name ∨ name = "__proto__")
    (value : QueryValue) : (query.put name value).own.get? other = query.own.get? other := by
  unfold QueryObject.put
  split_ifs with isProto
  · cases value <;> rfl
  · rw [OrderedMap.get?_set, if_neg (differ.resolve_right isProto)]

theorem QueryObject.append_eq_put (query : QueryObject) (parameter : String × String) :
    ∃ value, query.append parameter = query.put parameter.1 value := by
  unfold QueryObject.append
  split <;> exact ⟨_, rfl⟩

theorem QueryObject.Spoiled.append (spoiled : query.Spoiled) (parameter : String × String) :
    (query.append parameter).Spoiled := by
  rcases spoiled with another | ⟨name, items, inherited, stored, member⟩
  · left
    rcases query.append_eq_put parameter with ⟨value, isPut⟩
    rw [isPut]
    rcases query.prototype_put parameter.1 value with same | ⟨items, isArray⟩
    · rwa [same]
    · rw [isArray]
      exact nofun
  · right
    by_cases elsewhere : name ≠ parameter.1 ∨ parameter.1 = "__proto__"
    · rcases query.append_eq_put parameter with ⟨value, isPut⟩
      refine ⟨name, items, inherited, ?_, member⟩
      rw [isPut, QueryObject.own_put_of_ne elsewhere, stored]
    · rw [not_or, not_not] at elsewhere
      rcases elsewhere with ⟨rfl, notProto⟩
      have found : query.get parameter.1 = .list items := by rw [QueryObject.get, stored]
      refine ⟨parameter.1, items ++ [.text parameter.2], inherited, ?_,
        List.mem_append_left _ member⟩
      rw [QueryObject.append, found]
      dsimp only
      rw [QueryObject.put_of_ne notProto, OrderedMap.get?_set, if_pos rfl]

theorem valueOf_append (values : List String) (value : String) :
    valueOf (values ++ [value]) = match valueOf values with
      | none => some (.text value)
      | some (.text first) => some (.list [.text first, .text value])
      | some (.list items) => some (.list (items ++ [.text value])) := by
  match values with
  | [] => rfl
  | [first] => rfl
  | first :: second :: rest => simp [valueOf]

theorem QueryFaithful.append (faithful : QueryFaithful parameters query)
    (free : parameter.1 ∉ objectPrototypeNames) :
    QueryFaithful (parameters ++ [parameter]) (query.append parameter) := by
  have notProto : parameter.1 ≠ "__proto__" := by
    intro proto
    rw [proto] at free
    exact free (by decide)
  rcases query.append_eq_put parameter with ⟨value, isPut⟩
  have stored : some value = valueOf (((parameters ++ [parameter]).filter
      fun other => other.1 = parameter.1).map Prod.snd) := by
    have before := faithful.values parameter.1
    rw [List.filter_append, List.map_append, List.filter_cons_of_pos (by simp), List.filter_nil,
      List.map_singleton, valueOf_append, ← before]
    have own := congrArg (fun query => query.own.get? parameter.1) isPut
    simp only [QueryObject.put_of_ne notProto, OrderedMap.get?_set, if_true] at own
    rw [← own, QueryObject.append, QueryObject.get]
    cases query.own.get? parameter.1 with
    | none =>
        dsimp only
        rw [faithful.prototype, Prototype.get, if_neg free]
        dsimp only
        rw [QueryObject.put_of_ne notProto, OrderedMap.get?_set, if_pos rfl]
    | some found =>
        cases found <;> dsimp only <;>
          rw [QueryObject.put_of_ne notProto, OrderedMap.get?_set, if_pos rfl]
  constructor
  · rw [isPut, QueryObject.put_of_ne notProto]
    exact faithful.prototype
  · intro name
    by_cases same : name = parameter.1
    · subst same
      rw [isPut, QueryObject.put_of_ne notProto, OrderedMap.get?_set, if_pos rfl, stored]
    · rw [isPut, QueryObject.own_put_of_ne (Or.inl same), faithful.values, List.filter_append,
        List.filter_cons_of_neg (by simpa using Ne.symm same), List.filter_nil, List.append_nil]

theorem QueryFaithful.spoils (faithful : QueryFaithful parameters query)
    (free : ∀ parameter ∈ parameters, parameter.1 ∉ objectPrototypeNames)
    (inherited : parameter.1 ∈ objectPrototypeNames) : (query.append parameter).Spoiled := by
  have absent : query.own.get? parameter.1 = none := by
    rw [faithful.values]
    have none : parameters.filter (fun other => other.1 = parameter.1) = [] := by
      rw [List.filter_eq_nil_iff]
      intro other member same
      exact free other member (of_decide_eq_true same ▸ inherited)
    rw [none]
    rfl
  have found : query.get parameter.1 = .other (.builtin parameter.1) := by
    rw [QueryObject.get, absent, faithful.prototype]
    exact if_pos inherited
  rw [QueryObject.append, found]
  dsimp only
  by_cases isProto : parameter.1 = "__proto__"
  · left
    rw [QueryObject.put, if_pos isProto]
    exact nofun
  · refine Or.inr ⟨parameter.1, [.builtin parameter.1, .text parameter.2], parameter.1, ?_,
      List.mem_cons_self⟩
    rw [QueryObject.put_of_ne isProto, OrderedMap.get?_set, if_pos rfl]

theorem valueOf_texts {values : List String} {items : List QueryItem}
    (isList : valueOf values = some (.list items)) (name : String) :
    QueryItem.builtin name ∉ items := by
  match values with
  | [] => cases isList
  | [_] => cases isList
  | first :: second :: rest =>
      cases isList
      simp

theorem QueryFaithful.not_spoiled (faithful : QueryFaithful parameters query) : ¬query.Spoiled := by
  rintro (another | ⟨name, items, inherited, stored, member⟩)
  · exact another faithful.prototype
  · rw [faithful.values] at stored
    exact valueOf_texts stored inherited member

theorem readQuery_append (parameters : List (String × String)) (parameter : String × String) :
    readQuery (parameters ++ [parameter]) = (readQuery parameters).append parameter := by
  rw [readQuery, List.foldl_append, List.foldl_cons, List.foldl_nil, readQuery]

theorem readQuery_cases (parameters : List (String × String)) :
    (∀ parameter ∈ parameters, parameter.1 ∉ objectPrototypeNames) ∧
        QueryFaithful parameters (readQuery parameters) ∨
      (∃ parameter ∈ parameters, parameter.1 ∈ objectPrototypeNames) ∧
        (readQuery parameters).Spoiled := by
  induction parameters using List.reverseRecOn with
  | nil => exact Or.inl ⟨nofun, rfl, fun _ => rfl⟩
  | append_singleton parameters parameter ih =>
      rw [readQuery_append]
      rcases ih with ⟨free, faithful⟩ | ⟨⟨other, member, inherited⟩, spoiled⟩
      · by_cases isFree : parameter.1 ∈ objectPrototypeNames
        · exact Or.inr ⟨⟨parameter, by simp, isFree⟩, faithful.spoils free isFree⟩
        · refine Or.inl ⟨?_, faithful.append isFree⟩
          intro other member
          rcases List.mem_append.mp member with before | last
          · exact free other before
          · rwa [List.mem_singleton.mp last]
      · exact Or.inr ⟨⟨other, List.mem_append_left _ member, inherited⟩, spoiled.append parameter⟩

theorem queryFaithful_readQuery_iff (parameters : List (String × String)) :
    QueryFaithful parameters (readQuery parameters) ↔
      ∀ parameter ∈ parameters, parameter.1 ∉ objectPrototypeNames := by
  rcases readQuery_cases parameters with ⟨free, faithful⟩ | ⟨⟨other, member, inherited⟩, spoiled⟩
  · exact iff_of_true faithful free
  · exact iff_of_false (fun faithful => faithful.not_spoiled spoiled)
      fun free => free other member inherited

end QueryNames

section Results

variable (parseUrl : UrlParser) (method url : String) (headers : SentHeaders)
  {request : HttpRequest}

theorem isSome_create_iff : (HttpRequest.create parseUrl method url headers.entries).isSome = true ↔
    (parseUrl url).isSome = true ∧ ∀ entry ∈ headers.entries,
      entry.2.single.isSome = true → toLowerCase entry.1 ∉ protectedNames := by
  have throws := createHeaderStore_eq_none_iff headers
  rw [HttpRequest.create]
  cases store : createHeaderStore headers.entries with
  | none =>
      rcases throws.mp store with ⟨entry, member, sent, isProtected⟩
      exact iff_of_false nofun fun accepted => accepted.2 entry member sent isProtected
  | some store =>
      have free : ∀ entry ∈ headers.entries, entry.2.single.isSome = true →
          toLowerCase entry.1 ∉ protectedNames := fun entry member sent isProtected => by
        cases (store ▸ throws).mpr ⟨entry, member, sent, isProtected⟩
      cases parseUrl url with
      | none => simp
      | some parsed => simpa using free

theorem headers_create
    (created : HttpRequest.create parseUrl method url headers.entries = some request) :
    request.headers = ⟨normalizeHeaders headers.entries⟩ := by
  rw [HttpRequest.create, createHeaderStore_eq] at created
  split_ifs at created
  · cases created
  · cases parsed : parseUrl url with
    | none => simp [parsed] at created
    | some found =>
        simp only [parsed, Option.bind_eq_bind, Option.bind_some] at created
        cases created
        rfl

theorem not_represents
    (created : HttpRequest.create parseUrl method url headers.entries = some request) :
    ¬Represents parseUrl method url headers request := by
  intro represents
  have free := ((isSome_create_iff parseUrl method url headers).mp (by rw [created]; rfl)).2
  have isName : toLowerCase "name" = "name" := by decide +kernel
  have unsent : ∀ entry ∈ headers.entries, toLowerCase entry.1 = toLowerCase "name" →
      entry.2.single = none := by
    intro entry member same
    by_contra sent
    refine free entry member (Option.isSome_iff_ne_none.mpr sent) ?_
    rw [same, isName]
    decide
  have answered := represents.unsent "name" unsent
  have absent : request.headers.assigned.get? "name" = none := by
    rw [headers_create parseUrl method url headers created, Option.eq_none_iff_forall_not_mem]
    intro value stored
    rcases (get?_normalizeHeaders_iff headers).mp stored with ⟨-, entry, member, same, sent⟩
    rw [unsent entry member (same.trans isName.symm)] at sent
    cases sent
  rw [getHeaderValue, isName, HeaderStore.get, absent] at answered
  cases answered

/-- When a request is built, when its query is faithful, and that as a whole it never represents
what was sent. -/
theorem represents_never :
    ((HttpRequest.create parseUrl method url headers.entries).isSome = true ↔
      (parseUrl url).isSome = true ∧ ∀ entry ∈ headers.entries,
        entry.2.single.isSome = true → toLowerCase entry.1 ∉ protectedNames) ∧
    (∀ parameters, QueryFaithful parameters (readQuery parameters) ↔
      ∀ parameter ∈ parameters, parameter.1 ∉ objectPrototypeNames) ∧
    ¬∃ request, HttpRequest.create parseUrl method url headers.entries = some request ∧
      Represents parseUrl method url headers request :=
  ⟨isSome_create_iff parseUrl method url headers, queryFaithful_readQuery_iff,
    fun ⟨_, created, represents⟩ => not_represents parseUrl method url headers created represents⟩

/-- `GET /?__proto__=1` without headers has a header `name`, and the prototype of its query is an
array. -/
theorem request_misrepresented :
    let parseUrl : UrlParser := fun _ => some ("/", [("__proto__", "1")])
    (∃ request, HttpRequest.create parseUrl "GET" "/?__proto__=1" [] = some request ∧
      getHeaderValue request.headers "name" = .text "store" ∧
      request.query.prototype = .array [.builtin "__proto__", .text "1"] ∧
      ¬Represents parseUrl "GET" "/?__proto__=1" ⟨[], nofun, List.nodup_nil⟩ request) ∧
    HttpRequest.create parseUrl "GET" "/" [("name", .text "x")] = none := by
  refine ⟨⟨_, rfl, by decide +kernel, by decide +kernel, ?_⟩, by decide +kernel⟩
  exact not_represents _ _ _ ⟨[], nofun, List.nodup_nil⟩ rfl

end Results

end ServerFoundation.Http
