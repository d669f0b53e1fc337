import ServerFoundation.Sql.JsonColumns

/-!
# The payload of a worker job

`enqueue` hands BullMQ a wrapper around the data and the options of a job, and BullMQ keeps
it as JSON. A handler gets them back through `fromBullJob`, the recorder through
`toQueuedWorkerJob`; without BullMQ they stay in memory.
-/

namespace ServerFoundation.Worker

open Sql

section Options

/-- The options of a job. -/
inductive OptionKey where
  | delay
  | queueName
  | runInTest
  | runImmediately
  | recordToDatabase
  | repeatKey
deriving DecidableEq

namespace OptionKey

/-- The name of an option in JSON. -/
def text : OptionKey → String
  | delay => "delay"
  | queueName => "queueName"
  | runInTest => "runInTest"
  | runImmediately => "runImmediately"
  | recordToDatabase => "recordToDatabase"
  | repeatKey => "repeatKey"

theorem text_injective : Function.Injective text := by
  intro left right
  cases left <;> cases right <;> decide

end OptionKey

/-- A member of the options; numbers are doubles. -/
inductive OptionValue where
  | undefined
  | number (value : JsNumber) (double : value.IsDouble)
  | boolean (value : Bool)
  | string (value : String)

namespace OptionValue

/-- The data of an option value. -/
def toData : OptionValue → Data
  | undefined => .undefined
  | number value _ => .number value
  | boolean value => .boolean value
  | string value => .string value

/-- What JSON makes of a member. -/
def written : OptionValue → Option JsonValue
  | undefined => none
  | number value _ => some (if value.isFinite then .number value else .null)
  | boolean value => some (.boolean value)
  | string value => some (.string value)

/-- JSON has the value. -/
def isStable : OptionValue → Bool
  | undefined => false
  | number value _ => value.isFinite
  | boolean _ => true
  | string _ => true

end OptionValue

/-- `IJobOptions`, in the order in which the members were set. -/
structure JobOptions where
  members : List (OptionKey × OptionValue)
  nodupKeys : (members.map Prod.fst).Nodup

namespace JobOptions

variable (options : JobOptions)

/-- The data of the options. -/
def toData : Data := .object (options.members.map fun member => (member.1.text, member.2.toData))

/-- The members that JSON keeps. -/
def written : List (String × JsonValue) :=
  options.members.filterMap fun member => member.2.written.map fun value => (member.1.text, value)

/-- A member that is there and not `undefined`. -/
def has (key : OptionKey) : Prop := ∃ value, (key, value) ∈ options.members ∧ value.written.isSome

end JobOptions

end Options

section Codec

/-- The data and the options of a job, as a handler or the recorder sees them. -/
structure Payload where
  data : Data
  options : Data

/-- What `enqueue` adds to the queue. -/
def enqueued (data : Data) (options : JobOptions) : Data :=
  .object [("data", data), ("options", options.toData)]

/-- How the data of a job comes out of BullMQ. -/
def transported (payload : Data) : Option JsonValue :=
  (stringify payload).join.bind fun text => Json.parse (String.ofList text)

/-- `normalizeJobData`. -/
def normalizeJobData : Data → Data
  | .undefined => .object []
  | data => data

/-- The path without BullMQ: `add`, and `normalizeJobData` before the handler is called. -/
def inMemory (data : Data) (options : JobOptions) : Payload where
  data := normalizeJobData data
  options := options.toData

/-- `isRecord`. -/
def isRecord : JsonValue → Bool
  | .array _ => true
  | .object _ => true
  | _ => false

/-- `{ ...value }`. -/
def spread : JsonValue → Data
  | .object members => .object (ofJsonMembers members)
  | .array items => .object (items.zipIdx.map fun item => (toString item.2, Data.ofJson item.1))
  | .string text => .object ((JsText.units text).zipIdx.map fun unit =>
      (toString unit.2, .string (String.ofList (JsText.textOfUnits [unit.1]))))
  | _ => .object []

/-- `isWorkerPayloadWrapper`. -/
def isWorkerPayloadWrapper (members : List (String × JsonValue)) : Bool :=
  match members.lookup "options" with
  | none => false
  | some options =>
      (members.lookup "data").isSome || (options.property "repeatKey").isSome

/-- A property of a value that has come out of JSON. -/
def propertyOf (value : JsonValue) (name : String) : Data :=
  ((value.property name).map Data.ofJson).getD .undefined

/-- `unwrapBullMqJobData`. -/
def unwrapBullMqJobData : JsonValue → Payload
  | .object members =>
      if isWorkerPayloadWrapper members then
        { data := propertyOf (.object members) "data"
          options := match members.lookup "options" with
            | some options => if isRecord options then spread options else .object []
            | none => .object [] }
      else { data := Data.ofJson (.object members), options := .object [] }
  | raw => { data := Data.ofJson raw, options := .object [] }

/-- The payload of `fromBullJob`. -/
def fromBullJob (raw : JsonValue) : Payload :=
  let payload := unwrapBullMqJobData raw
  { data := normalizeJobData payload.data, options := payload.options }

/-- The payload of the recorder's `toQueuedWorkerJob`. -/
def toQueuedWorkerJob (raw : JsonValue) : Payload where
  data := normalizeJobData (propertyOf raw "data")
  options := match raw.property "options" with
    | some options => spread options
    | none => .object []

end Codec

section Transport

variable {options : JobOptions}

/-- Data that a job can be given: nothing, or a JSON value. -/
def jobData (data : Option JsonValue) : Data := (data.map Data.ofJson).getD .undefined

/-- The wrapper as JSON has it. -/
def wrapper (data : Option JsonValue) (options : JobOptions) : List (String × JsonValue) :=
  (data.map fun value => ("data", value)).toList ++ [("options", .object options.written)]

theorem stringify_toData (value : OptionValue) :
    stringify value.toData = some (value.written.map JsonValue.write) := by
  cases value with
  | number value double =>
      rw [OptionValue.toData, stringify, OptionValue.written, Option.map_some]
      split_ifs with isFinite
      · rw [JsonValue.write, if_pos isFinite]
      · rfl
  | _ => rfl

theorem stringifyEntries_options (members : List (OptionKey × OptionValue)) :
    stringifyEntries (members.map fun member => (member.1.text, member.2.toData)) =
      some (JsonValue.writeMembers (members.filterMap fun member =>
        member.2.written.map fun value => (member.1.text, value))) := by
  induction members with
  | nil => rfl
  | cons member members ih =>
      rw [List.map_cons, stringifyEntries, stringify_toData, ih, List.filterMap_cons]
      cases member.2.written <;> rfl

theorem stringify_enqueued (data : Option JsonValue) (options : JobOptions) :
    stringify (enqueued (jobData data) options) =
      some (some (JsonValue.object (wrapper data options)).write) := by
  have written : stringify options.toData =
      some (some (JsonValue.object options.written).write) := by
    rw [JobOptions.toData, stringify, stringifyEntries_options]
    rfl
  cases data with
  | none =>
      simp only [enqueued, jobData, Option.map_none, Option.getD_none, stringify,
        stringifyEntries, written]
      rfl
  | some value =>
      simp only [enqueued, jobData, Option.map_some, Option.getD_some, stringify,
        stringifyEntries, written, stringify_ofJson]
      rfl

theorem ownEntries_fromEntries {entries : List (String × JsonValue)}
    (nodup : (entries.map Prod.fst).Nodup)
    (named : ∀ entry ∈ entries, JsObject.isNamed entry = true) :
    JsObject.ownEntries (JsObject.fromEntries entries) = entries := by
  have noIndex : entries.filter (fun entry => !JsObject.isNamed entry) = [] := by
    rw [List.filter_eq_nil_iff]
    intro entry member
    simp [named entry member]
  rw [JsObject.ownEntries, JsObject.indexed, JsObject.named, JsObject.entries_fromEntries nodup,
    noIndex, List.filter_eq_self.mpr named]
  rfl

theorem properMembers_iff {members : List (String × JsonValue)} :
    JsonValue.ProperMembers members ↔ ∀ member ∈ members, member.2.Proper := by
  induction members with
  | nil => simp [JsonValue.ProperMembers]
  | cons member members ih => simp [JsonValue.ProperMembers, ih]

theorem proper_written (options : JobOptions) : (JsonValue.object options.written).Proper := by
  have ofMember : ∀ entry ∈ options.written, ∃ member ∈ options.members,
      entry.1 = member.1.text ∧ member.2.written = some entry.2 := by
    intro entry found
    rcases List.mem_filterMap.mp found with ⟨member, among, isEntry⟩
    rcases Option.map_eq_some_iff.mp isEntry with ⟨value, isWritten, rfl⟩
    exact ⟨member, among, rfl, isWritten⟩
  constructor
  · apply ownEntries_fromEntries
    · have keys : (options.written.map Prod.fst).Sublist
          ((options.members.map Prod.fst).map OptionKey.text) := by
        rw [JobOptions.written]
        induction options.members with
        | nil => exact List.Sublist.refl _
        | cons member members ih =>
            rw [List.filterMap_cons]
            cases member.2.written with
            | none => exact ih.cons _
            | some value => exact ih.cons_cons _
      exact keys.nodup (options.nodupKeys.map OptionKey.text_injective)
    · intro entry found
      rcases ofMember entry found with ⟨member, _, isKey, _⟩
      rw [JsObject.isNamed, isKey]
      cases member.1 <;> decide
  · rw [properMembers_iff]
    intro entry found
    rcases ofMember entry found with ⟨⟨key, value⟩, _, _, isWritten⟩
    cases value with
    | undefined => cases isWritten
    | number value double =>
        rw [OptionValue.written, Option.some.injEq] at isWritten
        rw [← isWritten]
        split_ifs with isFinite
        · exact ⟨isFinite, double⟩
        · trivial
    | _ =>
        rw [OptionValue.written, Option.some.injEq] at isWritten
        rw [← isWritten]
        trivial

theorem transported_enqueued {data : Option JsonValue} (proper : ∀ value ∈ data, value.Proper)
    (options : JobOptions) :
    transported (enqueued (jobData data) options) = some (.object (wrapper data options)) := by
  have whole : (JsonValue.object (wrapper data options)).Proper := by
    have optionsProper := proper_written options
    have named : JsObject.arrayIndex "data" = none ∧ JsObject.arrayIndex "options" = none := by
      decide
    cases data with
    | none =>
        refine ⟨ownEntries_fromEntries ?_ ?_, optionsProper, trivial⟩
        · simp [wrapper]
        · simp [wrapper, JsObject.isNamed, named]
    | some value =>
        refine ⟨ownEntries_fromEntries ?_ ?_, proper value rfl, optionsProper, trivial⟩
        · simp [wrapper]
        · simp [wrapper, JsObject.isNamed, named]
  have parsed := Json.parse_stringify whole
  rw [JsonValue.stringify] at parsed
  rw [transported, stringify_enqueued, Option.join_some, Option.bind_some, parsed]

end Transport

section Agreement

variable {options : JobOptions}

/-- What arrives is read, by a handler and by the recorder, as the path in memory has it. -/
def PathsAgree (data : Option JsonValue) (options : JobOptions) : Prop :=
  ∃ received, transported (enqueued (jobData data) options) = some received ∧
    fromBullJob received = inMemory (jobData data) options ∧
    (toQueuedWorkerJob received).data = (inMemory (jobData data) options).data

/-- JSON has every one of the options. -/
def JobOptions.isStable (options : JobOptions) : Bool :=
  options.members.all fun member => member.2.isStable

theorem OptionValue.ofJson_written {value : OptionValue} (stable : value.isStable = true) :
    value.written.map Data.ofJson = some value.toData := by
  cases value with
  | undefined => cases stable
  | number value double =>
      rw [OptionValue.isStable] at stable
      rw [OptionValue.written, if_pos stable]
      rfl
  | _ => rfl

theorem OptionValue.isStable_of_written {value : OptionValue} {json : JsonValue}
    (isWritten : value.written = some json) (same : Data.ofJson json = value.toData) :
    value.isStable = true := by
  cases value with
  | undefined => cases isWritten
  | number value double =>
      by_contra notFinite
      rw [OptionValue.isStable] at notFinite
      rw [OptionValue.written, if_neg notFinite, Option.some.injEq] at isWritten
      rw [← isWritten] at same
      cases same
  | _ => rfl

theorem ofJsonMembers_eq_map (members : List (String × JsonValue)) :
    ofJsonMembers members = members.map fun member => (member.1, Data.ofJson member.2) := by
  induction members with
  | nil => rfl
  | cons member members ih => rw [ofJsonMembers, ih, List.map_cons]

theorem ofJson_written_iff (options : JobOptions) :
    Data.object (ofJsonMembers options.written) = options.toData ↔ options.isStable = true := by
  rw [JobOptions.toData, JobOptions.written, JobOptions.isStable, Data.object.injEq,
    ofJsonMembers_eq_map]
  induction options.members with
  | nil => simp
  | cons member members ih =>
      rw [List.filterMap_cons, List.all_cons, Bool.and_eq_true, ← ih]
      cases isWritten : member.2.written with
      | none =>
          have short := List.length_filterMap_le (fun member : OptionKey × OptionValue =>
            member.2.written.map fun value => (member.1.text, value)) members
          constructor
          · intro same
            have length := congrArg List.length same
            simp only [Option.map_none, List.length_map, List.length_cons] at length
            omega
          · rintro ⟨stable, _⟩
            have kept := OptionValue.ofJson_written stable
            rw [isWritten] at kept
            cases kept
      | some json =>
          simp only [Option.map_some, List.map_cons, List.cons.injEq, Prod.mk.injEq, true_and]
          apply and_congr_left
          intro _
          constructor
          · exact OptionValue.isStable_of_written isWritten
          · intro stable
            have kept := OptionValue.ofJson_written stable
            rw [isWritten] at kept
            exact Option.some.inj kept

theorem lookup_repeatKey (options : JobOptions) :
    (options.written.lookup "repeatKey").isSome = true ↔ options.has .repeatKey := by
  rw [List.lookup_isSome_iff]
  constructor
  · rintro ⟨entry, found, isKey⟩
    rcases List.mem_filterMap.mp found with ⟨⟨key, value⟩, member, isEntry⟩
    rcases Option.map_eq_some_iff.mp isEntry with ⟨json, isWritten, rfl⟩
    have same : key = .repeatKey := OptionKey.text_injective (eq_of_beq isKey).symm
    rw [same] at member
    exact ⟨value, member, by rw [isWritten]; rfl⟩
  · rintro ⟨value, member, isSome⟩
    rcases Option.isSome_iff_exists.mp isSome with ⟨json, isWritten⟩
    refine ⟨("repeatKey", json), List.mem_filterMap.mpr ⟨_, member, ?_⟩, by simp⟩
    rw [isWritten]
    rfl

theorem normalizeJobData_ofJson (value : JsonValue) :
    normalizeJobData (Data.ofJson value) = Data.ofJson value := by
  cases value <;> rfl

theorem fromBullJob_some (value : JsonValue) (options : JobOptions) :
    fromBullJob (.object (wrapper (some value) options)) =
      { data := Data.ofJson value, options := .object (ofJsonMembers options.written) } := by
  have data : (wrapper (some value) options).lookup "data" = some value := by simp [wrapper]
  have found : (wrapper (some value) options).lookup "options" =
      some (.object options.written) := by simp [wrapper, List.lookup_cons]
  simp [fromBullJob, unwrapBullMqJobData, isWorkerPayloadWrapper, propertyOf, JsonValue.property,
    data, found, isRecord, spread, normalizeJobData_ofJson]

theorem fromBullJob_none (options : JobOptions) :
    fromBullJob (.object (wrapper none options)) =
      if (options.written.lookup "repeatKey").isSome then
        { data := .object [], options := .object (ofJsonMembers options.written) }
      else
        { data := Data.ofJson (.object (wrapper none options)), options := .object [] } := by
  have data : (wrapper none options).lookup "data" = none := by simp [wrapper, List.lookup_cons]
  have found : (wrapper none options).lookup "options" = some (.object options.written) := by
    simp [wrapper]
  cases repeats : (options.written.lookup "repeatKey").isSome with
  | true =>
      simp [fromBullJob, unwrapBullMqJobData, isWorkerPayloadWrapper, propertyOf,
        JsonValue.property, data, found, repeats, isRecord, spread, normalizeJobData]
  | false =>
      simp [fromBullJob, unwrapBullMqJobData, isWorkerPayloadWrapper,
        JsonValue.property, data, found, repeats, normalizeJobData_ofJson]

theorem toQueuedWorkerJob_data (data : Option JsonValue) (options : JobOptions) :
    (toQueuedWorkerJob (.object (wrapper data options))).data =
      (inMemory (jobData data) options).data := by
  cases data with
  | none =>
      simp [toQueuedWorkerJob, propertyOf, JsonValue.property, wrapper, inMemory, jobData,
        List.lookup_cons]
  | some value =>
      simp [toQueuedWorkerJob, propertyOf, JsonValue.property, wrapper, inMemory, jobData]

/-- The three paths agree if and only if the data is defined or the options name a repeat key,
and JSON has every option. -/
theorem pathsAgree_iff {data : Option JsonValue} (proper : ∀ value ∈ data, value.Proper)
    (options : JobOptions) :
    PathsAgree data options ↔
      (data.isSome = true ∨ options.has .repeatKey) ∧ options.isStable = true := by
  have arrives := transported_enqueued proper options
  have agree : PathsAgree data options ↔
      fromBullJob (.object (wrapper data options)) = inMemory (jobData data) options := by
    constructor
    · rintro ⟨received, found, same, _⟩
      rw [arrives] at found
      cases found
      exact same
    · exact fun same => ⟨_, arrives, same, toQueuedWorkerJob_data data options⟩
  rw [agree, ← ofJson_written_iff]
  cases data with
  | some value =>
      simp [fromBullJob_some, inMemory, jobData, normalizeJobData_ofJson]
  | none =>
      rw [fromBullJob_none, ← lookup_repeatKey]
      split_ifs with repeats
      · simp [inMemory, jobData, normalizeJobData, repeats]
      · simp [inMemory, jobData, normalizeJobData, repeats, Data.ofJson, wrapper, ofJsonMembers]

/-- A job that is to be recorded. -/
def recordedOptions : JobOptions where
  members := [(.delay, .number (.finite 1000) (by decide +kernel)),
    (.recordToDatabase, .boolean true)]
  nodupKeys := by decide

theorem pathsAgree_iff_nested :
    PathsAgree (some (.object [("data", .null), ("options", .object [])])) recordedOptions ↔
      ((some (JsonValue.object [("data", .null), ("options", .object [])])).isSome = true ∨
        recordedOptions.has .repeatKey) ∧ recordedOptions.isStable = true :=
  pathsAgree_iff (fun value isData => by
    cases isData
    exact ⟨ownEntries_fromEntries (by decide) (by decide), trivial, ⟨rfl, trivial⟩, trivial⟩)
    recordedOptions

/-- Without data and without a repeat key a handler gets the wrapper for its data. -/
theorem handler_gets_wrapper :
    transported (enqueued .undefined recordedOptions) =
        some (.object [("options", .object [("delay", .number (.finite 1000)),
          ("recordToDatabase", .boolean true)])]) ∧
      ¬PathsAgree none recordedOptions := by
  have arrives : transported (enqueued .undefined recordedOptions) =
      some (.object (wrapper none recordedOptions)) :=
    transported_enqueued (nofun : ∀ value ∈ (none : Option JsonValue), value.Proper) recordedOptions
  refine ⟨arrives, ?_⟩
  rintro ⟨received, found, same, _⟩
  rw [jobData, Option.map_none, Option.getD_none, arrives] at found
  cases found
  rw [fromBullJob_none] at same
  cases same

end Agreement

end ServerFoundation.Worker
