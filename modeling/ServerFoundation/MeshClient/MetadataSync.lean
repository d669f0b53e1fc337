import Mathlib.Logic.Function.Basic
import ServerFoundation.Data.TransitionSystem

/-!
# Synchronisation of client metadata

The streams of one client on a node whose mesh is running. Changes to the live metadata
of a stream schedule a sync in a microtask, which writes to the registry through the
chain of the client when the metadata differ from the last confirmed ones. An explicit
update goes to the registry directly and then to the stream. A call of the registry
takes effect before its caller resumes, so that other steps come between.
-/

namespace ServerFoundation.MeshClient.MetadataSync

/-- The live metadata of a stream, by top-level keys. -/
abbrev Metadata (Key Item : Type) := Key → Option Item

section Metadata

variable {Key Item : Type} [DecidableEq Key]

/-- An assignment, or without a value a deletion, of a top-level key. -/
def Metadata.change (metadata : Metadata Key Item) (key : Key) (item : Option Item) :
    Metadata Key Item :=
  Function.update metadata key item

/-- `Object.assign(meta, changes)`. -/
def Metadata.assign (metadata : Metadata Key Item) (changes : List (Key × Item)) :
    Metadata Key Item :=
  changes.foldl (fun merged change => merged.change change.1 (some change.2)) metadata

end Metadata

/-- What a stream has come to: its reservation, its activation in the registry, the connection
handlers, and the local activation. -/
inductive Phase where
  | reserving
  | activating
  | connecting
  | active
deriving DecidableEq, Repr

/-- An entry of the registry chain. -/
inductive Entry (Registry : Type) where
  | reserve (stream : ℕ) (metadata : Registry)
  | activate (stream : ℕ) (metadata : Registry)
  | write (stream : ℕ) (metadata : Registry)
  | unregister (stream : ℕ)
deriving DecidableEq, Repr

/-- Where the first entry of the chain stands: not started, waiting for the registry, answered. -/
inductive Head where
  | idle
  | called
  | answered (accepted : Bool)
deriving DecidableEq, Repr

/-- An explicit update in flight, and whether the registry has taken it. -/
structure Update (Key Item Registry : Type) where
  stream : ℕ
  changes : List (Key × Item)
  projected : Registry
  applied : Bool

/-- The state of one client: `confirmed` is its entry of `clientRegistryMetadata`, `syncing` the
stream whose microtask is queued, and `record` its connection with the metadata. -/
structure State (Key Item Registry : Type) where
  live : ℕ → Metadata Key Item
  next : ℕ
  current : Option ℕ
  phase : Phase
  confirmed : Option Registry
  record : Option (ℕ × Registry)
  syncing : Option ℕ
  chain : List (Entry Registry)
  head : Head
  updates : List (Update Key Item Registry)
  timers : List ℕ

/-- What can happen. -/
inductive Label (Key Item : Type) where
  /-- A stream is established and replaces the current one. -/
  | establish (metadata : Metadata Key Item)
  | disconnect
  | mutate (stream : ℕ) (key : Key) (item : Option Item)
  | microtask
  /-- The first entry of the chain starts. -/
  | start
  /-- The registry serves the first entry, or refuses or fails. -/
  | answer (accepted : Bool)
  /-- The first entry resumes with its answer. -/
  | resume
  /-- The connection handlers are done. -/
  | connected
  | update (changes : List (Key × Item))
  | updateAnswer (index : ℕ) (accepted : Bool)
  /-- An explicit update resumes; the check that its stream is current may fail by itself. -/
  | updateResume (index : ℕ) (checked : Bool)
  | timer (index : ℕ)

section Operations

variable {Key Item Registry : Type} [DecidableEq Key] [DecidableEq Registry]
  (extractRegistryMetadata : Metadata Key Item → Registry)

namespace State

variable (state : State Key Item Registry)

/-- Appends an entry, as `enqueueClientRegistry`. -/
def enqueueClientRegistry (entry : Entry Registry) : State Key Item Registry :=
  { state with chain := state.chain ++ [entry] }

/-- `scheduleSyncStreamMeta`. -/
def scheduleSyncStreamMeta (stream : ℕ) : State Key Item Registry :=
  match state.syncing with
  | some _ => state
  | none => { state with syncing := some stream }

/-- `syncStreamMeta`. -/
def syncStreamMeta (stream : ℕ) : State Key Item Registry :=
  let metadata := extractRegistryMetadata (state.live stream)
  if state.confirmed = some metadata then state
  else state.enqueueClientRegistry (.write stream metadata)

/-- `cleanupStream`; only the current stream is alive. -/
def cleanupStream (stream : ℕ) : State Key Item Registry :=
  if state.current = some stream then
    { state with current := none }.enqueueClientRegistry (.unregister stream)
  else state

/-- `handleStreamEstablished` up to the entry that reserves the client. -/
def establish (metadata : Metadata Key Item) : State Key Item Registry :=
  let closed :=
    match state.current with
    | some previous => state.cleanupStream previous
    | none => state
  { closed with
    live := Function.update closed.live closed.next metadata
    next := closed.next + 1
    current := some closed.next
    phase := .reserving
    confirmed := some (extractRegistryMetadata metadata) }.enqueueClientRegistry
      (.reserve closed.next (extractRegistryMetadata metadata))

/-- A change through the proxy. -/
def mutate (stream : ℕ) (key : Key) (item : Option Item) : State Key Item Registry :=
  { state with
    live := Function.update state.live stream ((state.live stream).change key item)
    }.scheduleSyncStreamMeta stream

/-- The first entry is over. -/
def popEntry : State Key Item Registry := { state with chain := state.chain.tail, head := .idle }

/-- Starts the first entry; a reservation and an activation return when their stream is gone. -/
def startEntry : Entry Registry → State Key Item Registry
  | .reserve stream _ =>
      if state.current = some stream then { state with head := .called } else state.popEntry
  | .activate stream _ =>
      if state.current = some stream then { state with head := .called } else state.popEntry
  | _ => { state with head := .called }

/-- Whether the record is that of the stream. -/
def isRecordOf (stream : ℕ) : Bool :=
  match state.record with
  | some (connection, _) => connection = stream
  | none => false

/-- A write to the record of a stream, which answers whether it is still there. -/
def writeRecord (stream : ℕ) (metadata : Registry) (accepted : Bool) : State Key Item Registry :=
  if accepted ∧ state.isRecordOf stream then
    { state with record := some (stream, metadata), head := .answered true }
  else { state with head := .answered false }

/-- The registry's part of the first entry. -/
def answerEntry (accepted : Bool) : Entry Registry → State Key Item Registry
  | .reserve stream metadata =>
      if accepted then { state with record := some (stream, metadata), head := .answered true }
      else { state with head := .answered false }
  | .activate stream metadata => state.writeRecord stream metadata accepted
  | .write stream metadata => state.writeRecord stream metadata accepted
  | .unregister stream =>
      if accepted ∧ state.isRecordOf stream then
        { state with record := none, head := .answered true }
      else { state with head := .answered accepted }

/-- The rest of the first entry, and of what waited for it. -/
def resumeEntry (accepted : Bool) : Entry Registry → State Key Item Registry
  | .reserve stream _ =>
      if accepted then
        if state.current = some stream then
          { state.popEntry with phase := .activating }.enqueueClientRegistry
            (.activate stream (extractRegistryMetadata (state.live stream)))
        else state.popEntry
      else state.popEntry.cleanupStream stream
  | .activate stream metadata =>
      if accepted then
        { state.popEntry with
          confirmed := some metadata
          phase := if state.current = some stream then .connecting else state.phase }
      else state.popEntry.cleanupStream stream
  | .write stream metadata =>
      if state.current = some stream then
        if accepted then { state.popEntry with confirmed := some metadata }
        else { state.popEntry with timers := state.timers ++ [stream] }
      else state.popEntry
  | .unregister _ =>
      if accepted ∧ state.current = none then { state.popEntry with confirmed := none }
      else state.popEntry

/-- The local part of an explicit update. -/
def applyUpdate (update : Update Key Item Registry) : State Key Item Registry :=
  let merged : State Key Item Registry :=
    { state with
      live := Function.update state.live update.stream
        ((state.live update.stream).assign update.changes)
      confirmed := some update.projected }
  if update.changes = [] then merged else merged.scheduleSyncStreamMeta update.stream

/-- The microtask of a stream: it syncs when the stream is still current. -/
def syncIfCurrent (stream : ℕ) : State Key Item Registry :=
  if state.current = some stream then state.syncStreamMeta extractRegistryMetadata stream else state

/-- One step, where it is possible. -/
def step : Label Key Item → Option (State Key Item Registry)
  | .establish metadata => some (state.establish extractRegistryMetadata metadata)
  | .disconnect => state.current.map state.cleanupStream
  | .mutate stream key item =>
    if stream < state.next then some (state.mutate stream key item) else none
  | .microtask =>
      state.syncing.map fun stream =>
        { state with syncing := none }.syncIfCurrent extractRegistryMetadata stream
  | .start =>
      match state.chain, state.head with
      | entry :: _, .idle => some (state.startEntry entry)
      | _, _ => none
  | .answer accepted =>
      match state.chain, state.head with
      | entry :: _, .called => some (state.answerEntry accepted entry)
      | _, _ => none
  | .resume =>
      match state.chain, state.head with
      | entry :: _, .answered accepted =>
          some (state.resumeEntry extractRegistryMetadata accepted entry)
      | _, _ => none
  | .connected =>
      match state.current, state.phase with
      | some stream, .connecting =>
          some ({ state with phase := .active }.syncStreamMeta extractRegistryMetadata stream)
      | _, _ => none
  | .update changes =>
      match state.current, state.phase with
      | some stream, .active =>
          some { state with
            updates := state.updates ++
              [⟨stream, changes, extractRegistryMetadata ((state.live stream).assign changes),
                false⟩] }
      | _, _ => none
  | .updateAnswer index accepted =>
      match state.updates[index]? with
      | some update =>
          if update.applied then none
          else if accepted ∧ state.isRecordOf update.stream then
            some { state with
              record := some (update.stream, update.projected)
              updates := state.updates.set index { update with applied := true } }
          else some { state with updates := state.updates.eraseIdx index }
      | none => none
  | .updateResume index checked =>
      match state.updates[index]? with
      | some update =>
          if update.applied then
            let finished := { state with updates := state.updates.eraseIdx index }
            if checked ∧ state.current = some update.stream ∧ state.isRecordOf update.stream then
              some (finished.applyUpdate update)
            else some finished
          else none
      | none => none
  | .timer index =>
      state.timers[index]?.map fun stream =>
        { state with timers := state.timers.eraseIdx index }.syncIfCurrent extractRegistryMetadata
          stream

end State

/-- No client, and nothing pending. -/
def initial (live : ℕ → Metadata Key Item) : State Key Item Registry :=
  ⟨live, 0, none, .reserving, none, none, none, [], .idle, [], []⟩

/-- The runs of one client. -/
def system : TransitionSystem (State Key Item Registry) (Label Key Item) where
  Init state := ∃ live, state = initial live
  Step before label after := before.step extractRegistryMetadata label = some after

end Operations

end ServerFoundation.MeshClient.MetadataSync
