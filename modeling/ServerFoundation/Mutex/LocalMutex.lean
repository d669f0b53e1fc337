import ServerFoundation.Data.JsObject
import ServerFoundation.Data.Positions
import ServerFoundation.Data.TransitionSystem

/-!
# Local mutexes

`withMutex` and `withMutexes` in local mode. A lock is an entry of the map `localMutexes`; its
value is the promise that is resolved on release, here a number. Between testing an entry and
setting it there is no `await`, so both are one step. `withMutexes` nests one `withMutex` for
each key, and the locks are released from the inside out, in the `finally` blocks.

The order of the keys comes from `localeCompare`, which compares collation keys. The digest of
plain objects is a parameter as well. A key whose conversion to text throws is left out.
-/

namespace ServerFoundation.Mutex

/-- A JavaScript value as a mutex key. Values that are no objects are given by their text; an object
by its `name` if that is a string, the name of its constructor, its JSON and its text. -/
inductive MutexKey where
  | undefined
  | null
  | primitive (text : String)
  | array (parts : List MutexKey)
  | object (name constructorName json : Option String) (text : String)

section Keys

variable (md5 : String → String)

/-- `flattenMutexKey` for an object. -/
def flattenObject (name constructorName json : Option String) (text : String) : String :=
  match name with
  | some name => name
  | none =>
      match constructorName.filter fun name => name ≠ "" ∧ name ≠ "Object" with
      | some name => name
      | none => md5 ((json.filter fun json => json ≠ "" ∧ json ≠ "\x7b\x7d").getD text)

mutual

/-- `flattenMutexKey`. -/
def flattenMutexKey : MutexKey → String
  | .undefined => "undefined"
  | .null => "null"
  | .primitive text => text
  | .array parts => ":".intercalate (flattenParts parts)
  | .object name constructorName json text => flattenObject md5 name constructorName json text

/-- `flattenMutexKey` for the parts of a key. -/
def flattenParts : List MutexKey → List String
  | [] => []
  | part :: parts => flattenMutexKey part :: flattenParts parts

end

/-- The items that the filter of `orderMutexKeys` lets pass, given the texts seen before. -/
def firstSeen (seen : List String) : List (MutexKey × String) → List (MutexKey × String)
  | [] => []
  | item :: items =>
      if item.2 ∈ seen then firstSeen seen items
      else item :: firstSeen (item.2 :: seen) items

variable {CollationKey : Type} [LinearOrder CollationKey] (collationKey : String → CollationKey)

/-- The keys with their texts, sorted by `localeCompare`. -/
def sortedKeys (keys : List MutexKey) : List (MutexKey × String) :=
  sortOn (fun item => collationKey item.2) (keys.map fun key => (key, flattenMutexKey md5 key))

/-- `orderMutexKeys`. -/
def orderMutexKeys (keys : List MutexKey) : List MutexKey :=
  (firstSeen [] (sortedKeys md5 collationKey keys)).map Prod.fst

end Keys

/-- A call of `withMutex`, or one of `withMutexes` with the keys in their given order. -/
inductive Request where
  | single (key : MutexKey)
  | group (keys : List MutexKey)

/-- Where a call is: in the loop of `localMutexExec`, in its callback, in the `finally` blocks after
the callback or a failed acquisition, or settled. -/
inductive Phase where
  | waiting
  | running
  | unwinding
  | settled
deriving DecidableEq, Repr

/-- A call with the locks that it has acquired, in order, and those that it holds, innermost
first. -/
structure Call where
  request : Request
  acquired : List (String × ℕ)
  held : List (String × ℕ)
  didWait : Bool
  phase : Phase

/-- The map `localMutexes`, and the calls. -/
structure LocalMutexes where
  localMutexes : OrderedMap String ℕ
  calls : List Call
  nextLock : ℕ

/-- What happens in one step. -/
inductive MutexStep where
  | call (request : Request) (aborted : Bool)
  | wait (index : ℕ)
  | acquire (index : ℕ) (aborted : Bool)
  | fail (index : ℕ)
  | finish (index : ℕ)
  | release (index : ℕ)
  | settle (index : ℕ)

section Calls

variable (md5 : String → String) {CollationKey : Type} [LinearOrder CollationKey]
  (collationKey : String → CollationKey)

/-- `options.keys[index]` of `withMutexesInternal`, if that is not `undefined`. -/
def currentKey (keys : List MutexKey) (index : ℕ) : Option MutexKey :=
  match keys[index]? with
  | some .undefined => none
  | some key => some key
  | none => none

namespace Call

/-- The text of the key that the call has to acquire next, or nothing if its callback comes next. -/
def target (call : Call) : Option String :=
  match call.request with
  | .single key => if call.held.length = 0 then some (flattenMutexKey md5 key) else none
  | .group keys =>
      (currentKey (orderMutexKeys md5 collationKey keys) call.held.length).map
        (flattenMutexKey md5)

/-- The call goes on to its next key or to its callback, unless its signal is aborted. -/
def proceed (call : Call) (aborted : Bool) : Call :=
  { call with
    phase :=
      if aborted then .unwinding
      else if (call.target md5 collationKey).isSome then .waiting else .running }

end Call

namespace LocalMutexes

variable (state : LocalMutexes)

/-- No lock is held. -/
def start : LocalMutexes := ⟨.empty, [], 0⟩

/-- A call is replaced. -/
def withCall (index : ℕ) (call : Call) : LocalMutexes :=
  { state with calls := state.calls.set index call }

/-- The call at an index after it has taken a free lock. -/
def acquired (call : Call) (key : String) : Call :=
  { call with
    acquired := call.acquired ++ [(key, state.nextLock)]
    held := (key, state.nextLock) :: call.held }

/-- The map after the `finally` block that gives up a lock. -/
def releaseLock (key : String) (lock : ℕ) : OrderedMap String ℕ :=
  if state.localMutexes.get? key = some lock then state.localMutexes.erase key
  else state.localMutexes

/-- What a step does to calls and locks. -/
def apply : MutexStep → LocalMutexes
  | .call request aborted =>
      let call : Call := ⟨request, [], [], false, .waiting⟩
      { state with calls := state.calls ++ [call.proceed md5 collationKey aborted] }
  | .wait index =>
      match state.calls[index]? with
      | none => state
      | some call => state.withCall index { call with didWait := true }
  | .acquire index aborted =>
      match state.calls[index]? with
      | none => state
      | some call =>
          match call.target md5 collationKey with
          | none => state
          | some key =>
              { localMutexes := state.localMutexes.set key state.nextLock
                calls := state.calls.set index
                  ((state.acquired call key).proceed md5 collationKey aborted)
                nextLock := state.nextLock + 1 }
  | .fail index | .finish index =>
      match state.calls[index]? with
      | none => state
      | some call => state.withCall index { call with phase := .unwinding }
  | .release index =>
      match state.calls[index]? with
      | none => state
      | some call =>
          match call.held with
          | [] => state
          | (key, lock) :: held =>
              { state with
                localMutexes := state.releaseLock key lock
                calls := state.calls.set index { call with held } }
  | .settle index =>
      match state.calls[index]? with
      | none => state
      | some call => state.withCall index { call with phase := .settled }

/-- A call waits while its next key is locked, and can fail while it waits, on an abort or at its
deadline; it takes a lock that is free; its callback can finish at any time; it settles when all of
its `finally` blocks have run. -/
def Enabled : MutexStep → Prop
  | .call _ _ => True
  | .wait index => ∃ call ∈ state.calls[index]?, call.phase = .waiting ∧
      ∃ key ∈ call.target md5 collationKey, (state.localMutexes.get? key).isSome = true
  | .acquire index _ => ∃ call ∈ state.calls[index]?, call.phase = .waiting ∧
      ∃ key ∈ call.target md5 collationKey, state.localMutexes.get? key = none
  | .fail index => ∃ call ∈ state.calls[index]?, call.phase = .waiting
  | .finish index => ∃ call ∈ state.calls[index]?, call.phase = .running
  | .release index => ∃ call ∈ state.calls[index]?, call.phase = .unwinding ∧ call.held ≠ []
  | .settle index => ∃ call ∈ state.calls[index]?, call.phase = .unwinding ∧ call.held = []

instance : DecidablePred (state.Enabled md5 collationKey)
  | .call _ _ => isTrue trivial
  | .wait index => inferInstanceAs (Decidable (∃ call ∈ state.calls[index]?, call.phase = _ ∧
      ∃ key ∈ call.target md5 collationKey, (state.localMutexes.get? key).isSome = true))
  | .acquire index _ => inferInstanceAs (Decidable (∃ call ∈ state.calls[index]?, call.phase = _ ∧
      ∃ key ∈ call.target md5 collationKey, state.localMutexes.get? key = none))
  | .fail index => inferInstanceAs (Decidable (∃ call ∈ state.calls[index]?, call.phase = _))
  | .finish index => inferInstanceAs (Decidable (∃ call ∈ state.calls[index]?, call.phase = _))
  | .release index =>
      inferInstanceAs (Decidable (∃ call ∈ state.calls[index]?, call.phase = _ ∧ call.held ≠ []))
  | .settle index =>
      inferInstanceAs (Decidable (∃ call ∈ state.calls[index]?, call.phase = _ ∧ call.held = []))

/-- All calls of local mutexes, in every interleaving. -/
def system : TransitionSystem LocalMutexes MutexStep where
  Init := (· = start)
  Step before step after :=
    before.Enabled md5 collationKey step ∧ after = before.apply md5 collationKey step

end LocalMutexes

end Calls

end ServerFoundation.Mutex
