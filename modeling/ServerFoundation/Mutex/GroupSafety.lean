import ServerFoundation.Mutex.GroupKeys

/-!
# A group of mutexes is held as a whole

Every lock in the map belongs to the call that holds it, and a call acquires the texts
of its plan one after another. A callback therefore runs while its call holds the
whole plan, calls whose callbacks run have no lock in common, and a settled call has
left none behind. Whether the plan covers the keys depends on `undefined` alone: the
recursion takes it for the end of the list.
-/

namespace ServerFoundation.Mutex

variable {md5 : String → String} {CollationKey : Type} [LinearOrder CollationKey]
  {collationKey : String → CollationKey}

section Invariant

variable (md5 collationKey)

/-- A call has acquired the beginning of its plan, and holds all of it until it unwinds. -/
structure Call.OnPlan (call : Call) : Prop where
  planned : (call.acquired.map Prod.fst) <+: call.request.plan md5 collationKey
  acquiring : call.phase = .waiting ∨ call.phase = .running → call.held = call.acquired.reverse
  waiting : call.phase = .waiting →
    call.acquired.length < (call.request.plan md5 collationKey).length
  running : call.phase = .running →
    call.acquired.length = (call.request.plan md5 collationKey).length
  held : call.held.Sublist call.acquired.reverse
  settled : call.phase = .settled → call.held = []

/-- A call holds its locks in the map, and the map has no others of it. -/
structure Call.Owns (call : Call) (localMutexes : OrderedMap String ℕ) (nextLock : ℕ) : Prop where
  locked : ∀ pair ∈ call.held, localMutexes.get? pair.1 = some pair.2
  kept : ∀ pair ∈ call.acquired, localMutexes.get? pair.1 = some pair.2 → pair ∈ call.held
  issued : ∀ pair ∈ call.acquired, pair.2 < nextLock

/-- What every run keeps. -/
structure LocalMutexes.Safe (state : LocalMutexes) : Prop where
  onPlan : ∀ call ∈ state.calls, call.OnPlan md5 collationKey
  owns : ∀ call ∈ state.calls, call.Owns state.localMutexes state.nextLock
  distinct : ∀ (first second : ℕ) (call other : Call), state.calls[first]? = some call →
    state.calls[second]? = some other → first ≠ second →
      ∀ pair ∈ call.acquired, ∀ otherPair ∈ other.acquired, pair.2 ≠ otherPair.2

end Invariant

namespace Call

variable {call : Call}

section

variable (onPlan : call.OnPlan md5 collationKey)
include onPlan

theorem OnPlan.acquired_nodup : (call.acquired.map Prod.fst).Nodup :=
  onPlan.planned.sublist.nodup (plan_nodup call.request)

theorem OnPlan.held_nodup : (call.held.map Prod.fst).Nodup := by
  refine (onPlan.held.map Prod.fst).nodup ?_
  rw [List.map_reverse, List.nodup_reverse]
  exact onPlan.acquired_nodup

theorem OnPlan.mem_acquired {pair : String × ℕ} (member : pair ∈ call.held) :
    pair ∈ call.acquired :=
  List.mem_reverse.mp (onPlan.held.subset member)

theorem OnPlan.mem_held_of_running (running : call.phase = .running) {text : String} :
    text ∈ call.held.map Prod.fst ↔ text ∈ call.request.plan md5 collationKey := by
  have whole : call.acquired.map Prod.fst = call.request.plan md5 collationKey :=
    onPlan.planned.eq_of_length (by rw [List.length_map, onPlan.running running])
  rw [onPlan.acquiring (.inr running), List.map_reverse, List.mem_reverse, whole]

theorem OnPlan.target_of_waiting (waiting : call.phase = .waiting) :
    call.target md5 collationKey =
      (call.request.plan md5 collationKey)[call.acquired.length]? := by
  have length : call.held.length = call.acquired.length := by
    rw [onPlan.acquiring (.inl waiting), List.length_reverse]
  rw [target_eq (by rw [length]; exact (onPlan.waiting waiting).le), length]

end

theorem OnPlan.proceed
    (planned : (call.acquired.map Prod.fst) <+: call.request.plan md5 collationKey)
    (held : call.held = call.acquired.reverse) (aborted : Bool) :
    (call.proceed md5 collationKey aborted).OnPlan md5 collationKey := by
  have bound : call.acquired.length ≤ (call.request.plan md5 collationKey).length := by
    simpa using planned.length_le
  have length : call.held.length = call.acquired.length := by rw [held, List.length_reverse]
  have target : call.target md5 collationKey =
      (call.request.plan md5 collationKey)[call.held.length]? :=
    target_eq (by rw [length]; exact bound)
  rw [length] at target
  constructor
  case planned => exact planned
  case acquiring => exact fun _ => held
  case held => exact held ▸ List.Sublist.refl _
  case waiting =>
    intro waiting
    simp only [Call.proceed] at waiting ⊢
    split at waiting
    · cases waiting
    · split at waiting
      · rename_i more
        rw [target, isSome_getElem?] at more
        exact more
      · cases waiting
  case running =>
    intro running
    simp only [Call.proceed] at running ⊢
    split at running
    · cases running
    · split at running
      · cases running
      · rename_i done
        rw [target, isSome_getElem?] at done
        omega
  case settled =>
    intro settled
    simp only [Call.proceed] at settled
    split at settled
    · cases settled
    · split at settled <;> cases settled

theorem OnPlan.unwind (onPlan : call.OnPlan md5 collationKey) :
    ({ call with phase := .unwinding } : Call).OnPlan md5 collationKey := by
  refine ⟨onPlan.planned, ?_, ?_, ?_, onPlan.held, ?_⟩
  · rintro (impossible | impossible) <;> cases impossible
  · intro impossible
    cases impossible
  · intro impossible
    cases impossible
  · intro impossible
    cases impossible

section Owning

variable {localMutexes : OrderedMap String ℕ} {nextLock : ℕ}

theorem Owns.congr {other : Call} (owns : call.Owns localMutexes nextLock)
    (held : other.held = call.held) (acquired : other.acquired = call.acquired) :
    other.Owns localMutexes nextLock := by
  refine ⟨?_, ?_, ?_⟩
  · rw [held]
    exact owns.locked
  · rw [held, acquired]
    exact owns.kept
  · rw [acquired]
    exact owns.issued

theorem Owns.set_free (owns : call.Owns localMutexes nextLock) {key : String}
    (free : localMutexes.get? key = none) :
    call.Owns (localMutexes.set key nextLock) (nextLock + 1) := by
  refine ⟨?_, ?_, ?_⟩
  · intro pair member
    have locked := owns.locked pair member
    rw [OrderedMap.get?_set, if_neg]
    · exact locked
    · rintro rfl
      rw [free] at locked
      cases locked
  · intro pair member found
    rw [OrderedMap.get?_set] at found
    split at found
    · rw [Option.some.injEq] at found
      exact absurd found (owns.issued pair member).ne'
    · exact owns.kept pair member found
  · intro pair member
    exact (owns.issued pair member).trans (Nat.lt_succ_self _)

theorem Owns.erase (owns : call.Owns localMutexes nextLock) {key : String}
    (different : ∀ pair ∈ call.held, pair.1 ≠ key) :
    call.Owns (localMutexes.erase key) nextLock := by
  refine ⟨?_, ?_, owns.issued⟩
  · intro pair member
    rw [OrderedMap.get?_erase, if_neg (different pair member)]
    exact owns.locked pair member
  · intro pair member found
    rw [OrderedMap.get?_erase] at found
    split at found
    · cases found
    · exact owns.kept pair member found

end Owning

end Call

namespace LocalMutexes

variable {state : LocalMutexes} {index : ℕ} {call : Call}

section

variable (safe : state.Safe md5 collationKey)
include safe

theorem Safe.withCall (found : state.calls[index]? = some call) {other : Call}
    (onPlan : other.OnPlan md5 collationKey) (held : other.held = call.held)
    (acquired : other.acquired = call.acquired) :
    (state.withCall index other).Safe md5 collationKey := by
  have member := List.mem_of_getElem? found
  constructor
  case onPlan =>
    intro each eachMem
    rcases List.mem_or_eq_of_mem_set eachMem with before | rfl
    · exact safe.onPlan each before
    · exact onPlan
  case owns =>
    intro each eachMem
    rcases List.mem_or_eq_of_mem_set eachMem with before | rfl
    · exact safe.owns each before
    · exact (safe.owns call member).congr held acquired
  case distinct =>
    intro first second left right leftFound rightFound different
    rcases getElem?_set_cases leftFound with ⟨rfl, rfl⟩ | ⟨-, leftBefore⟩ <;>
      rcases getElem?_set_cases rightFound with ⟨rfl, rfl⟩ | ⟨-, rightBefore⟩
    · exact absurd rfl different
    · rw [acquired]
      exact safe.distinct first second call right found rightBefore different
    · rw [acquired]
      exact safe.distinct first second left call leftBefore found different
    · exact safe.distinct first second left right leftBefore rightBefore different

theorem Safe.begins (request : Request) (aborted : Bool) :
    (state.apply md5 collationKey (.call request aborted)).Safe md5 collationKey := by
  have onPlan : ((⟨request, [], [], false, .waiting⟩ : Call).proceed md5 collationKey
      aborted).OnPlan md5 collationKey := by
    refine Call.OnPlan.proceed ?_ rfl aborted
    exact List.nil_prefix
  constructor
  case onPlan =>
    intro each member
    rcases List.mem_append.mp member with before | new
    · exact safe.onPlan each before
    · rw [List.mem_singleton.mp new]
      exact onPlan
  case owns =>
    intro each member
    rcases List.mem_append.mp member with before | new
    · exact safe.owns each before
    · rw [List.mem_singleton.mp new]
      refine ⟨?_, ?_, ?_⟩ <;> intro pair impossible <;> cases impossible
  case distinct =>
    intro first second left right leftFound rightFound different pair pairMem other otherMem
    rcases getElem?_append_singleton_cases leftFound with leftBefore | ⟨-, rfl⟩
    · rcases getElem?_append_singleton_cases rightFound with rightBefore | ⟨-, rfl⟩
      · exact safe.distinct first second left right leftBefore rightBefore different pair pairMem
          other otherMem
      · cases otherMem
    · cases pairMem

theorem Safe.acquire (found : state.calls[index]? = some call) (waiting : call.phase = .waiting)
    {key : String} (target : call.target md5 collationKey = some key)
    (free : state.localMutexes.get? key = none) (aborted : Bool) :
    (state.apply md5 collationKey (.acquire index aborted)).Safe md5 collationKey := by
  have member := List.mem_of_getElem? found
  have onPlan := safe.onPlan call member
  have owns := safe.owns call member
  have held := onPlan.acquiring (.inl waiting)
  have next := onPlan.target_of_waiting waiting
  rw [target] at next
  have planned : ((state.acquired call key).acquired.map Prod.fst) <+:
      (state.acquired call key).request.plan md5 collationKey := by
    rcases onPlan.planned with ⟨rest, split⟩
    simp only [LocalMutexes.acquired, List.map_append, List.map_cons, List.map_nil]
    rw [← split, List.getElem?_append_right (by simp)] at next
    simp only [List.length_map, Nat.sub_self] at next
    rw [← split]
    cases rest with
    | nil => cases next
    | cons head rest =>
        cases next
        exact ⟨rest, by simp⟩
  have newHeld : (state.acquired call key).held = (state.acquired call key).acquired.reverse := by
    simp [LocalMutexes.acquired, held]
  have applied : state.apply md5 collationKey (.acquire index aborted) =
      { localMutexes := state.localMutexes.set key state.nextLock
        calls := state.calls.set index
          ((state.acquired call key).proceed md5 collationKey aborted)
        nextLock := state.nextLock + 1 } := by
    simp only [apply, found, target]
  rw [applied]
  constructor
  case onPlan =>
    intro each eachMem
    rcases List.mem_or_eq_of_mem_set eachMem with before | rfl
    · exact safe.onPlan each before
    · exact .proceed planned newHeld aborted
  case owns =>
    intro each eachMem
    rcases List.mem_or_eq_of_mem_set eachMem with before | rfl
    · exact (safe.owns each before).set_free free
    · have before := owns.set_free free
      refine ⟨?_, ?_, ?_⟩
      · intro pair pairMem
        rcases List.mem_cons.mp pairMem with rfl | older
        · rw [OrderedMap.get?_set, if_pos rfl]
        · exact before.locked pair older
      · intro pair pairMem isLocked
        rcases List.mem_append.mp pairMem with older | newer
        · exact List.mem_cons_of_mem _ (before.kept pair older isLocked)
        · rw [List.mem_singleton.mp newer]
          exact List.mem_cons_self
      · intro pair pairMem
        rcases List.mem_append.mp pairMem with older | newer
        · exact before.issued pair older
        · rw [List.mem_singleton.mp newer]
          exact Nat.lt_succ_self _
  case distinct =>
    intro first second left right leftFound rightFound different pair pairMem other otherMem
    rcases getElem?_set_cases leftFound with ⟨rfl, rfl⟩ | ⟨-, leftBefore⟩ <;>
      rcases getElem?_set_cases rightFound with ⟨rfl, rfl⟩ | ⟨-, rightBefore⟩
    · exact absurd rfl different
    · rcases List.mem_append.mp pairMem with older | newer
      · exact safe.distinct first second call right found rightBefore different pair older other
          otherMem
      · rw [List.mem_singleton.mp newer]
        exact ((safe.owns right (List.mem_of_getElem? rightBefore)).issued other otherMem).ne'
    · rcases List.mem_append.mp otherMem with older | newer
      · exact safe.distinct first second left call leftBefore found different pair pairMem other
          older
      · rw [List.mem_singleton.mp newer]
        exact ((safe.owns left (List.mem_of_getElem? leftBefore)).issued pair pairMem).ne
    · exact safe.distinct first second left right leftBefore rightBefore different pair pairMem
        other otherMem

theorem Safe.disjoint {other : ℕ} {otherCall : Call} (found : state.calls[index]? = some call)
    (otherFound : state.calls[other]? = some otherCall) (different : index ≠ other) :
    ∀ pair ∈ call.held, ∀ otherPair ∈ otherCall.held, pair.1 ≠ otherPair.1 := by
  intro pair pairMem otherPair otherMem same
  have member := List.mem_of_getElem? found
  have otherMember := List.mem_of_getElem? otherFound
  have locked := (safe.owns call member).locked pair pairMem
  have otherLocked := (safe.owns otherCall otherMember).locked otherPair otherMem
  rw [same, otherLocked, Option.some.injEq] at locked
  exact safe.distinct index other call otherCall found otherFound different pair
    ((safe.onPlan call member).mem_acquired pairMem) otherPair
    ((safe.onPlan otherCall otherMember).mem_acquired otherMem) locked.symm

theorem Safe.release (found : state.calls[index]? = some call) (unwinding : call.phase = .unwinding)
    (holds : call.held ≠ []) :
    (state.apply md5 collationKey (.release index)).Safe md5 collationKey := by
  have member := List.mem_of_getElem? found
  have onPlan := safe.onPlan call member
  have owns := safe.owns call member
  cases held : call.held with
  | nil => exact absurd held holds
  | cons pair rest =>
      rcases pair with ⟨key, lock⟩
      have locked := owns.locked (key, lock) (by rw [held]; exact List.mem_cons_self)
      have keys := onPlan.held_nodup
      rw [held, List.map_cons, List.nodup_cons] at keys
      have applied : state.apply md5 collationKey (.release index) =
          { state with
            localMutexes := state.localMutexes.erase key
            calls := state.calls.set index { call with held := rest } } := by
        simp only [apply, found, held, releaseLock, if_pos locked]
      rw [applied]
      constructor
      case onPlan =>
        intro each eachMem
        rcases List.mem_or_eq_of_mem_set eachMem with before | rfl
        · exact safe.onPlan each before
        · refine ⟨onPlan.planned, ?_, ?_, ?_, ?_, ?_⟩
          · rintro (impossible | impossible) <;> simp [unwinding] at impossible
          · intro impossible
            simp [unwinding] at impossible
          · intro impossible
            simp [unwinding] at impossible
          · have sublist := onPlan.held
            rw [held] at sublist
            exact (List.sublist_cons_self _ _).trans sublist
          · intro impossible
            simp [unwinding] at impossible
      case owns =>
        intro each eachMem
        rcases List.mem_iff_getElem?.mp eachMem with ⟨position, eachFound⟩
        rcases getElem?_set_cases eachFound with ⟨-, rfl⟩ | ⟨different, before⟩
        · refine ⟨?_, ?_, owns.issued⟩
          · intro other otherMem
            have distinct : other.1 ≠ key := by
              intro same
              exact keys.1 (List.mem_map.mpr ⟨other, otherMem, same⟩)
            rw [OrderedMap.get?_erase, if_neg distinct]
            exact owns.locked other (by rw [held]; exact List.mem_cons_of_mem _ otherMem)
          · intro other otherMem isLocked
            rw [OrderedMap.get?_erase] at isLocked
            split at isLocked
            · cases isLocked
            · rename_i distinct
              have stillHeld := owns.kept other otherMem isLocked
              rw [held] at stillHeld
              rcases List.mem_cons.mp stillHeld with rfl | inRest
              · exact absurd rfl distinct
              · exact inRest
        · refine (safe.owns each (List.mem_of_getElem? before)).erase ?_
          intro other otherMem same
          exact safe.disjoint before found different other otherMem (key, lock)
            (by rw [held]; exact List.mem_cons_self) same
      case distinct =>
        intro first second left right leftFound rightFound different
        rcases getElem?_set_cases leftFound with ⟨rfl, rfl⟩ | ⟨-, leftBefore⟩ <;>
          rcases getElem?_set_cases rightFound with ⟨rfl, rfl⟩ | ⟨-, rightBefore⟩
        · exact absurd rfl different
        · exact safe.distinct first second call right found rightBefore different
        · exact safe.distinct first second left call leftBefore found different
        · exact safe.distinct first second left right leftBefore rightBefore different

theorem Safe.apply {step : MutexStep} (enabled : state.Enabled md5 collationKey step) :
    (state.apply md5 collationKey step).Safe md5 collationKey := by
  cases step with
  | call request aborted => exact safe.begins request aborted
  | wait index =>
      rcases enabled with ⟨call, found, -⟩
      have onPlan := safe.onPlan call (List.mem_of_getElem? found)
      simp only [LocalMutexes.apply, Option.mem_def.mp found]
      exact safe.withCall found ⟨onPlan.planned, onPlan.acquiring, onPlan.waiting, onPlan.running,
        onPlan.held, onPlan.settled⟩ rfl rfl
  | acquire index aborted =>
      rcases enabled with ⟨call, found, waiting, key, target, free⟩
      exact safe.acquire found waiting target free aborted
  | fail index =>
      rcases enabled with ⟨call, found, -⟩
      simp only [LocalMutexes.apply, Option.mem_def.mp found]
      exact safe.withCall found (safe.onPlan call (List.mem_of_getElem? found)).unwind rfl rfl
  | finish index =>
      rcases enabled with ⟨call, found, -⟩
      simp only [LocalMutexes.apply, Option.mem_def.mp found]
      exact safe.withCall found (safe.onPlan call (List.mem_of_getElem? found)).unwind rfl rfl
  | release index =>
      rcases enabled with ⟨call, found, unwinding, holds⟩
      exact safe.release found unwinding holds
  | settle index =>
      rcases enabled with ⟨call, found, -, nothing⟩
      have onPlan := safe.onPlan call (List.mem_of_getElem? found)
      simp only [LocalMutexes.apply, Option.mem_def.mp found]
      refine safe.withCall found ⟨onPlan.planned, ?_, ?_, ?_, onPlan.held, fun _ => nothing⟩ rfl rfl
      · rintro (impossible | impossible) <;> cases impossible
      · intro impossible
        cases impossible
      · intro impossible
        cases impossible

end

theorem safe_of_reachable (reachable : (system md5 collationKey).Reachable state) :
    state.Safe md5 collationKey := by
  refine reachable.invariant (Safe md5 collationKey) ?_ ?_
  · rintro _ rfl
    refine ⟨?_, ?_, ?_⟩
    · intro call member
      cases member
    · intro call member
      cases member
    · intro first second call other found
      cases found
  · rintro before step _ - safe ⟨enabled, rfl⟩
    exact safe.apply enabled

section Group

variable (md5) in
/-- What a call of `withMutexes` promises: its callback runs while the call holds the locks of all
keys, each text is acquired once, no other running callback holds one of them, and nothing is left
locked when the call has settled. -/
structure GroupSafe (state : LocalMutexes) (index : ℕ) (call : Call) (keys : List MutexKey) :
    Prop where
  holds : call.phase = .running → ∀ key ∈ keys, ∃ lock,
    (flattenMutexKey md5 key, lock) ∈ call.held ∧
      state.localMutexes.get? (flattenMutexKey md5 key) = some lock
  once : (call.acquired.map Prod.fst).Nodup
  all : call.phase = .running → ∀ key ∈ keys,
    flattenMutexKey md5 key ∈ call.acquired.map Prod.fst
  exclusive : ∀ (other : ℕ) (otherCall : Call), state.calls[other]? = some otherCall →
    other ≠ index → call.phase = .running → otherCall.phase = .running →
      ∀ pair ∈ call.held, ∀ otherPair ∈ otherCall.held, pair.1 ≠ otherPair.1
  released : call.phase = .settled → ∀ pair ∈ call.acquired,
    state.localMutexes.get? pair.1 ≠ some pair.2

theorem groupSafe_of_late {keys : List MutexKey} (late : UndefinedIsLate md5 keys)
    (reachable : (system md5 collationKey).Reachable state)
    (found : state.calls[index]? = some call) (request : call.request = .group keys) :
    state.GroupSafe md5 index call keys := by
  have safe := safe_of_reachable reachable
  have member := List.mem_of_getElem? found
  have onPlan := safe.onPlan call member
  have owns := safe.owns call member
  have covered : call.phase = .running → ∀ key ∈ keys,
      flattenMutexKey md5 key ∈ call.held.map Prod.fst := by
    intro running key keyMem
    rw [onPlan.mem_held_of_running running, request]
    exact (plan_covers_iff keys).mpr late key keyMem
  constructor
  case holds =>
    intro running key keyMem
    rcases List.mem_map.mp (covered running key keyMem) with ⟨⟨text, lock⟩, pairMem, rfl⟩
    exact ⟨lock, pairMem, owns.locked _ pairMem⟩
  case once => exact onPlan.acquired_nodup
  case all =>
    intro running key keyMem
    rcases List.mem_map.mp (covered running key keyMem) with ⟨pair, pairMem, same⟩
    exact List.mem_map.mpr ⟨pair, onPlan.mem_acquired pairMem, same⟩
  case exclusive =>
    intro other otherCall otherFound different _ _
    exact safe.disjoint found otherFound (Ne.symm different)
  case released =>
    intro settled pair pairMem isLocked
    have held := owns.kept pair pairMem isLocked
    rw [onPlan.settled settled] at held
    cases held

theorem reaches_running {remaining : ℕ} (reachable : (system md5 collationKey).Reachable state)
    (alone : state.calls = [call])
    (free : ∀ key lock, state.localMutexes.get? key = some lock → key ∈ call.held.map Prod.fst)
    (acquiring : call.phase = .waiting ∨ call.phase = .running)
    (left : (call.request.plan md5 collationKey).length - call.acquired.length = remaining) :
    ∃ final finalCall, (system md5 collationKey).Reachable final ∧ final.calls = [finalCall] ∧
      finalCall.request = call.request ∧ finalCall.phase = .running := by
  induction remaining generalizing state call with
  | zero =>
      have onPlan := (safe_of_reachable reachable).onPlan call (by rw [alone]; simp)
      rcases acquiring with waiting | running
      · have more := onPlan.waiting waiting
        omega
      · exact ⟨state, call, reachable, alone, rfl, running⟩
  | succ remaining ih =>
      have onPlan := (safe_of_reachable reachable).onPlan call (by rw [alone]; simp)
      rcases acquiring with waiting | running
      · have target := onPlan.target_of_waiting waiting
        have bound := onPlan.waiting waiting
        rw [List.getElem?_eq_getElem bound] at target
        generalize (call.request.plan md5 collationKey)[call.acquired.length] = key at target
        have next := onPlan.target_of_waiting waiting
        rw [target] at next
        have unlocked : state.localMutexes.get? key = none := by
          cases locked : state.localMutexes.get? key with
          | none => rfl
          | some lock =>
              rcases List.mem_map.mp (free key lock locked) with ⟨pair, pairMem, same⟩
              have before : key ∈ call.acquired.map Prod.fst :=
                List.mem_map.mpr ⟨pair, onPlan.mem_acquired pairMem, same⟩
              rcases onPlan.planned with ⟨rest, split⟩
              have nodup : (call.request.plan md5 collationKey).Nodup := plan_nodup call.request
              rw [← split, List.getElem?_append_right (by simp)] at next
              rw [← split, List.nodup_append] at nodup
              exact absurd rfl (nodup.2.2 key before key (List.mem_of_getElem? next.symm))
        have found : state.calls[0]? = some call := by rw [alone]; rfl
        have enabled : state.Enabled md5 collationKey (.acquire 0 false) :=
          ⟨call, found, waiting, key, target, unlocked⟩
        have applied : state.apply md5 collationKey (.acquire 0 false) =
            { localMutexes := state.localMutexes.set key state.nextLock
              calls := [(state.acquired call key).proceed md5 collationKey false]
              nextLock := state.nextLock + 1 } := by
          simp only [LocalMutexes.apply, found, target]
          simp only [alone, List.set_cons_zero]
        have reached := reachable.step ⟨enabled, applied.symm⟩
        refine @ih _ ((state.acquired call key).proceed md5 collationKey false) reached rfl ?_ ?_ ?_
        · intro other lock locked
          rw [OrderedMap.get?_set] at locked
          split at locked
          · rename_i same
            exact List.mem_map.mpr ⟨(key, state.nextLock), List.mem_cons_self, same.symm⟩
          · rcases List.mem_map.mp (free other lock locked) with ⟨pair, pairMem, same⟩
            exact List.mem_map.mpr ⟨pair, List.mem_cons_of_mem _ pairMem, same⟩
        · simp only [Call.proceed, Bool.false_eq_true, if_false]
          split
          · exact .inl rfl
          · exact .inr rfl
        · simp only [Call.proceed, LocalMutexes.acquired, List.length_append, List.length_singleton]
          omega
      · exact ⟨state, call, reachable, alone, rfl, running⟩

/-- A call of `withMutexes` keeps its promise in every run exactly if `undefined` is not the first
of its keys with the text of `undefined`. -/
theorem withMutexes_safe_iff (keys : List MutexKey) :
    (∀ state, (system md5 collationKey).Reachable state → ∀ index call,
      state.calls[index]? = some call → call.request = .group keys →
        state.GroupSafe md5 index call keys) ↔ UndefinedIsLate md5 keys := by
  constructor
  · intro promise
    have initially : (system md5 collationKey).Reachable start :=
      TransitionSystem.Reachable.start rfl
    have calls : (system md5 collationKey).Step start (.call (.group keys) false)
        (start.apply md5 collationKey (.call (.group keys) false)) := ⟨trivial, rfl⟩
    have called := initially.step calls
    rcases reaches_running called rfl (by intro key lock locked; cases locked)
      (by
        simp only [Call.proceed, Bool.false_eq_true, if_false]
        split
        · exact .inl rfl
        · exact .inr rfl) rfl with ⟨state, call, reachable, alone, request, running⟩
    have found : state.calls[0]? = some call := by rw [alone]; rfl
    have promised := promise state reachable 0 call found request
    have onPlan := (safe_of_reachable reachable).onPlan call (List.mem_of_getElem? found)
    have covered : ∀ key ∈ keys,
        flattenMutexKey md5 key ∈ (Request.group keys).plan md5 collationKey := by
      intro key member
      rcases promised.holds running key member with ⟨lock, held, -⟩
      have planned := (onPlan.mem_held_of_running running).mp (List.mem_map.mpr ⟨_, held, rfl⟩)
      rwa [request] at planned
    exact (plan_covers_iff keys).mp covered
  · intro late state reachable index call found request
    exact groupSafe_of_late late reachable found request

/-- A call for `a`, `undefined` and `z`, and a call for `z` alone: both callbacks run at once. -/
def overlappingSteps : List MutexStep :=
  [.call (.group [.primitive "a", .undefined, .primitive "z"]) false, .acquire 0 false,
    .call (.single (.primitive "z")) false, .acquire 1 false]

theorem withMutexes_overlaps :
    ∃ state, (system id JsText.units).Reachable state ∧ ∃ call other,
      state.calls = [call, other] ∧
      call.request = .group [.primitive "a", .undefined, .primitive "z"] ∧
      call.phase = .running ∧ other.phase = .running ∧
      call.held = [("a", 0)] ∧ other.held = [("z", 1)] ∧
      ¬state.GroupSafe id 0 call [.primitive "a", .undefined, .primitive "z"] := by
  refine ⟨overlappingSteps.foldl (apply id JsText.units) start, ?_, _, _, rfl, rfl, rfl, rfl, rfl,
    rfl, ?_⟩
  · refine (TransitionSystem.Reachable.start rfl).follow (apply id JsText.units)
      (Enabled id JsText.units) ?_ ?_
    · intro before step enabled
      exact ⟨enabled, rfl⟩
    · decide +kernel
  · intro safe
    rcases safe.holds rfl (.primitive "z") (by simp) with ⟨lock, held, -⟩
    have onlyFirst : ("z", lock) ∈ [("a", 0)] := held
    simp at onlyFirst

end Group

end LocalMutexes

end ServerFoundation.Mutex
