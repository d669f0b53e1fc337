import Mathlib.Data.Finset.Max
import Mathlib.Data.String.Basic
import Mathlib.Logic.Relation
import ServerFoundation.Mutex.GlobalOrder
import ServerFoundation.Mutex.GroupSafety

/-!
# Calls do not wait for each other in a circle

The text that a call waits for compares higher than each text that it holds. Behind a
waiting call there is therefore always one that goes on, unless some keys of one call
have different texts that compare equal, or a callback awaits another call whose texts
do not all compare higher than its own. Calls that take two texts the other way round
wait for each other until one of them reaches its deadline.
-/

namespace ServerFoundation

theorem exists_reachable_last {Rank : Type*} [LinearOrder Rank] {next : ℕ → ℕ → Prop}
    (rank : ℕ → Rank) {bound : ℕ} (inside : ∀ first second, next first second → first < bound)
    (rises : ∀ first second third, next first second → next second third →
      rank first < rank second) (start : ℕ) :
    ∃ last, Relation.ReflTransGen next start last ∧ ∀ other, ¬next last other := by
  classical
  by_contra! goesOn
  let walked := (Finset.range bound).filter (Relation.ReflTransGen next start)
  have isWalked : ∀ {position}, Relation.ReflTransGen next start position → position ∈ walked := by
    intro position reached
    rcases goesOn position reached with ⟨other, further⟩
    exact Finset.mem_filter.mpr ⟨Finset.mem_range.mpr (inside position other further), reached⟩
  rcases walked.exists_max_image rank ⟨start, isWalked .refl⟩ with ⟨highest, member, isHighest⟩
  have reached := (Finset.mem_filter.mp member).2
  rcases goesOn highest reached with ⟨other, further⟩
  have otherReached := reached.tail further
  rcases goesOn other otherReached with ⟨last, beyond⟩
  exact absurd (isHighest other (isWalked otherReached))
    (rises highest other last further beyond).not_ge

end ServerFoundation

namespace ServerFoundation.Mutex

variable {md5 : String → String} {CollationKey : Type} [LinearOrder CollationKey]
  {collationKey : String → CollationKey}

section Plans

theorem orderedTexts_pairwise (keys : List MutexKey) :
    (orderedTexts md5 collationKey keys).Pairwise fun left right =>
      collationKey left ≤ collationKey right := by
  refine List.pairwise_iff_getElem.mpr fun early late isEarly isLate before => ?_
  by_contra! lower
  have listed : (orderedTexts md5 collationKey keys)[late] ∈ listedTexts md5 keys := by
    rcases List.mem_map.mp (List.getElem_mem isLate) with ⟨key, member, isText⟩
    rw [← isText]
    exact List.mem_map_of_mem
      (List.mem_of_find?_eq_some ((mem_orderMutexKeys_iff keys key).mp member))
  have ahead := precedes_of_collation_lt listed lower
  have nodup : (orderedTexts md5 collationKey keys).Nodup := orderMutexKeys_flatten_nodup keys
  rw [Precedes, nodup.idxOf_getElem, nodup.idxOf_getElem] at ahead
  omega

theorem plan_pairwise (request : Request) :
    (request.plan md5 collationKey).Pairwise fun left right =>
      collationKey left ≤ collationKey right := by
  cases request with
  | single key => exact List.pairwise_singleton _ _
  | group keys =>
      exact (orderedTexts_pairwise keys).sublist ((List.takeWhile_prefix _).map _).sublist

theorem Call.OnPlan.target_mem_plan {call : Call} (onPlan : call.OnPlan md5 collationKey)
    (waiting : call.phase = .waiting) {key : String} (target : key ∈ call.target md5 collationKey) :
    key ∈ call.request.plan md5 collationKey := by
  rw [Option.mem_def, onPlan.target_of_waiting waiting] at target
  exact List.mem_of_getElem? target

variable (md5 collationKey) in
/-- Different texts of the plan compare unequal. -/
def Request.Untied (request : Request) : Prop :=
  ∀ first ∈ request.plan md5 collationKey, ∀ second ∈ request.plan md5 collationKey,
    collationKey first = collationKey second → first = second

theorem Call.OnPlan.held_lt_target {call : Call} (onPlan : call.OnPlan md5 collationKey)
    (untied : call.request.Untied md5 collationKey) (waiting : call.phase = .waiting)
    {pair : String × ℕ} (holds : pair ∈ call.held) {key : String}
    (target : key ∈ call.target md5 collationKey) : collationKey pair.1 < collationKey key := by
  have next := onPlan.target_of_waiting waiting
  have sorted : (call.request.plan md5 collationKey).Pairwise _ := plan_pairwise call.request
  have nodup : (call.request.plan md5 collationKey).Nodup := plan_nodup call.request
  rcases onPlan.planned with ⟨_ | ⟨head, rest⟩, split⟩
  all_goals
    rw [Option.mem_def.mp target, ← split, List.getElem?_append_right (by simp)] at next
    simp only [List.length_map, Nat.sub_self] at next
    cases next
  have taken := List.mem_map_of_mem (f := Prod.fst) (onPlan.mem_acquired holds)
  have isNext : key ∈ key :: rest := List.mem_cons_self
  rw [← split, List.pairwise_append] at sorted
  rw [← split, List.nodup_append] at nodup
  refine lt_of_le_of_ne (sorted.2.2 _ taken key isNext) fun tied => nodup.2.2 _ taken key isNext ?_
  refine untied _ ?_ _ ?_ tied
  · exact split ▸ List.mem_append_left _ taken
  · exact split ▸ List.mem_append_right _ isNext

end Plans

namespace LocalMutexes

variable {state : LocalMutexes}

section Waiting

variable (md5 collationKey) (state)

/-- One call waits for a lock that the other holds. -/
def WaitsFor (waiting holding : ℕ) : Prop :=
  ∃ call ∈ state.calls[waiting]?, call.phase = .waiting ∧ ∃ key ∈ call.target md5 collationKey,
    ∃ other ∈ state.calls[holding]?, ∃ lock, (key, lock) ∈ other.held

/-- Which calls the callback of a call makes and awaits. -/
abbrev Nesting := ℕ → ℕ → Prop

variable (awaits : Nesting)

/-- A running callback awaits a call that has not settled. -/
def Awaits (outer inner : ℕ) : Prop :=
  (∃ call ∈ state.calls[outer]?, call.phase = .running) ∧ awaits outer inner ∧
    ∃ call ∈ state.calls[inner]?, call.phase ≠ .settled

/-- One call does not go on before the other does. -/
def DependsOn (first second : ℕ) : Prop :=
  state.WaitsFor md5 collationKey first second ∨ state.Awaits awaits first second

/-- A call can go on by itself: take its next lock, finish its callback when all that it awaits has
settled, release or settle. -/
def GoesOn (index : ℕ) : Prop :=
  state.Enabled md5 collationKey (.acquire index false) ∨
    (state.Enabled md5 collationKey (.finish index) ∧ ∀ inner, ¬state.Awaits awaits index inner) ∨
    state.Enabled md5 collationKey (.release index) ∨
    state.Enabled md5 collationKey (.settle index)

/-- Behind each waiting call there is one that goes on. -/
def Live : Prop :=
  ∀ index, ∀ call ∈ state.calls[index]?, call.phase = .waiting →
    ∃ other, Relation.ReflTransGen (state.DependsOn md5 collationKey awaits) index other ∧
      state.GoesOn md5 collationKey awaits other

/-- Calls come after those that await them, and ask for texts that compare higher than all texts
of the calls around them. -/
structure Rising : Prop where
  later : ∀ outer inner, awaits outer inner → outer < inner
  higher : ∀ outer inner, Relation.TransGen awaits outer inner →
    ∀ outerCall ∈ state.calls[outer]?, ∀ innerCall ∈ state.calls[inner]?,
      ∀ low ∈ outerCall.request.plan md5 collationKey,
        ∀ high ∈ innerCall.request.plan md5 collationKey, collationKey low < collationKey high

end Waiting

/-- No callback makes another call. -/
def Unnested : Nesting := fun _ _ => False

theorem rising_unnested : state.Rising md5 collationKey Unnested where
  later _ _ nested := nested.elim
  higher _ _ nested := by
    rcases Relation.TransGen.tail'_iff.mp nested with ⟨_, _, last⟩
    exact last.elim

/-- Each lock in the map is held by a call. -/
def Owned (state : LocalMutexes) : Prop :=
  ∀ key lock, state.localMutexes.get? key = some lock →
    ∃ index : ℕ, ∃ call ∈ state.calls[index]?, (key, lock) ∈ call.held

/-- A change of one call after which each lock in the map is one of this call, or was held before
and has not been given up. -/
theorem Owned.changed (owned : state.Owned) {after : LocalMutexes} {index : ℕ} {call other : Call}
    (found : state.calls[index]? = some call) (calls : after.calls = state.calls.set index other)
    (kept : ∀ key lock, after.localMutexes.get? key = some lock → (key, lock) ∈ other.held ∨
      state.localMutexes.get? key = some lock ∧
      ((key, lock) ∈ call.held → (key, lock) ∈ other.held)) :
    after.Owned := by
  intro key lock locked
  have changed : other ∈ after.calls[index]? := by
    rw [calls]
    exact getElem?_set_of_some found
  rcases kept key lock locked with holds | ⟨before, stillHeld⟩
  · exact ⟨index, other, changed, holds⟩
  · rcases owned key lock before with ⟨position, owner, isOwner, holds⟩
    by_cases same : position = index
    · subst same
      cases found.symm.trans isOwner
      exact ⟨position, other, changed, stillHeld holds⟩
    · refine ⟨position, owner, ?_, holds⟩
      rw [calls]
      exact getElem?_set_of_ne isOwner same

theorem Owned.apply (owned : state.Owned) {step : MutexStep}
    (enabled : state.Enabled md5 collationKey step) :
    (state.apply md5 collationKey step).Owned := by
  cases step with
  | call request aborted =>
      intro key lock locked
      rcases owned key lock locked with ⟨position, owner, isOwner, holds⟩
      exact ⟨position, owner, getElem?_append_of_some isOwner _, holds⟩
  | wait index | fail index | finish index | settle index =>
      rcases enabled with ⟨call, found, -⟩
      simp only [LocalMutexes.apply, Option.mem_def.mp found]
      exact owned.changed found rfl fun key lock locked => .inr ⟨locked, id⟩
  | acquire index aborted =>
      rcases enabled with ⟨call, found, -, text, target, -⟩
      simp only [LocalMutexes.apply, Option.mem_def.mp found, Option.mem_def.mp target]
      refine owned.changed found rfl fun key lock locked => ?_
      rw [OrderedMap.get?_set] at locked
      split at locked
      · rename_i same
        cases locked
        exact .inl (same ▸ List.mem_cons_self)
      · exact .inr ⟨locked, List.mem_cons_of_mem _⟩
  | release index =>
      rcases enabled with ⟨call, found, -, holdsSome⟩
      cases held : call.held with
      | nil => exact absurd held holdsSome
      | cons pair rest =>
          simp only [LocalMutexes.apply, Option.mem_def.mp found, held]
          refine owned.changed found rfl fun key lock locked => .inr ?_
          have before : state.localMutexes.get? key = some lock ∧ (key, lock) ≠ pair := by
            rw [releaseLock] at locked
            split at locked
            · rw [OrderedMap.get?_erase] at locked
              split at locked
              · cases locked
              · rename_i different
                exact ⟨locked, fun same => different (congrArg Prod.fst same)⟩
            · rename_i changed
              exact ⟨locked, fun same => changed (by rw [← same]; exact locked)⟩
          rw [held]
          exact ⟨before.1, fun holds => (List.mem_cons.mp holds).resolve_left before.2⟩

theorem owned_of_reachable (reachable : (system md5 collationKey).Reachable state) :
    state.Owned := by
  refine reachable.invariant Owned ?_ ?_
  · rintro _ rfl key lock locked
    cases locked
  · rintro before step _ - owned ⟨enabled, rfl⟩
    exact owned.apply enabled

section Chains

variable {awaits : Nesting}

variable (md5 collationKey state awaits) in
/-- A waiting call needs a lock whose holder waits, or awaits in its callbacks another call that
waits. -/
def Blocks (waiting blocked : ℕ) : Prop :=
  ∃ holder, state.WaitsFor md5 collationKey waiting holder ∧
    Relation.ReflTransGen (state.Awaits awaits) holder blocked ∧
      ∃ call ∈ state.calls[blocked]?, call.phase = .waiting

theorem dependsOn_of_awaits {first last : ℕ}
    (chain : Relation.ReflTransGen (state.Awaits awaits) first last) :
    Relation.ReflTransGen (state.DependsOn md5 collationKey awaits) first last :=
  Relation.ReflTransGen.mono (fun _ _ => Or.inr) _ _ chain

theorem dependsOn_of_blocks {first last : ℕ}
    (chain : Relation.ReflTransGen (state.Blocks md5 collationKey awaits) first last) :
    Relation.ReflTransGen (state.DependsOn md5 collationKey awaits) first last := by
  induction chain with
  | refl => exact .refl
  | tail _ blocks ih =>
      rcases blocks with ⟨holder, waits, inner, -⟩
      exact (ih.tail (.inl waits)).trans (dependsOn_of_awaits inner)

theorem Safe.target_lt (safe : state.Safe md5 collationKey)
    (rising : state.Rising md5 collationKey awaits)
    (untied : ∀ call ∈ state.calls, call.request.Untied md5 collationKey) {first second : ℕ}
    (blocks : state.Blocks md5 collationKey awaits first second) {waiter blocked : Call}
    (isWaiter : waiter ∈ state.calls[first]?) (isBlocked : blocked ∈ state.calls[second]?)
    {low high : String} (isLow : low ∈ waiter.target md5 collationKey)
    (isHigh : high ∈ blocked.target md5 collationKey) : collationKey low < collationKey high := by
  rcases blocks with ⟨position, ⟨call, found, -, key, target, holder, isHolder, lock, holds⟩, inner,
    ⟨other, isOther, waiting⟩⟩
  cases (Option.mem_def.mp found).symm.trans isWaiter
  cases (Option.mem_def.mp target).symm.trans isLow
  cases (Option.mem_def.mp isOther).symm.trans isBlocked
  have onPlan := safe.onPlan holder (List.mem_of_getElem? (Option.mem_def.mp isHolder))
  have blockedPlan := safe.onPlan blocked (List.mem_of_getElem? (Option.mem_def.mp isOther))
  rcases Relation.reflTransGen_iff_eq_or_transGen.mp inner with rfl | nested
  · cases (Option.mem_def.mp isHolder).symm.trans isOther
    exact onPlan.held_lt_target (untied _ (List.mem_of_getElem? (Option.mem_def.mp isHolder)))
      waiting holds isHigh
  · refine rising.higher position second (Relation.TransGen.mono
      (fun _ _ awaited => awaited.2.1) _ _ nested) holder isHolder blocked isOther low ?_ high
        (blockedPlan.target_mem_plan waiting isHigh)
    exact onPlan.planned.subset (List.mem_map_of_mem (f := Prod.fst) (onPlan.mem_acquired holds))

theorem Rising.goesOn (rising : state.Rising md5 collationKey awaits) {index : ℕ} {call : Call}
    (found : call ∈ state.calls[index]?) (unsettled : call.phase ≠ .settled)
    (unblocked : ∀ other, Relation.ReflTransGen (state.Awaits awaits) index other →
      ∀ blocked ∈ state.calls[other]?, blocked.phase ≠ .waiting) :
    ∃ other, Relation.ReflTransGen (state.Awaits awaits) index other ∧
      state.GoesOn md5 collationKey awaits other := by
  have inside : ∀ first second, state.Awaits awaits first second → first < state.calls.length := by
    rintro first second ⟨⟨other, isOther, -⟩, -⟩
    exact (List.getElem?_eq_some_iff.mp isOther).1
  rcases exists_reachable_last id inside
    (fun first second _ awaited _ => rising.later first second awaited.2.1) index with
    ⟨last, reached, isLast⟩
  refine ⟨last, reached, ?_⟩
  have stands : ∃ other ∈ state.calls[last]?, other.phase ≠ .settled := by
    rcases reached.cases_tail with rfl | ⟨previous, -, -, -, stands⟩
    · exact ⟨call, found, unsettled⟩
    · exact stands
  rcases stands with ⟨other, isOther, stands⟩
  cases phase : other.phase with
  | settled => exact absurd phase stands
  | waiting => exact absurd phase (unblocked last reached other isOther)
  | running => exact .inr (.inl ⟨⟨other, isOther, phase⟩, isLast⟩)
  | unwinding =>
      by_cases held : other.held = []
      · exact .inr (.inr (.inr ⟨other, isOther, phase, held⟩))
      · exact .inr (.inr (.inl ⟨other, isOther, phase, held⟩))

theorem Safe.live (safe : state.Safe md5 collationKey) (owned : state.Owned)
    (rising : state.Rising md5 collationKey awaits)
    (untied : ∀ call ∈ state.calls, call.request.Untied md5 collationKey) :
    state.Live md5 collationKey awaits := by
  intro index call found waiting
  have inside : ∀ first second, state.Blocks md5 collationKey awaits first second →
      first < state.calls.length := by
    rintro first second ⟨_, ⟨other, isOther, -⟩, -⟩
    exact (List.getElem?_eq_some_iff.mp isOther).1
  let awaited (position : ℕ) : CollationKey :=
    collationKey (((state.calls[position]?).bind (Call.target md5 collationKey)).getD "")
  have rises : ∀ first second third, state.Blocks md5 collationKey awaits first second →
      state.Blocks md5 collationKey awaits second third → awaited first < awaited second := by
    intro first second third blocks further
    have isFirst := blocks
    rcases isFirst with ⟨_, ⟨waiter, isWaiter, -, low, isLow, -⟩, -⟩
    rcases further with ⟨_, ⟨blocked, isBlocked, -, high, isHigh, -⟩, -⟩
    simp only [awaited, Option.mem_def.mp isWaiter, Option.mem_def.mp isBlocked, Option.bind_some,
      Option.mem_def.mp isLow, Option.mem_def.mp isHigh, Option.getD_some]
    exact safe.target_lt rising untied blocks isWaiter isBlocked isLow isHigh
  rcases exists_reachable_last _ inside rises index with ⟨last, reached, isLast⟩
  have stands : ∃ other ∈ state.calls[last]?, other.phase = .waiting := by
    rcases reached.cases_tail with rfl | ⟨previous, -, _, -, -, stands⟩
    · exact ⟨call, found, waiting⟩
    · exact stands
  rcases stands with ⟨other, isOther, phase⟩
  have onPlan := safe.onPlan other (List.mem_of_getElem? isOther)
  have target := onPlan.target_of_waiting phase
  have bound := onPlan.waiting phase
  rw [List.getElem?_eq_getElem bound] at target
  generalize (other.request.plan md5 collationKey)[other.acquired.length] = key at target
  cases locked : state.localMutexes.get? key with
  | none =>
      exact ⟨last, dependsOn_of_blocks reached, .inl ⟨other, isOther, phase, _, target, locked⟩⟩
  | some lock =>
      rcases owned _ lock locked with ⟨owner, ownerCall, isOwner, holds⟩
      have waits : state.WaitsFor md5 collationKey last owner :=
        ⟨other, isOther, phase, _, target, ownerCall, isOwner, lock, holds⟩
      have unsettled : ownerCall.phase ≠ .settled := by
        intro settled
        rw [(safe.onPlan ownerCall (List.mem_of_getElem? isOwner)).settled settled] at holds
        cases holds
      rcases rising.goesOn isOwner unsettled
        (fun behind inner blocked isBlocked isWaiting =>
          isLast behind ⟨owner, waits, inner, blocked, isBlocked, isWaiting⟩) with
        ⟨final, inner, goesOn⟩
      exact ⟨final, ((dependsOn_of_blocks reached).tail (.inl waits)).trans
        (dependsOn_of_awaits inner), goesOn⟩

end Chains

section Ties

variable {first second : String}

theorem target_of_tied (different : first ≠ second)
    (tied : collationKey first = collationKey second) {acquired held : List (String × ℕ)}
    {didWait : Bool} {phase : Phase} :
    (⟨.group [.primitive first, .primitive second], acquired, held, didWait, phase⟩ : Call).target
      md5 collationKey = [first, second][held.length]? := by
  have ordered : orderMutexKeys md5 collationKey [.primitive first, .primitive second] =
      [.primitive first, .primitive second] := by
    simp [orderMutexKeys, sortedKeys, flattenMutexKey, sortOn, tied, firstSeen, different.symm]
  rcases held with _ | ⟨_, _ | ⟨_, _⟩⟩ <;>
    simp [Call.target, ordered, currentKey, flattenMutexKey]

/-- Two calls that have each taken the text that the other one waits for. -/
def circle (first second : String) : LocalMutexes :=
  ⟨(OrderedMap.empty.set first 0).set second 1,
    [⟨.group [.primitive first, .primitive second], [(first, 0)], [(first, 0)], false, .waiting⟩,
      ⟨.group [.primitive second, .primitive first], [(second, 1)], [(second, 1)], false,
        .waiting⟩],
    2⟩

theorem reachable_circle (different : first ≠ second)
    (tied : collationKey first = collationKey second) :
    (system md5 collationKey).Reachable (circle first second) := by
  let steps : List MutexStep :=
    [.call (.group [.primitive first, .primitive second]) false, .acquire 0 false,
      .call (.group [.primitive second, .primitive first]) false, .acquire 1 false]
  have reaches : steps.foldl (apply md5 collationKey) start = circle first second := by
    simp [steps, apply, start, circle, Call.proceed, LocalMutexes.acquired,
      target_of_tied different tied, target_of_tied different.symm tied.symm]
  rw [← reaches]
  refine (TransitionSystem.Reachable.start rfl).follow (apply md5 collationKey)
    (Enabled md5 collationKey) ?_ ?_
  · intro before step enabled
    exact ⟨enabled, rfl⟩
  · simp [steps, TransitionSystem.Follows, Enabled, apply, start, Call.proceed,
      LocalMutexes.acquired, OrderedMap.get?_set, different.symm, target_of_tied different tied,
      target_of_tied different.symm tied.symm]

theorem not_live_circle (different : first ≠ second)
    (tied : collationKey first = collationKey second) :
    ¬(circle first second).Live md5 collationKey Unnested := by
  intro live
  rcases live 0 _ rfl rfl with ⟨other, -, goesOn⟩
  rcases other with _ | _ | other <;>
    simp [GoesOn, Enabled, circle, target_of_tied different tied, OrderedMap.get?_set, different,
      target_of_tied different.symm tied.symm] at goesOn

/-- Two callbacks with a text each, and a call within the first one for the text of the other. -/
def nestedChain (first second : String) : LocalMutexes :=
  ⟨(OrderedMap.empty.set first 0).set second 1,
    [⟨.single (.primitive first), [(first, 0)], [(first, 0)], false, .running⟩,
      ⟨.single (.primitive second), [(second, 1)], [(second, 1)], false, .running⟩,
      ⟨.single (.primitive second), [], [], false, .waiting⟩],
    2⟩

theorem reachable_nestedChain (different : first ≠ second) :
    (system md5 collationKey).Reachable (nestedChain first second) := by
  let steps : List MutexStep :=
    [.call (.single (.primitive first)) false, .acquire 0 false,
      .call (.single (.primitive second)) false, .acquire 1 false,
      .call (.single (.primitive second)) false]
  have reaches : steps.foldl (apply md5 collationKey) start = nestedChain first second := by
    simp [steps, apply, start, nestedChain, Call.proceed, Call.target, LocalMutexes.acquired,
      flattenMutexKey]
  rw [← reaches]
  refine (TransitionSystem.Reachable.start rfl).follow (apply md5 collationKey)
    (Enabled md5 collationKey) ?_ ?_
  · intro before step enabled
    exact ⟨enabled, rfl⟩
  · simp [steps, TransitionSystem.Follows, Enabled, apply, start, Call.proceed, Call.target,
      LocalMutexes.acquired, flattenMutexKey, OrderedMap.get?_set, different.symm]

/-- One more call, within the second callback and for the text of the first one. -/
def nestedCircle (first second : String) : LocalMutexes :=
  { nestedChain first second with
    calls := (nestedChain first second).calls ++
      [⟨.single (.primitive first), [], [], false, .waiting⟩] }

/-- The callbacks of the first two calls await the next two. -/
def crossed : Nesting := fun outer inner => outer < 2 ∧ inner = outer + 2

theorem reachable_nestedCircle (different : first ≠ second) :
    (system md5 collationKey).Reachable (nestedCircle first second) := by
  have called : (system md5 collationKey).Step (nestedChain first second)
      (.call (.single (.primitive first)) false) (nestedCircle first second) :=
    ⟨trivial, by simp [apply, nestedCircle, Call.proceed, Call.target, flattenMutexKey]⟩
  exact (reachable_nestedChain different).step called

theorem not_live_nestedCircle (different : first ≠ second) :
    ¬(nestedCircle first second).Live md5 collationKey crossed := by
  intro live
  rcases live 2 _ rfl rfl with ⟨other, -, acquires | ⟨finishes, alone⟩ | released | settled⟩
  · rcases other with _ | _ | _ | _ | other <;>
      simp [Enabled, nestedCircle, nestedChain, Call.target, flattenMutexKey, OrderedMap.get?_set,
        different] at acquires
  · rcases other with _ | _ | other
    · exact alone 2 ⟨⟨_, rfl, rfl⟩, ⟨by decide, rfl⟩, _, rfl, by simp⟩
    · exact alone 3 ⟨⟨_, rfl, rfl⟩, ⟨by decide, rfl⟩, _, rfl, by simp⟩
    · rcases other with _ | _ | other <;> simp [Enabled, nestedCircle, nestedChain] at finishes
  · rcases other with _ | _ | _ | _ | other <;>
      simp [Enabled, nestedCircle, nestedChain] at released
  · rcases other with _ | _ | _ | _ | other <;>
      simp [Enabled, nestedCircle, nestedChain] at settled

end Ties

variable (md5 collationKey) in
/-- Calls whose keys compare unequal where they differ, and that are nested in rising order, never
wait in a circle. Without nesting none do exactly if all different texts compare unequal; nested
calls do for any two texts. -/
theorem live_iff_injective :
    (∀ state awaits, (system md5 collationKey).Reachable state →
      state.Rising md5 collationKey awaits →
        (∀ call ∈ state.calls, call.request.Untied md5 collationKey) →
          state.Live md5 collationKey awaits) ∧
    ((∀ state, (system md5 collationKey).Reachable state →
      state.Live md5 collationKey Unnested) ↔ Function.Injective collationKey) ∧
    ∀ first second : String, first ≠ second →
      ∃ state awaits, (system md5 collationKey).Reachable state ∧
        (∀ outer inner, awaits outer inner → outer < inner) ∧
          (∀ call ∈ state.calls, call.request = .single (.primitive first) ∨
            call.request = .single (.primitive second)) ∧
            ¬state.Live md5 collationKey awaits := by
  have live : ∀ state awaits, (system md5 collationKey).Reachable state →
      state.Rising md5 collationKey awaits →
        (∀ call ∈ state.calls, call.request.Untied md5 collationKey) →
          state.Live md5 collationKey awaits :=
    fun state awaits reachable => (safe_of_reachable reachable).live (owned_of_reachable reachable)
  refine ⟨live, ⟨?_, ?_⟩, ?_⟩
  · intro always first second tied
    by_contra different
    exact not_live_circle different tied (always _ (reachable_circle different tied))
  · intro injective state reachable
    exact live state Unnested reachable rising_unnested fun call _ first _ second _ tied =>
      injective tied
  · intro first second different
    refine ⟨nestedCircle first second, crossed, reachable_nestedCircle different, ?_, ?_,
      not_live_nestedCircle different⟩
    · rintro outer inner ⟨-, rfl⟩
      omega
    · simp [nestedCircle, nestedChain]

/-- A call for `b` within the callback of a call for `a` waits for another call for `b`, which can
go on. -/
theorem live_nestedChain :
    (nestedChain "a" "b").WaitsFor id id 2 1 ∧
      (nestedChain "a" "b").Live id id fun outer inner => outer = 0 ∧ inner = 2 := by
  have awaitsOnce : ∀ outer inner, Relation.TransGen (fun outer inner => outer = 0 ∧ inner = 2)
      outer inner → outer = 0 ∧ inner = 2 := by
    intro outer inner nested
    induction nested with
    | single awaited => exact awaited
    | tail _ awaited ih => exact absurd (ih.2.symm.trans awaited.1) (by decide)
  have rising : (nestedChain "a" "b").Rising id id fun outer inner => outer = 0 ∧ inner = 2 := by
    refine ⟨fun outer inner awaited => by omega, fun outer inner nested => ?_⟩
    rcases awaitsOnce outer inner nested with ⟨rfl, rfl⟩
    intro outerCall isOuter innerCall isInner
    cases isOuter
    cases isInner
    decide +kernel
  have untied : ∀ call ∈ (nestedChain "a" "b").calls, call.request.Untied id id :=
    fun _ _ _ _ _ _ same => same
  have waits : (nestedChain "a" "b").WaitsFor id id 2 1 :=
    ⟨_, rfl, rfl, "b", rfl, _, rfl, 1, List.mem_cons_self⟩
  exact ⟨waits, (live_iff_injective id id).1 _ _ (reachable_nestedChain (by decide)) rising untied⟩

end LocalMutexes

end ServerFoundation.Mutex
