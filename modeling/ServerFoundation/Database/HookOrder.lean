import Mathlib.Data.List.Induction
import Mathlib.Data.Nat.Basic
import ServerFoundation.Database.HookRuns

/-!
# The order of commit hooks

What holds of a run of hooks at any time: the executed hooks are in order, the registered ones
that have not run go behind them, and a hook that is neither registered nor executed has been
removed by a rollback.
-/

namespace ServerFoundation.Database

namespace CommitHook

variable {Weight : Type} [LinearOrder Weight]

/-- A lighter hook runs first, and of two hooks of one weight the one that was registered
first. -/
def Precedes (first second : CommitHook Weight) : Prop :=
  first.weight < second.weight ∨
    first.weight = second.weight ∧ first.registration < second.registration

theorem Precedes.weight_le {first second : CommitHook Weight} (precedes : first.Precedes second) :
    first.weight ≤ second.weight := by
  rcases precedes with lighter | ⟨same, _⟩
  · exact lighter.le
  · exact same.le

end CommitHook

namespace CommitHookQueue

variable {Weight : Type} [LinearOrder Weight]

/-- The hook that a scan has chosen goes before the others. -/
structure Chooses (executed : List ℕ) (hooks : List (CommitHook Weight))
    (next : Option (CommitHook Weight)) : Prop where
  absent : next = none → ∀ hook ∈ hooks, hook.registration ∈ executed
  chosen : ∀ hook, next = some hook → hook ∈ hooks ∧ hook.registration ∉ executed ∧
    ∀ other ∈ hooks, other.registration ∉ executed → other = hook ∨ hook.Precedes other

theorem Chooses.lighter {executed : List ℕ} {hooks : List (CommitHook Weight)}
    {next : Option (CommitHook Weight)} (chooses : Chooses executed hooks next)
    (hook : CommitHook Weight)
    (last : ∀ other ∈ hooks, other.registration < hook.registration) :
    Chooses executed (hooks ++ [hook]) (lighter executed next hook) := by
  unfold CommitHookQueue.lighter
  split_ifs with ran
  · constructor
    · intro absent other mem
      rcases List.mem_append.mp mem with old | new
      · exact chooses.absent absent other old
      · rwa [List.mem_singleton.mp new]
    · intro found isFound
      rcases chooses.chosen found isFound with ⟨mem, notRun, first⟩
      refine ⟨List.mem_append_left _ mem, notRun, fun other otherMem otherNotRun => ?_⟩
      rcases List.mem_append.mp otherMem with old | new
      · exact first other old otherNotRun
      · rw [List.mem_singleton.mp new] at otherNotRun
        exact absurd ran otherNotRun
  · cases next with
    | none =>
        refine ⟨nofun, fun found isFound => ?_⟩
        cases isFound
        refine ⟨by simp, ran, fun other otherMem otherNotRun => ?_⟩
        rcases List.mem_append.mp otherMem with old | new
        · exact absurd (chooses.absent rfl other old) otherNotRun
        · exact Or.inl (List.mem_singleton.mp new)
    | some chosen =>
        rcases chooses.chosen chosen rfl with ⟨mem, notRun, first⟩
        dsimp only
        split_ifs with isLighter
        · refine ⟨nofun, fun found isFound => ?_⟩
          cases isFound
          refine ⟨by simp, ran, fun other otherMem otherNotRun => ?_⟩
          rcases List.mem_append.mp otherMem with old | new
          · rcases first other old otherNotRun with rfl | precedes
            · exact Or.inr (Or.inl isLighter)
            · exact Or.inr (Or.inl (isLighter.trans_le precedes.weight_le))
          · exact Or.inl (List.mem_singleton.mp new)
        · refine ⟨nofun, fun found isFound => ?_⟩
          cases isFound
          refine ⟨List.mem_append_left _ mem, notRun, fun other otherMem otherNotRun => ?_⟩
          rcases List.mem_append.mp otherMem with old | new
          · exact first other old otherNotRun
          · rw [List.mem_singleton.mp new]
            rcases (not_lt.mp isLighter).lt_or_eq with heavier | same
            · exact Or.inr (Or.inl heavier)
            · exact Or.inr (Or.inr ⟨same, last chosen mem⟩)

theorem chooses_next {queue : CommitHookQueue Weight}
    (increasing : (queue.hooks.map CommitHook.registration).Pairwise (· < ·)) :
    Chooses queue.executed queue.hooks queue.next := by
  have step : ∀ hooks : List (CommitHook Weight),
      (hooks.map CommitHook.registration).Pairwise (· < ·) →
        Chooses queue.executed hooks (hooks.foldl (lighter queue.executed) none) := by
    intro hooks
    induction hooks using List.reverseRecOn with
    | nil => exact fun _ => ⟨fun _ => by simp, nofun⟩
    | append_singleton hooks hook ih =>
        intro increasing
        rw [List.map_append, List.pairwise_append] at increasing
        rw [List.foldl_append]
        apply (ih increasing.1).lighter hook
        intro other mem
        exact increasing.2.2 _ (List.mem_map_of_mem mem) _ (by simp)
  exact step queue.hooks increasing

end CommitHookQueue

namespace HookEvent

variable {Weight : Type} {events others : List (HookEvent Weight)} {event : HookEvent Weight}
  {hook : CommitHook Weight}

/-- The registrations that were accepted. -/
def addedHooks (events : List (HookEvent Weight)) : List (CommitHook Weight) :=
  events.filterMap fun event =>
    match event with
    | .added hook => some hook
    | _ => none

/-- The callbacks that ran. -/
def executedHooks (events : List (HookEvent Weight)) : List (CommitHook Weight) :=
  events.filterMap fun event =>
    match event with
    | .executed hook => some hook
    | _ => none

/-- A rollback removed the hook before its turn. -/
def RemovedFirst (events : List (HookEvent Weight)) (hook : CommitHook Weight) : Prop :=
  ∃ before after, events = before ++ .removed hook :: after ∧ .executed hook ∉ before

/-- Work is settled between two callbacks of different weights. -/
def SettlesBetween (events : List (HookEvent Weight)) : Prop :=
  ∀ before first between second after,
    events = before ++ .executed first :: (between ++ .executed second :: after) →
      first.weight ≠ second.weight → .settled ∈ between

/-- Work is settled after every callback. -/
def SettlesLast (events : List (HookEvent Weight)) : Prop :=
  ∀ before hook after, events = before ++ .executed hook :: after → .settled ∈ after

theorem addedHooks_append :
    addedHooks (events ++ others) = addedHooks events ++ addedHooks others :=
  List.filterMap_append

theorem executedHooks_append :
    executedHooks (events ++ others) = executedHooks events ++ executedHooks others :=
  List.filterMap_append

theorem mem_addedHooks : hook ∈ addedHooks events ↔ .added hook ∈ events := by
  rw [addedHooks, List.mem_filterMap]
  constructor
  · rintro ⟨event, mem, same⟩
    cases event <;> cases same
    exact mem
  · exact fun mem => ⟨_, mem, rfl⟩

theorem mem_executedHooks : hook ∈ executedHooks events ↔ .executed hook ∈ events := by
  rw [executedHooks, List.mem_filterMap]
  constructor
  · rintro ⟨event, mem, same⟩
    cases event <;> cases same
    exact mem
  · exact fun mem => ⟨_, mem, rfl⟩

theorem RemovedFirst.append (removed : RemovedFirst events hook)
    (others : List (HookEvent Weight)) :
    RemovedFirst (events ++ others) hook := by
  rcases removed with ⟨before, after, rfl, notRun⟩
  exact ⟨before, after ++ others, by simp, notRun⟩

theorem split_concat {before after : List (HookEvent Weight)} {found : HookEvent Weight}
    (split : events ++ [event] = before ++ found :: after) :
    (after = [] ∧ event = found ∧ events = before) ∨
      ∃ rest, after = rest ++ [event] ∧ events = before ++ found :: rest := by
  rcases List.eq_nil_or_concat after with rfl | ⟨rest, last, rfl⟩
  · rcases List.append_inj' split rfl with ⟨same, sameLast⟩
    exact Or.inl ⟨rfl, List.head_eq_of_cons_eq sameLast, same⟩
  · have regrouped : events ++ [event] = (before ++ found :: rest) ++ [last] := by
      rw [split, List.concat_eq_append, List.append_assoc, List.cons_append]
    rcases List.append_inj' regrouped rfl with ⟨same, sameLast⟩
    right
    refine ⟨rest, ?_, same⟩
    rw [List.concat_eq_append, List.head_eq_of_cons_eq sameLast]

theorem SettlesBetween.concat (between : SettlesBetween events)
    (settled : ∀ second, event = .executed second → ∀ before first rest,
      events = before ++ .executed first :: rest → first.weight ≠ second.weight →
        .settled ∈ rest) : SettlesBetween (events ++ [event]) := by
  intro before first rest second after split differ
  have regrouped : events ++ [event] =
      (before ++ .executed first :: rest) ++ .executed second :: after := by
    rw [split, List.append_assoc, List.cons_append]
  rcases split_concat regrouped with ⟨_, same, old⟩ | ⟨later, _, old⟩
  · exact settled second same before first rest old differ
  · apply between before first rest second later _ differ
    rw [old, List.append_assoc, List.cons_append]

theorem SettlesBetween.append (between : SettlesBetween events)
    (quiet : ∀ hook, .executed hook ∉ others) : SettlesBetween (events ++ others) := by
  induction others using List.reverseRecOn with
  | nil => rwa [List.append_nil]
  | append_singleton others event ih =>
      rw [← List.append_assoc]
      apply (ih fun hook mem => quiet hook (List.mem_append_left _ mem)).concat
      rintro second rfl
      exact absurd (List.mem_append_right _ (List.mem_singleton_self _)) (quiet second)

theorem SettlesLast.append (last : SettlesLast events) (quiet : ∀ hook, .executed hook ∉ others) :
    SettlesLast (events ++ others) := by
  induction others using List.reverseRecOn with
  | nil => rwa [List.append_nil]
  | append_singleton others event ih =>
      intro before hook after split
      rw [← List.append_assoc] at split
      rcases split_concat split with ⟨_, rfl, _⟩ | ⟨rest, rfl, old⟩
      · exact absurd (List.mem_append_right _ (List.mem_singleton_self _)) (quiet hook)
      · apply List.mem_append_left
        exact ih (fun hook mem => quiet hook (List.mem_append_left _ mem)) before hook rest old

theorem settled_of_split {before rest : List (HookEvent Weight)}
    (split : events ++ [.settled] = before ++ .executed hook :: rest) : .settled ∈ rest := by
  rcases split_concat split with ⟨_, same, _⟩ | ⟨_, rfl, _⟩
  · cases same
  · exact List.mem_append_right _ (List.mem_singleton_self _)

end HookEvent

namespace HookRun

open HookEvent

variable {Weight : Type} [LinearOrder Weight] {run : HookRun Weight} {hook : CommitHook Weight}
  {next : HookRun Weight}

/-- What every run keeps. -/
structure Sound (run : HookRun Weight) : Prop where
  numbered : (addedHooks run.events).map CommitHook.registration =
    List.range run.queue.registrations
  registered : run.queue.hooks.Sublist (addedHooks run.events)
  accepted : executedHooks run.events ⊆ addedHooks run.events
  executed : ∀ registration, registration ∈ run.queue.executed ↔
    registration ∈ (executedHooks run.events).map CommitHook.registration
  ordered : (executedHooks run.events).Pairwise CommitHook.Precedes
  later : ∀ hook ∈ run.queue.hooks, hook.registration ∉ run.queue.executed →
    ∀ earlier ∈ executedHooks run.events, earlier.Precedes hook
  current : run.queue.currentWeight = (executedHooks run.events).getLast?.map CommitHook.weight
  kept : ∀ hook ∈ addedHooks run.events, hook ∈ run.queue.hooks ∨
    hook ∈ executedHooks run.events ∨ RemovedFirst run.events hook
  finished : run.queue.state = .finished → run.waitsFor = none ∧
    ∀ hook ∈ run.queue.hooks, hook.registration ∈ run.queue.executed
  between : run.settles = true → SettlesBetween run.events
  last : run.settles = true → run.queue.state = .finished → SettlesLast run.events

theorem sound_new (settles : Bool) : (new settles : HookRun Weight).Sound where
  numbered := rfl
  registered := List.Sublist.refl _
  accepted := List.Subset.refl _
  executed _ := Iff.rfl
  ordered := List.Pairwise.nil
  later := by simp [new, CommitHookQueue.new]
  current := rfl
  kept := by simp [new, addedHooks]
  finished := by simp [new, CommitHookQueue.new]
  between _ before first between second after split := by simp [new] at split
  last _ := by simp [new, CommitHookQueue.new]

section

variable (sound : run.Sound)
include sound

theorem Sound.increasing : (run.queue.hooks.map CommitHook.registration).Pairwise (· < ·) := by
  have sublist := sound.registered.map CommitHook.registration
  rw [sound.numbered] at sublist
  exact List.pairwise_lt_range.sublist sublist

theorem Sound.eq_of_registration {other : CommitHook Weight} (mem : hook ∈ addedHooks run.events)
    (otherMem : other ∈ addedHooks run.events) (same : hook.registration = other.registration) :
    hook = other := by
  have nodup : ((addedHooks run.events).map CommitHook.registration).Nodup := by
    rw [sound.numbered]
    exact List.nodup_range
  exact List.inj_on_of_nodup_map nodup mem otherMem same

theorem Sound.registration_lt (mem : hook ∈ addedHooks run.events) :
    hook.registration < run.queue.registrations := by
  have numbered := List.mem_map_of_mem (f := CommitHook.registration) mem
  rw [sound.numbered] at numbered
  exact List.mem_range.mp numbered

theorem Sound.weight_le_current (ran : hook ∈ executedHooks run.events) :
    ∃ before last, executedHooks run.events = before ++ [last] ∧
      run.queue.currentWeight = some last.weight ∧ hook.weight ≤ last.weight := by
  rcases List.eq_nil_or_concat (executedHooks run.events) with none | ⟨before, last, split⟩
  · rw [none] at ran
    cases ran
  · rw [List.concat_eq_append] at split
    refine ⟨before, last, split, ?_, ?_⟩
    · rw [sound.current, split, List.getLast?_concat]
      rfl
    · have ordered := sound.ordered
      rw [split] at ran ordered
      rcases List.mem_append.mp ran with earlier | isLast
      · exact ((List.pairwise_append.mp ordered).2.2 hook earlier last (by simp)).weight_le
      · rw [List.mem_singleton.mp isLast]

theorem Sound.wait {state : HookState} (goesOn : state ≠ .finished) (waitsFor : Option HookWait) :
    Sound { run with queue := { run.queue with state }, waitsFor } :=
  { sound with
    finished := fun ended => absurd ended goesOn
    last := fun _ ended => absurd ended goesOn }

theorem Sound.append {others : List (HookEvent Weight)} (noneAdded : addedHooks others = [])
    (noneExecuted : executedHooks others = []) :
    Sound { run with events := run.events ++ others } := by
  have sameAdded : addedHooks (run.events ++ others) = addedHooks run.events := by
    rw [addedHooks_append, noneAdded, List.append_nil]
  have sameExecuted : executedHooks (run.events ++ others) = executedHooks run.events := by
    rw [executedHooks_append, noneExecuted, List.append_nil]
  have quiet : ∀ hook, .executed hook ∉ others := by
    intro hook mem
    rw [← mem_executedHooks, noneExecuted] at mem
    cases mem
  constructor
  all_goals dsimp only
  all_goals try rw [sameAdded]
  all_goals try rw [sameExecuted]
  · exact sound.numbered
  · exact sound.registered
  · exact sound.accepted
  · exact sound.executed
  · exact sound.ordered
  · exact sound.later
  · exact sound.current
  · intro hook mem
    rcases sound.kept hook mem with registered | ran | removed
    · exact Or.inl registered
    · exact Or.inr (Or.inl ran)
    · exact Or.inr (Or.inr (removed.append others))
  · exact sound.finished
  · exact fun settles => (sound.between settles).append quiet
  · exact fun settles ended => (sound.last settles ended).append quiet

theorem Sound.restore {hooks : List (CommitHook Weight)} (sublist : hooks.Sublist run.queue.hooks) :
    (run.restore hooks).Sound := by
  have noneAdded : ∀ removed : List (CommitHook Weight),
      addedHooks (removed.map HookEvent.removed) = [] := by
    intro removed
    simp [addedHooks]
  have noneExecuted : ∀ removed : List (CommitHook Weight),
      executedHooks (removed.map HookEvent.removed) = [] := by
    intro removed
    simp [executedHooks]
  have appended := sound.append (noneAdded (run.queue.hooks.filter fun hook =>
    hook.registration ∉ hooks.map CommitHook.registration)) (noneExecuted _)
  refine { appended with
    registered := sublist.trans appended.registered
    later := fun hook mem => appended.later hook (sublist.subset mem)
    kept := ?_
    finished := fun ended => ⟨(appended.finished ended).1, fun hook mem =>
      (appended.finished ended).2 hook (sublist.subset mem)⟩ }
  intro hook mem
  rcases appended.kept hook mem with registered | others
  · by_cases stays : hook.registration ∈ hooks.map CommitHook.registration
    · rcases List.mem_map.mp stays with ⟨found, isFound, same⟩
      have isHook := appended.eq_of_registration (appended.registered.subset
        (sublist.subset isFound)) mem same
      exact Or.inl (isHook ▸ isFound)
    · right
      by_cases ran : hook ∈ executedHooks run.events
      · left
        rw [HookRun.restore, executedHooks_append]
        exact List.mem_append_left _ ran
      · have taken : hook ∈ run.queue.hooks.filter fun hook =>
            hook.registration ∉ hooks.map CommitHook.registration :=
          List.mem_filter.mpr ⟨registered, by simpa using stays⟩
        rcases List.append_of_mem taken with ⟨before, after, split⟩
        refine Or.inr ⟨run.events ++ before.map .removed, after.map .removed, ?_, ?_⟩
        · rw [HookRun.restore, split]
          simp
        · rw [← mem_executedHooks, executedHooks_append, noneExecuted, List.append_nil]
          exact ran
  · exact Or.inr others

theorem Sound.add {weight : Weight} (taken : run.add weight = some next) : next.Sound := by
  simp only [HookRun.add, CommitHookQueue.add, Option.map_eq_some_iff] at taken
  rcases taken with ⟨queue, isQueue, rfl⟩
  split_ifs at isQueue with ended below
  cases isQueue
  have added : addedHooks (run.events ++ [.added ⟨run.queue.registrations, weight⟩]) =
      addedHooks run.events ++ [⟨run.queue.registrations, weight⟩] := addedHooks_append
  have executed : executedHooks (run.events ++ [.added ⟨run.queue.registrations, weight⟩]) =
      executedHooks run.events := by
    rw [executedHooks_append]
    exact List.append_nil _
  have quiet : ∀ hook, .executed hook ∉ [HookEvent.added ⟨run.queue.registrations, weight⟩] := by
    simp
  -- the weight is not below that of the last callback, which is the greatest of those that ran
  have behind : ∀ earlier ∈ executedHooks run.events,
      earlier.Precedes ⟨run.queue.registrations, weight⟩ := by
    intro earlier mem
    have older := sound.registration_lt (sound.accepted mem)
    have weights : earlier.weight ≤ weight := by
      rcases sound.weight_le_current mem with ⟨_, last, _, current, lighter⟩
      simp only [CommitHookQueue.below, current, decide_eq_true_eq] at below
      exact lighter.trans (not_lt.mp below)
    rcases weights.lt_or_eq with lighter | same
    · exact Or.inl lighter
    · exact Or.inr ⟨same, older⟩
  constructor
  all_goals dsimp only
  all_goals try rw [added]
  all_goals try rw [executed]
  · rw [List.map_append, sound.numbered, List.range_succ]
    rfl
  · exact sound.registered.append (List.Sublist.refl _)
  · exact fun hook mem => List.mem_append_left _ (sound.accepted mem)
  · exact sound.executed
  · exact sound.ordered
  · intro hook mem notRun
    rcases List.mem_append.mp mem with old | new
    · exact sound.later hook old notRun
    · rw [List.mem_singleton.mp new]
      exact behind
  · exact sound.current
  · intro hook mem
    rcases List.mem_append.mp mem with old | new
    · rcases sound.kept hook old with registered | ran | removed
      · exact Or.inl (List.mem_append_left _ registered)
      · exact Or.inr (Or.inl ran)
      · exact Or.inr (Or.inr (removed.append _))
    · exact Or.inl (List.mem_append_right _ new)
  · exact fun nowEnded => absurd nowEnded ended
  · exact fun settles => (sound.between settles).append quiet
  · exact fun _ nowEnded => absurd nowEnded ended

theorem Sound.settled_within (settles : run.settles = true) {before rest : List (HookEvent Weight)}
    {earlier : CommitHook Weight} (split : run.events = before ++ .executed earlier :: rest)
    (differ : ∀ last : CommitHook Weight, run.queue.currentWeight = some last.weight →
      last ∈ executedHooks run.events → earlier.weight ≠ last.weight) : .settled ∈ rest := by
  have ran : earlier ∈ executedHooks run.events := by
    rw [mem_executedHooks, split]
    simp
  rcases sound.weight_le_current ran with ⟨others, last, all, current, _⟩
  have different := differ last current (by simp [all])
  have executed : executedHooks before ++ earlier :: executedHooks rest = others ++ [last] := by
    rw [← all, split, executedHooks_append]
    rfl
  rcases List.eq_nil_or_concat (executedHooks rest) with none | ⟨front, final, isFinal⟩
  · rw [none] at executed
    have same := (List.append_inj' executed rfl).2
    exact absurd (congrArg CommitHook.weight (List.head_eq_of_cons_eq same)) different
  · rw [List.concat_eq_append] at isFinal
    rw [isFinal, ← List.cons_append, ← List.append_assoc] at executed
    have same := List.head_eq_of_cons_eq (List.append_inj' executed rfl).2
    have within : .executed last ∈ rest := by
      rw [← mem_executedHooks, isFinal, same]
      simp
    rcases List.append_of_mem within with ⟨between, after, rfl⟩
    exact List.mem_append_left _ (sound.between settles before earlier between last after split
      different)

theorem Sound.proceed (goesOn : run.queue.state ≠ .finished)
    (settled : run.settles = true → run.endsWeight = true →
      ∃ before, run.events = before ++ [.settled]) : run.proceed.Sound := by
  have chooses := CommitHookQueue.chooses_next sound.increasing
  unfold HookRun.proceed
  cases isNext : run.queue.next with
  | none =>
      refine { sound with
        finished := fun _ => ⟨rfl, chooses.absent isNext⟩
        last := fun settles _ => ?_ }
      rcases settled settles (by rw [endsWeight, isNext]) with ⟨before, split⟩
      intro earlier hook after found
      change run.events = _ at found
      rw [split] at found
      exact settled_of_split found
  | some next =>
      rcases chooses.chosen next isNext with ⟨registered, notRun, first⟩
      have added : addedHooks (run.events ++ [.executed next]) = addedHooks run.events := by
        rw [addedHooks_append]
        exact List.append_nil _
      have executed : executedHooks (run.events ++ [.executed next]) =
          executedHooks run.events ++ [next] := executedHooks_append
      have behind := sound.later next registered notRun
      constructor
      all_goals dsimp only [CommitHookQueue.start]
      all_goals try rw [added]
      all_goals try rw [executed]
      · exact sound.numbered
      · exact sound.registered
      · intro hook mem
        rcases List.mem_append.mp mem with old | new
        · exact sound.accepted old
        · rw [List.mem_singleton.mp new]
          exact sound.registered.subset registered
      · intro registration
        rw [List.mem_cons, sound.executed, List.map_append, List.mem_append]
        simp [or_comm]
      · rw [List.pairwise_append]
        refine ⟨sound.ordered, List.pairwise_singleton _ _, fun earlier mem last isLast => ?_⟩
        rw [List.mem_singleton.mp isLast]
        exact behind earlier mem
      · intro hook mem stillNotRun earlier ran
        rw [List.mem_cons, not_or] at stillNotRun
        rcases List.mem_append.mp ran with old | new
        · exact sound.later hook mem stillNotRun.2 earlier old
        · rw [List.mem_singleton.mp new]
          rcases first hook mem stillNotRun.2 with rfl | precedes
          · exact absurd rfl stillNotRun.1
          · exact precedes
      · rw [List.getLast?_concat]
        rfl
      · intro hook mem
        rcases sound.kept hook mem with stays | ran | removed
        · exact Or.inl stays
        · exact Or.inr (Or.inl (List.mem_append_left _ ran))
        · exact Or.inr (Or.inr (removed.append _))
      · exact fun ended => absurd ended goesOn
      · intro settles
        apply (sound.between settles).concat
        intro second same before earlier rest split differ
        cases same
        cases ends : run.endsWeight with
        | true =>
            rcases settled settles ends with ⟨before, justSettled⟩
            rw [justSettled] at split
            exact settled_of_split split
        | false =>
            apply sound.settled_within settles split
            intro last current lastRan
            rw [endsWeight, isNext] at ends
            simp only [CommitHookQueue.settlesBefore, current, decide_eq_false_iff_not] at ends
            rwa [le_antisymm (behind last lastRan).weight_le (not_lt.mp ends)]
      · exact fun _ ended => absurd ended goesOn

theorem Sound.turn (goesOn : run.queue.state ≠ .finished) : run.turn.Sound := by
  unfold HookRun.turn
  split_ifs with waits
  · exact sound.wait goesOn _
  · exact sound.proceed goesOn fun settles ends => absurd ⟨settles, ends⟩ waits

theorem Sound.goesOn {wait : HookWait} (waits : run.waitsFor = some wait) :
    run.queue.state ≠ .finished := by
  intro ended
  rw [(sound.finished ended).1] at waits
  cases waits

theorem Sound.begin (taken : run.begin = some next) : next.Sound := by
  simp only [HookRun.begin, Option.ite_none_right_eq_some, Option.some.injEq] at taken
  rcases taken with ⟨_, rfl⟩
  have running : HookState.running ≠ .finished := by decide
  exact (sound.wait running run.waitsFor).turn running

theorem Sound.settle (taken : run.settle = some next) : next.Sound := by
  simp only [HookRun.settle, Option.ite_none_right_eq_some, Option.some.injEq] at taken
  rcases taken with ⟨waits, rfl⟩
  exact (sound.append rfl rfl).proceed (sound.goesOn waits) fun _ _ => ⟨run.events, rfl⟩

theorem Sound.callbackReturns (taken : run.callbackReturns = some next) : next.Sound := by
  simp only [HookRun.callbackReturns, Option.ite_none_right_eq_some, Option.some.injEq] at taken
  rcases taken with ⟨waits, rfl⟩
  exact sound.turn (sound.goesOn waits)

end

theorem keeps_proceed (run : HookRun Weight) :
    run.queue.hooks.Sublist run.proceed.queue.hooks ∧ run.proceed.settles = run.settles := by
  unfold HookRun.proceed
  split <;> exact ⟨List.Sublist.refl _, rfl⟩

theorem keeps_turn (run : HookRun Weight) :
    run.queue.hooks.Sublist run.turn.queue.hooks ∧ run.turn.settles = run.settles := by
  unfold HookRun.turn
  split_ifs
  · exact ⟨List.Sublist.refl _, rfl⟩
  · exact keeps_proceed run

theorem keeps_add {weight : Weight} (taken : run.add weight = some next) :
    run.queue.hooks.Sublist next.queue.hooks ∧ next.settles = run.settles := by
  simp only [HookRun.add, CommitHookQueue.add, Option.map_eq_some_iff] at taken
  rcases taken with ⟨queue, isQueue, rfl⟩
  split_ifs at isQueue
  cases isQueue
  exact ⟨List.sublist_append_left _ _, rfl⟩

theorem keeps_begin (taken : run.begin = some next) :
    run.queue.hooks.Sublist next.queue.hooks ∧ next.settles = run.settles := by
  simp only [HookRun.begin, Option.ite_none_right_eq_some, Option.some.injEq] at taken
  rw [← taken.2]
  exact keeps_turn { run with queue := { run.queue with state := .running } }

theorem keeps_settle (taken : run.settle = some next) :
    run.queue.hooks.Sublist next.queue.hooks ∧ next.settles = run.settles := by
  simp only [HookRun.settle, Option.ite_none_right_eq_some, Option.some.injEq] at taken
  rw [← taken.2]
  exact keeps_proceed { run with events := run.events ++ [.settled] }

theorem keeps_callbackReturns (taken : run.callbackReturns = some next) :
    run.queue.hooks.Sublist next.queue.hooks ∧ next.settles = run.settles := by
  simp only [HookRun.callbackReturns, Option.ite_none_right_eq_some, Option.some.injEq] at taken
  rw [← taken.2]
  exact keeps_turn run

theorem Sound.executed_nodup (sound : run.Sound) :
    ((executedHooks run.events).map CommitHook.registration).Nodup := by
  have nodup : (executedHooks run.events).Nodup := by
    apply sound.ordered.imp
    rintro first _ (lighter | ⟨_, earlier⟩) rfl
    · exact lt_irrefl _ lighter
    · exact Nat.lt_irrefl _ earlier
  apply nodup.map_on
  intro first firstRan second secondRan same
  exact sound.eq_of_registration (sound.accepted firstRan) (sound.accepted secondRan) same

theorem Sound.executed_once (sound : run.Sound) (ended : run.queue.state = .finished)
    (added : .added hook ∈ run.events) (stayed : ¬ RemovedFirst run.events hook) :
    (executedHooks run.events).count hook = 1 := by
  apply List.count_eq_one_of_mem (List.Nodup.of_map _ sound.executed_nodup)
  rw [← mem_addedHooks] at added
  rcases sound.kept hook added with registered | ran | removed
  · have executed := (sound.finished ended).2 hook registered
    rw [sound.executed] at executed
    rcases List.mem_map.mp executed with ⟨found, ran, same⟩
    rwa [← sound.eq_of_registration (sound.accepted ran) added same]
  · exact ran
  · exact absurd removed stayed

end HookRun

namespace HookSession

variable {Weight : Type} [LinearOrder Weight] {session next : HookSession Weight}

/-- Every savepoint keeps a part of what is registered, and of what the later ones keep. -/
structure Sound (session : HookSession Weight) : Prop where
  runs : ∀ phase, (session.runs phase).Sound
  settles : ∀ phase, (session.runs phase).settles = decide (phase = .preCommit)
  saved : ∀ name saved, session.savepointCheckpoints.get? name = some saved →
    saved.sequence < session.nextSavepointSequence ∧
      ∀ phase, (saved.hooks phase).Sublist (session.runs phase).queue.hooks
  nested : ∀ first second earlier later,
    session.savepointCheckpoints.get? first = some earlier →
    session.savepointCheckpoints.get? second = some later → earlier.sequence ≤ later.sequence →
      ∀ phase, (earlier.hooks phase).Sublist (later.hooks phase)

theorem Sound.change (sound : session.Sound) {phase : HookPhase} {run : HookRun Weight}
    (isSound : run.Sound) (settles : run.settles = (session.runs phase).settles)
    (grows : (session.runs phase).queue.hooks.Sublist run.queue.hooks) :
    Sound { session with runs := Function.update session.runs phase run } where
  runs other := by
    by_cases same : other = phase
    · subst same
      simpa using isSound
    · simpa [same] using sound.runs other
  settles other := by
    by_cases same : other = phase
    · subst same
      simpa using settles.trans (sound.settles other)
    · simpa [same] using sound.settles other
  saved name saved found := by
    refine ⟨(sound.saved name saved found).1, fun other => ?_⟩
    have within := (sound.saved name saved found).2 other
    by_cases same : other = phase
    · subst same
      simpa using within.trans grows
    · simpa [same] using within
  nested := sound.nested

theorem Sound.savepoint (sound : session.Sound) (name : String) :
    (session.savepoint name).Sound := by
  have cases_of_get {other : String} {saved : SavedHooks Weight}
      (found : (session.savepoint name).savepointCheckpoints.get? other = some saved) :
      (session.nextSavepointSequence = saved.sequence ∧
        ∀ phase, saved.hooks phase = (session.runs phase).queue.hooks) ∨
      session.savepointCheckpoints.get? other = some saved := by
    simp only [HookSession.savepoint, OrderedMap.get?_set] at found
    split_ifs at found
    · cases found
      exact Or.inl ⟨rfl, fun _ => rfl⟩
    · exact Or.inr found
  refine ⟨sound.runs, sound.settles, ?_, ?_⟩
  · intro other saved found
    rcases cases_of_get found with ⟨sequence, hooks⟩ | old
    · refine ⟨by rw [← sequence]; exact Nat.lt_succ_self _, fun phase => ?_⟩
      rw [hooks]
      exact List.Sublist.refl _
    · exact ⟨Nat.lt_succ_of_lt (sound.saved other saved old).1, (sound.saved other saved old).2⟩
  · intro first second earlier later isFirst isSecond before phase
    rcases cases_of_get isFirst with ⟨firstSequence, firstHooks⟩ | oldFirst <;>
      rcases cases_of_get isSecond with ⟨secondSequence, secondHooks⟩ | oldSecond
    · rw [firstHooks, secondHooks]
    · have older := (sound.saved second later oldSecond).1
      omega
    · rw [secondHooks]
      exact (sound.saved first earlier oldFirst).2 phase
    · exact sound.nested first second earlier later oldFirst oldSecond before phase

theorem Sound.rollbackToSavepoint (sound : session.Sound) {name : String}
    (taken : session.rollbackToSavepoint name = some next) : next.Sound := by
  rcases Option.map_eq_some_iff.mp taken with ⟨checkpoint, isCheckpoint, rfl⟩
  have kept {other : String} {saved : SavedHooks Weight}
      (found : (session.savepointCheckpoints.filter fun candidate =>
        candidate.sequence ≤ checkpoint.sequence).get? other = some saved) :
      session.savepointCheckpoints.get? other = some saved ∧
        saved.sequence ≤ checkpoint.sequence := by
    rw [OrderedMap.get?_filter] at found
    simpa [Option.filter_eq_some_iff] using found
  refine ⟨?_, sound.settles, ?_, ?_⟩
  · exact fun phase => (sound.runs phase).restore ((sound.saved name _ isCheckpoint).2 phase)
  · intro other saved found
    rcases kept found with ⟨old, before⟩
    exact ⟨(sound.saved other saved old).1,
      sound.nested other name saved checkpoint old isCheckpoint before⟩
  · intro first second earlier later isFirst isSecond
    exact sound.nested first second earlier later (kept isFirst).1 (kept isSecond).1

theorem Sound.call (sound : session.Sound) {call : HookCall Weight}
    (taken : session.call call = some next) : next.Sound := by
  cases call with
  | addHook phase weight =>
      rcases Option.map_eq_some_iff.mp taken with ⟨run, isRun, rfl⟩
      have keeps := HookRun.keeps_add isRun
      exact sound.change ((sound.runs phase).add isRun) keeps.2 keeps.1
  | savepoint name =>
      cases taken
      exact sound.savepoint name
  | rollbackToSavepoint name => exact sound.rollbackToSavepoint taken
  | begin phase =>
      rcases Option.map_eq_some_iff.mp taken with ⟨run, isRun, rfl⟩
      have keeps := HookRun.keeps_begin isRun
      exact sound.change ((sound.runs phase).begin isRun) keeps.2 keeps.1
  | settle phase =>
      rcases Option.map_eq_some_iff.mp taken with ⟨run, isRun, rfl⟩
      have keeps := HookRun.keeps_settle isRun
      exact sound.change ((sound.runs phase).settle isRun) keeps.2 keeps.1
  | callbackReturns phase =>
      rcases Option.map_eq_some_iff.mp taken with ⟨run, isRun, rfl⟩
      have keeps := HookRun.keeps_callbackReturns isRun
      exact sound.change ((sound.runs phase).callbackReturns isRun) keeps.2 keeps.1

theorem sound_of_reachable (reachable : (system Weight).Reachable session) : session.Sound := by
  apply TransitionSystem.Reachable.invariant Sound _ _ reachable
  · rintro _ rfl
    exact ⟨fun phase => HookRun.sound_new _, fun _ => rfl, nofun, nofun⟩
  · exact fun before call after _ sound taken => sound.call taken

open HookEvent

/-- Callbacks run once, by weight and registration, work is settled between two weights, and nothing
that was accepted is left out. -/
theorem hooks_run_in_order (reachable : (system Weight).Reachable session) (phase : HookPhase) :
    (executedHooks (session.runs phase).events).Pairwise CommitHook.Precedes ∧
      ((executedHooks (session.runs phase).events).map CommitHook.registration).Nodup ∧
      ((session.runs phase).queue.state = .finished →
        ∀ hook, .added hook ∈ (session.runs phase).events →
          ¬ RemovedFirst (session.runs phase).events hook →
            (executedHooks (session.runs phase).events).count hook = 1) ∧
      (phase = .preCommit → SettlesBetween (session.runs phase).events ∧
        ((session.runs phase).queue.state = .finished →
          SettlesLast (session.runs phase).events)) := by
  have isSound := (sound_of_reachable reachable).runs phase
  refine ⟨isSound.ordered, isSound.executed_nodup,
    fun ended hook => isSound.executed_once ended, fun isPreCommit => ?_⟩
  have settles : (session.runs phase).settles = true := by
    rw [(sound_of_reachable reachable).settles, isPreCommit]
    rfl
  exact ⟨isSound.between settles, isSound.last settles⟩

theorem reachable_of_calls {calls : List (HookCall Weight)}
    (taken : calls.foldlM HookSession.call new = some session) :
    (system Weight).Reachable session := by
  have step : ∀ (calls : List (HookCall Weight)) {before : HookSession Weight},
      (system Weight).Reachable before → calls.foldlM HookSession.call before = some session →
        (system Weight).Reachable session := by
    intro calls
    induction calls with
    | nil =>
        intro before reached same
        cases same
        exact reached
    | cons call calls ih =>
        intro before reached taken
        rw [List.foldlM_cons] at taken
        rcases Option.bind_eq_some_iff.mp taken with ⟨between, first, rest⟩
        exact ih (reached.step first) rest
  exact step calls (TransitionSystem.Reachable.start rfl) taken

/-- A rollback inside a callback brings back the hook that is running, and drops another. -/
def rollbackInCallback : List (HookCall ℕ) :=
  [.addHook .preCommit 3, .addHook .preCommit 0, .savepoint "before", .begin .preCommit,
    .addHook .preCommit 5, .rollbackToSavepoint "before", .callbackReturns .preCommit,
    .settle .preCommit, .callbackReturns .preCommit, .settle .preCommit]

theorem hooks_run_in_order_rollback : ∃ session,
    rollbackInCallback.foldlM HookSession.call new = some session ∧
      SettlesLast (session.runs .preCommit).events := by
  have possible : (rollbackInCallback.foldlM HookSession.call new).map
      (fun session => (session.runs .preCommit).queue.state) = some .finished := by
    decide +kernel
  rcases Option.map_eq_some_iff.mp possible with ⟨session, taken, ended⟩
  have inOrder := hooks_run_in_order (reachable_of_calls taken) .preCommit
  exact ⟨session, taken, (inOrder.2.2.2 rfl).2 ended⟩

end HookSession

end ServerFoundation.Database
