import ServerFoundation.Di.Resolution

/-!
# Safety of resolution

A call of `resolve` ends, a request for a token that is being resolved makes it fail as a
cycle, and nothing that is request-scoped or comes from a request context gets into a
singleton. Each call of `resolve` is described by what it does to the caches; the
description is kept by a sequence of calls and by the instantiation of a provider.
-/

namespace ServerFoundation.Di

/-- A place in a cache. -/
inductive Slot (Token : Type) where
  | singleton (token : Token)
  | request (context : ℕ) (token : Token)

/-- The token of a place. -/
def Slot.token {Token : Type} : Slot Token → Token
  | .singleton token => token
  | .request _ token => token

/-- The place that a scope gives a token. -/
def slotFor {Token : Type} : Scope → Option ℕ → Token → Option (Slot Token)
  | .singleton, _, token => some (.singleton token)
  | .request, some context, token => some (.request context token)
  | _, _, _ => none

section Safety

variable {Token Value : Type} {chain : List Token} {singletonInChain : Bool} {context : Option ℕ}
  {registered : RegisteredProvider Token Value} {token : Token}
  {state before after : State Token Value} {given : Instance Token Value} {scope : Scope}
  {Free : Instance Token Value → Prop}

/-- The place of what a provider makes. -/
def Work.slot (work : Work Token Value) : Option (Slot Token) :=
  slotFor work.provider.provider.scope work.context work.token

/-- Nothing request-scoped and nothing from a request context went into an instance. -/
inductive Origin.RequestFree : Origin Token Value → Prop where
  | value (provider : RegisteredProvider Token Value) : RequestFree (.value provider)
  | alias (provider : RegisteredProvider Token Value) {target : Origin Token Value}
      (free : RequestFree target) : RequestFree (.alias provider target)
  | built {provider : RegisteredProvider Token Value} {args : List (Origin Token Value)}
      (scope : provider.provider.scope ≠ .request) (free : ∀ arg ∈ args, RequestFree arg) :
      RequestFree (.built provider args)

namespace State

variable (state : State Token Value)

/-- What a cache holds at a place. -/
def «at» : Slot Token → Option (Instance Token Value)
  | .singleton token => state.singletons token
  | .request context token => state.contexts context token

/-- What a provider makes is not cached. -/
def Uncached (work : Work Token Value) : Prop := ∀ slot ∈ work.slot, state.at slot = none

/-- No two providers have made something for one place. -/
def Distinct (first second : Work Token Value) : Prop :=
  ∀ slot ∈ first.slot, slot ∉ second.slot

/-- What holds whenever no instantiation is under way but the pending one. -/
structure Sound (pending : List (Work Token Value)) : Prop where
  clean : ∀ token given, state.singletons token = some given → given.origin.RequestFree
  kept : ∀ work ∈ state.constructions, work ∈ pending ∨
    ∀ slot ∈ work.slot, (state.at slot).isSome = true
  once : state.constructions.Pairwise Distinct

/-- Caches only grow, and not at the tokens of the chain. -/
structure Extends (chain : List Token) (before after : State Token Value) : Prop where
  grown : ∀ slot given, before.at slot = some given → after.at slot = some given
  fixed : ∀ slot : Slot Token, slot.token ∈ chain → after.at slot = before.at slot

end State

/-- What is pending once an instantiation has ended. -/
def pendingAfter {Result : Type} (pending : List (Work Token Value)) :
    Except (Failure Token) Result → List (Work Token Value)
  | .ok _ => pending
  | .error _ => []

/-- A request for a token that is still being resolved. -/
def Request.Cyclic (request : Request Token) : Prop := request.token ∈ request.chain

/-- What a call does, for a chain and with a singleton in it or not. -/
structure Spec {Result : Type} (chain : List Token) (singletonInChain : Bool)
    (pending : List (Work Token Value)) (Free : Result → Prop) (before : State Token Value)
    (outcome : Outcome Token Value Result) : Prop where
  extended : State.Extends chain before outcome.2
  sound : before.Sound [] → outcome.2.Sound (pendingAfter pending outcome.1)
  free : before.Sound [] → singletonInChain = true → ∀ result, outcome.1 = .ok result → Free result
  cycles : ∃ added, outcome.2.requests = before.requests ++ added ∧ ∀ request ∈ added,
    request.Cyclic → outcome.1 = .error (.cyclicDependency (request.chain ++ [request.token]))
  unwinds : ∃ added, outcome.2.unwound = before.unwound ++ added ∧
    (∀ result, outcome.1 = .ok result → added = []) ∧ ∀ work ∈ added, outcome.2.Uncached work

namespace State.Extends

variable {chain : List Token} {first second third : State Token Value}

theorem refl (chain : List Token) (state : State Token Value) : State.Extends chain state state :=
  ⟨fun _ _ stored => stored, fun _ _ => rfl⟩

theorem of_caches (singletons : ∀ token, second.singletons token = first.singletons token)
    (contexts : ∀ context token, second.contexts context token = first.contexts context token) :
    State.Extends chain first second := by
  have same : ∀ slot, second.at slot = first.at slot := by
    intro slot
    cases slot with
    | singleton token => exact singletons token
    | request context token => exact contexts context token
  exact ⟨fun slot given stored => (same slot).trans stored, fun slot _ => same slot⟩

theorem trans (earlier : State.Extends chain first second)
    (later : State.Extends chain second third) :
    State.Extends chain first third where
  grown slot given stored := later.grown slot given (earlier.grown slot given stored)
  fixed slot inChain := (later.fixed slot inChain).trans (earlier.fixed slot inChain)

theorem mono {larger : List Token} (extends_ : State.Extends larger first second)
    (sub : ∀ token ∈ chain, token ∈ larger) : State.Extends chain first second :=
  ⟨extends_.grown, fun slot inChain => extends_.fixed slot (sub _ inChain)⟩

theorem uncached {work : Work Token Value} (extends_ : State.Extends chain first second)
    (inChain : work.token ∈ chain) (uncached : first.Uncached work) : second.Uncached work := by
  intro slot isSlot
  have same : slot.token = work.token := by
    unfold Work.slot slotFor at isSlot
    split at isSlot
    · cases isSlot
      rfl
    · cases isSlot
      rfl
    · cases isSlot
  rw [extends_.fixed slot (same ▸ inChain)]
  exact uncached slot isSlot

end State.Extends

namespace Spec

variable {Result : Type} {chain : List Token} {singletonInChain : Bool} {Free : Result → Prop}
  {before : State Token Value} {Other : Type} {result : Result} {pending : List (Work Token Value)}
  {OtherFree : Other → Prop}

theorem done (free : before.Sound [] → singletonInChain = true → Free result) :
    Spec chain singletonInChain [] Free before (.ok result, before) where
  extended := .refl chain before
  sound sound := sound
  free sound flag other same := by
    cases same
    exact free sound flag
  cycles := ⟨[], by simp, nofun⟩
  unwinds := ⟨[], by simp, fun _ _ => rfl, nofun⟩

theorem failed (failure : Failure Token) :
    Spec chain singletonInChain [] Free before (.error failure, before) where
  extended := .refl chain before
  sound sound := sound
  free _ _ _ same := nomatch same
  cycles := ⟨[], by simp, nofun⟩
  unwinds := ⟨[], by simp, fun _ _ => rfl, nofun⟩

theorem weaken {outcome : Outcome Token Value Result}
    (spec : Spec chain singletonInChain [] Free before outcome) :
    Spec chain singletonInChain pending Free before outcome :=
  { spec with
    sound := by
      intro sound
      obtain ⟨clean, kept, once⟩ := spec.sound sound
      refine ⟨clean, fun work made => .inr ((kept work made).resolve_left ?_), once⟩
      cases outcome.1 <;> exact List.not_mem_nil }

theorem error {failure : Failure Token} {after : State Token Value}
    (spec : Spec chain singletonInChain [] Free before (.error failure, after)) :
    Spec chain singletonInChain [] OtherFree before (.error failure, after) where
  extended := spec.extended
  sound := spec.sound
  free _ _ _ same := nomatch same
  cycles := by
    obtain ⟨added, same, cyclic⟩ := spec.cycles
    refine ⟨added, same, ?_⟩
    intro request isAdded isCyclic
    have failed := cyclic request isAdded isCyclic
    cases failed
    rfl
  unwinds := by
    obtain ⟨added, same, -, uncached⟩ := spec.unwinds
    exact ⟨added, same, nofun, uncached⟩

theorem followedBy {middle : State Token Value} {outcome : Outcome Token Value Other}
    (first : Spec chain singletonInChain [] Free before (.ok result, middle))
    (second : Spec chain singletonInChain pending OtherFree middle outcome) :
    Spec chain singletonInChain pending OtherFree before outcome where
  extended := first.extended.trans second.extended
  sound sound := second.sound (first.sound sound)
  free sound flag other same := second.free (first.sound sound) flag other same
  cycles := by
    obtain ⟨earlier, sameEarlier, cyclicEarlier⟩ := first.cycles
    obtain ⟨later, sameLater, cyclicLater⟩ := second.cycles
    refine ⟨earlier ++ later, by rw [sameLater, sameEarlier, List.append_assoc], ?_⟩
    intro request isAdded isCyclic
    rcases List.mem_append.mp isAdded with inEarlier | inLater
    · exact nomatch cyclicEarlier request inEarlier isCyclic
    · exact cyclicLater request inLater isCyclic
  unwinds := by
    obtain ⟨earlier, sameEarlier, noneEarlier, -⟩ := first.unwinds
    obtain ⟨later, sameLater, noneLater, uncached⟩ := second.unwinds
    refine ⟨later, ?_, noneLater, uncached⟩
    rw [sameLater, sameEarlier, noneEarlier result rfl, List.append_nil]

theorem map {other : Other} {after : State Token Value}
    (spec : Spec chain singletonInChain [] Free before (.ok result, after))
    (free : Free result → OtherFree other) :
    Spec chain singletonInChain [] OtherFree before (.ok other, after) where
  extended := spec.extended
  sound := spec.sound
  free sound flag given same := by
    cases same
    exact free (spec.free sound flag result rfl)
  cycles := by
    obtain ⟨added, same, cyclic⟩ := spec.cycles
    exact ⟨added, same, fun request isAdded isCyclic => nomatch cyclic request isAdded isCyclic⟩
  unwinds := by
    obtain ⟨added, same, nothing, uncached⟩ := spec.unwinds
    exact ⟨added, same, fun _ _ => nothing result rfl, uncached⟩

end Spec

theorem collect_spec {Item Result : Type} {Free : Result → Prop}
    {ask : Item → State Token Value → Outcome Token Value Result}
    (asks : ∀ item state, Spec chain singletonInChain [] Free state (ask item state))
    (items : List Item) (state : State Token Value) :
    Spec chain singletonInChain [] (fun results => ∀ result ∈ results, Free result) state
      (collect ask items state) := by
  induction items generalizing state with
  | nil => exact .done fun _ _ => nofun
  | cons item rest ih =>
      have first := asks item state
      rw [collect]
      split
      · rename_i failure after failed
        rw [failed] at first
        exact first.error
      · rename_i result after returned
        rw [returned] at first
        have second := ih after
        split
        · rename_i failure last failed
          rw [failed] at second
          exact first.followedBy second.error
        · rename_i results last collected
          rw [collected] at second
          have both : Spec chain singletonInChain [] (fun _ : List Result => True) state
              (.ok (result :: results), last) := (first.followedBy second).map fun _ => trivial
          exact { both with
            free := by
              rintro sound flag all ⟨⟩ other isResult
              rcases List.mem_cons.mp isResult with rfl | inRest
              · exact first.free sound flag other rfl
              · exact second.free (first.sound sound) flag results rfl other inRest }

theorem construct_spec (environment : Environment Token Value) (chain : List Token)
    (singletonInChain : Bool) (target : Option Token) (args : List (Option (Instance Token Value)))
    (uncached : state.Uncached ⟨token, registered, context⟩) :
    Spec chain singletonInChain [⟨token, registered, context⟩] (fun _ => True) state
      (construct environment registered token context target args state) := by
  unfold construct
  dsimp only
  split
  · exact {
      extended := .of_caches (fun _ => rfl) (fun _ _ => rfl)
      sound := fun sound => ⟨sound.clean, sound.kept, sound.once⟩
      free := fun _ _ _ _ => trivial
      cycles := ⟨[], by simp, nofun⟩
      unwinds := ⟨[], by simp, nofun, nofun⟩ }
  · exact {
      extended := .of_caches (fun _ => rfl) (fun _ _ => rfl)
      sound := by
        intro sound
        refine ⟨sound.clean, ?_, ?_⟩
        · intro work made
          rcases List.mem_append.mp made with earlier | last
          · exact .inr ((sound.kept work earlier).resolve_left nofun)
          · exact .inl last
        · refine List.pairwise_append.mpr ⟨sound.once, List.pairwise_singleton _ _, ?_⟩
          intro work made last isLast slot isSlot
          rw [List.mem_singleton.mp isLast]
          intro isPending
          have stored := (sound.kept work made).resolve_left nofun slot isSlot
          simp [uncached slot isPending] at stored
      free := fun _ _ _ _ => trivial
      cycles := ⟨[], by simp, nofun⟩
      unwinds := ⟨[], by simp, fun _ _ => rfl, nofun⟩ }

theorem construct_free {environment : Environment Token Value} {target : Option Token}
    {args : List (Option (Instance Token Value))} (scope : registered.provider.scope ≠ .request)
    (free : ∀ arg ∈ args, ∀ given ∈ arg, given.origin.RequestFree)
    (constructed :
      (construct environment registered token context target args state).1 = .ok given) :
    given.origin.RequestFree := by
  unfold construct at constructed
  dsimp only at constructed
  split at constructed
  · cases constructed
  · cases constructed
    refine .built scope ?_
    intro arg isArg
    obtain ⟨given, inArgs, rfl⟩ := List.mem_map.mp isArg
    obtain ⟨optional, inList, same⟩ := List.mem_filterMap.mp inArgs
    exact free optional inList given same

theorem slotFor_token {slot : Slot Token} (given : slotFor scope context token = some slot) :
    slot.token = token := by
  unfold slotFor at given
  split at given
  · cases given
    rfl
  · cases given
    rfl
  · cases given

theorem Spec.answered (spec : Spec chain singletonInChain []
      (fun given => given.origin.RequestFree) before (.ok given, after)) (token : Token)
    (requestingModuleId : Option ℕ) :
    Spec chain singletonInChain [] (fun given => given.origin.RequestFree) before
      (after.answer token requestingModuleId given) where
  extended := spec.extended.trans (.of_caches (fun _ => rfl) (fun _ _ => rfl))
  sound sound := ⟨(spec.sound sound).clean, (spec.sound sound).kept, (spec.sound sound).once⟩
  free := spec.free
  cycles := spec.cycles
  unwinds := spec.unwinds

theorem Spec.unwound {nestedFlag : Bool} {failure : Failure Token}
    (uncached : before.Uncached ⟨token, registered, context⟩)
    (spec : Spec (chain ++ [token]) nestedFlag [⟨token, registered, context⟩] Free before
      (.error failure, after)) :
    Spec chain singletonInChain [] Free before (.error failure,
      { after with unwound := after.unwound ++ [⟨token, registered, context⟩] }) where
  extended := (spec.extended.mono fun _ inChain => List.mem_append_left _ inChain).trans
    (.of_caches (fun _ => rfl) (fun _ _ => rfl))
  sound sound := ⟨(spec.sound sound).clean, (spec.sound sound).kept, (spec.sound sound).once⟩
  free _ _ _ same := nomatch same
  cycles := spec.cycles
  unwinds := by
    obtain ⟨added, extended, -, stays⟩ := spec.unwinds
    refine ⟨added ++ [⟨token, registered, context⟩], ?_, nofun, ?_⟩
    · rw [← List.append_assoc]
      exact congrArg (· ++ [⟨token, registered, context⟩]) extended
    · intro work isAdded
      rcases List.mem_append.mp isAdded with earlier | last
      · exact stays work earlier
      · rw [List.mem_singleton.mp last]
        exact spec.extended.uncached (by simp) uncached

theorem Spec.requested {outcome : Outcome Token Value (Instance Token Value)}
    (spec : Spec chain singletonInChain [] Free
      { before with requests := before.requests ++ [⟨chain, token⟩] } outcome)
    (cyclic : token ∈ chain → outcome.1 = .error (.cyclicDependency (chain ++ [token]))) :
    Spec chain singletonInChain [] Free before outcome where
  extended := by
    have recorded : State.Extends chain before
        { before with requests := before.requests ++ [⟨chain, token⟩] } :=
      .of_caches (fun _ => rfl) (fun _ _ => rfl)
    exact recorded.trans spec.extended
  sound sound := spec.sound ⟨sound.clean, sound.kept, sound.once⟩
  free sound := spec.free ⟨sound.clean, sound.kept, sound.once⟩
  cycles := by
    obtain ⟨added, extended, cycles⟩ := spec.cycles
    refine ⟨⟨chain, token⟩ :: added, by rw [extended, List.append_assoc]; rfl, ?_⟩
    intro request isAdded isCyclic
    rcases List.mem_cons.mp isAdded with rfl | inAdded
    · exact cyclic isCyclic
    · exact cycles request inAdded isCyclic
  unwinds := spec.unwinds

/-- The recursion was not cut off. -/
def Ends {Result : Type} (outcome : Outcome Token Value Result) : Prop :=
  outcome.1 ≠ .error .exhausted

theorem collect_ends {Item Result : Type}
    (ask : Item → State Token Value → Outcome Token Value Result)
    (ends : ∀ item state, Ends (ask item state)) (items : List Item) (state : State Token Value) :
    Ends (collect ask items state) := by
  induction items generalizing state with
  | nil => exact nofun
  | cons item rest ih =>
      have first := ends item state
      rw [collect]
      split
      · rename_i failure after failed
        rw [failed] at first
        rintro ⟨⟩
        exact first rfl
      · rename_i result after _
        have second := ih after
        split
        · rename_i failure last failed
          rw [failed] at second
          rintro ⟨⟩
          exact second rfl
        · exact nofun

variable [DecidableEq Token]

/-- What `resolve` promises its nested calls. -/
def AskSpec (ask : Ask Token Value) : Prop :=
  ∀ frame token requestingModuleId state,
    Spec frame.chain frame.singletonInChain [] (fun given => given.origin.RequestFree) state
      (ask frame token requestingModuleId state)

section Instantiation

variable {ask : Ask Token Value} (asks : AskSpec ask) {registered : RegisteredProvider Token Value}
  {state : State Token Value} (environment : Environment Token Value) {frame : Frame Token}
  (container : Container Token Value)

include asks

theorem resolveDependency_spec (frame : Frame Token) (moduleId : ℕ) (dependency : Dependency Token)
    (state : State Token Value) :
    Spec frame.chain frame.singletonInChain []
      (fun arg => ∀ given ∈ arg, given.origin.RequestFree) state
      (resolveDependency container ask frame moduleId dependency state) := by
  unfold resolveDependency
  split
  · exact .done fun _ _ => nofun
  · rename_i token _
    split
    · exact .done fun _ _ => nofun
    · have spec := asks frame token (some moduleId) state
      split
      · rename_i failure after failed
        rw [failed] at spec
        exact spec.error
      · rename_i given after returned
        rw [returned] at spec
        refine spec.map ?_
        rintro free other ⟨⟩
        exact free

theorem build_spec {token : Token} (inChain : token ∈ frame.chain)
    (scope : frame.singletonInChain = true → registered.provider.scope ≠ .request)
    (deps : List (Dependency Token)) (target : Option Token)
    (uncached : state.Uncached ⟨token, registered, frame.context⟩) :
    Spec frame.chain frame.singletonInChain [⟨token, registered, frame.context⟩]
      (fun given => given.origin.RequestFree) state
      (build environment container ask frame token registered deps target state) := by
  have first := collect_spec (resolveDependency_spec asks container frame registered.moduleId) deps
    state
  unfold build
  split
  · rename_i failure after failed
    rw [failed] at first
    exact (first.error).weaken
  · rename_i args after collected
    rw [collected] at first
    have second := construct_spec environment frame.chain frame.singletonInChain target args
      (first.extended.uncached inChain uncached)
    exact { first.followedBy second with
      free := by
        intro sound flag given constructed
        exact construct_free (scope flag) (first.free sound flag args rfl) constructed }

theorem instantiateClass_spec {token : Token} (inChain : token ∈ frame.chain)
    (scope : frame.singletonInChain = true → registered.provider.scope ≠ .request)
    (classType : Token) (uncached : state.Uncached ⟨token, registered, frame.context⟩) :
    Spec frame.chain frame.singletonInChain [⟨token, registered, frame.context⟩]
      (fun given => given.origin.RequestFree) state
      (instantiateClass environment container ask frame token registered classType state) := by
  unfold instantiateClass
  split
  · exact (Spec.failed _).weaken
  · rename_i deps _
    have inner : token ∈ ({ frame with injectionTarget := some classType } : Frame Token).chain :=
      inChain
    exact build_spec asks environment container inner scope deps none uncached

theorem instantiate_spec (frame : Frame Token) {token : Token} (inChain : token ∈ frame.chain)
    (scope : frame.singletonInChain = true → registered.provider.scope ≠ .request)
    (uncached : state.Uncached ⟨token, registered, frame.context⟩) :
    Spec frame.chain frame.singletonInChain [⟨token, registered, frame.context⟩]
      (fun given => given.origin.RequestFree) state
      (instantiate environment container ask frame token registered state) := by
  unfold instantiate
  split
  · split
    · exact instantiateClass_spec asks environment container inChain scope _ uncached
    · exact (Spec.failed _).weaken
  · exact instantiateClass_spec asks environment container inChain scope _ uncached
  · exact (Spec.done fun _ _ => .value registered).weaken
  · rename_i existing _
    have spec := asks frame existing (some registered.moduleId) state
    split
    · rename_i failure after failed
      rw [failed] at spec
      exact spec.error.weaken
    · rename_i given after returned
      rw [returned] at spec
      exact (spec.map fun free => .alias registered free).weaken
  · exact build_spec asks environment container inChain scope _ none uncached
  · exact build_spec asks environment container inChain scope _ _ uncached

end Instantiation

theorem State.at_store_self {slot : Slot Token} (place : slotFor scope context token = some slot)
    (given : Instance Token Value) :
    (state.store scope context token given).at slot = some given := by
  unfold slotFor at place
  split at place
  · cases place
    simp [State.store, State.at]
  · cases place
    simp [State.store, State.hold, State.at]
  · cases place

theorem State.at_store_other {slot : Slot Token} (other : slotFor scope context token ≠ some slot)
    (given : Instance Token Value) :
    (state.store scope context token given).at slot = state.at slot := by
  unfold State.store
  split
  · cases slot with
    | singleton slotToken =>
        have different : slotToken ≠ token := fun same => other (by simp [slotFor, same])
        simp [State.at, Function.update_of_ne different]
    | request slotContext slotToken => rfl
  · rename_i id
    cases slot with
    | singleton slotToken => rfl
    | request slotContext slotToken =>
        by_cases sameContext : slotContext = id
        · have different : slotToken ≠ token :=
            fun same => other (by simp [slotFor, same, sameContext])
          simp [State.at, State.hold, sameContext, Function.update_of_ne different]
        · simp [State.at, State.hold, Function.update_of_ne sameContext]
  · rfl

theorem Spec.stored (fresh : token ∉ chain)
    (uncached : before.Uncached ⟨token, registered, context⟩)
    (spec : Spec (chain ++ [token]) (singletonInChain || registered.provider.scope = .singleton)
      [⟨token, registered, context⟩] (fun given => given.origin.RequestFree) before
      (.ok given, after)) :
    Spec chain singletonInChain [] (fun given => given.origin.RequestFree) before
      (.ok given, after.store registered.provider.scope context token given) where
  extended := by
    constructor
    · intro slot earlier stored
      have other : slotFor registered.provider.scope context token ≠ some slot := by
        intro same
        have := uncached slot same
        simp [this] at stored
      rw [State.at_store_other other]
      exact spec.extended.grown slot earlier stored
    · intro slot inChain
      have other : slotFor registered.provider.scope context token ≠ some slot := by
        intro same
        exact fresh (slotFor_token same ▸ inChain)
      rw [State.at_store_other other]
      exact spec.extended.fixed slot (List.mem_append_left _ inChain)
  sound := by
    intro sound
    obtain ⟨clean, kept, once⟩ := spec.sound sound
    have same : (after.store registered.provider.scope context token given).constructions =
        after.constructions := by
      unfold State.store
      split <;> rfl
    refine ⟨?_, ?_, same ▸ once⟩
    · intro other instance_ stored
      by_cases place : slotFor registered.provider.scope context token = some (.singleton other)
      · have scope : registered.provider.scope = .singleton := by
          unfold slotFor at place
          split at place
          · assumption
          · cases place
          · cases place
        have self : (after.store registered.provider.scope context token given).at
            (.singleton other) = some given := State.at_store_self place given
        have same : some given = some instance_ := self.symm.trans stored
        cases same
        exact spec.free sound (by simp [scope]) given rfl
      · have unchanged : (after.store registered.provider.scope context token given).at
            (.singleton other) = after.at (.singleton other) := State.at_store_other place given
        exact clean other instance_ (unchanged.symm.trans stored)
    · intro work made
      rw [same] at made
      refine .inr ?_
      intro slot isSlot
      by_cases place : slotFor registered.provider.scope context token = some slot
      · simp [State.at_store_self place]
      · rw [State.at_store_other place]
        rcases kept work made with pending | stored
        · rw [List.mem_singleton.mp pending] at isSlot
          exact absurd isSlot place
        · exact stored slot isSlot
  free sound flag := spec.free sound (by simp [flag])
  cycles := by
    have same : (after.store registered.provider.scope context token given).requests =
        after.requests := by
      unfold State.store
      split <;> rfl
    rw [same]
    exact spec.cycles
  unwinds := by
    obtain ⟨added, extended, nothing, -⟩ := spec.unwinds
    have same : (after.store registered.provider.scope context token given).unwound =
        after.unwound := by
      unfold State.store
      split <;> rfl
    refine ⟨added, same.trans extended, nothing, ?_⟩
    rw [nothing given rfl]
    nofun

section Resolve

variable (environment : Environment Token Value) (container : Container Token Value)
  {ask : Ask Token Value} {frame : Frame Token}

theorem nested_spec (asks : AskSpec ask) {token : Token}
    {registered : RegisteredProvider Token Value} {state : State Token Value}
    (notHeld : state.held frame.context token = none)
    (notCached : ∀ given, registered.provider.scope = .singleton →
      state.singletons token = some given → False)
    (allowed : ¬(registered.provider.scope = .request ∧ frame.singletonInChain = true)) :
    state.Uncached ⟨token, registered, frame.context⟩ ∧
      Spec (frame.chain ++ [token])
        (frame.singletonInChain || registered.provider.scope = .singleton)
        [⟨token, registered, frame.context⟩] (fun given => given.origin.RequestFree) state
        (instantiate environment container ask { frame with
          chain := frame.chain ++ [token]
          singletonInChain := frame.singletonInChain || registered.provider.scope = .singleton }
          token registered state) := by
  have uncached : state.Uncached ⟨token, registered, frame.context⟩ := by
    intro slot isSlot
    unfold Work.slot slotFor at isSlot
    split at isSlot
    · rename_i scope
      cases isSlot
      cases stored : state.singletons token with
      | none => exact stored
      | some given => exact absurd stored (notCached given scope)
    · rename_i id _ inContext
      cases isSlot
      have inContext : frame.context = some id := inContext
      rw [State.held, inContext] at notHeld
      exact notHeld
    · cases isSlot
  refine ⟨uncached, ?_⟩
  refine instantiate_spec asks environment container { frame with
    chain := frame.chain ++ [token]
    singletonInChain := frame.singletonInChain || registered.provider.scope = .singleton }
    (List.mem_append_right _ (List.mem_singleton.mpr rfl)) ?_ uncached
  intro flag isRequest
  simp only [Bool.or_eq_true, decide_eq_true_eq] at flag
  rcases flag with inChain | isSingleton
  · exact allowed ⟨isRequest, inChain⟩
  · simp [isRequest] at isSingleton

theorem resolveRegistered_spec (asks : AskSpec ask) {token : Token} (fresh : token ∉ frame.chain)
    (requestingModuleId : Option ℕ) (registered : RegisteredProvider Token Value)
    {state : State Token Value} (notHeld : state.held frame.context token = none) :
    Spec frame.chain frame.singletonInChain [] (fun given => given.origin.RequestFree) state
      (resolveRegistered environment container ask frame token requestingModuleId registered
        state) := by
  unfold resolveRegistered
  dsimp only
  split
  · rename_i given scope stored
    refine (Spec.done ?_).answered token requestingModuleId
    intro sound _
    exact sound.clean token given stored
  · rename_i notCached
    split
    · exact .failed _
    · rename_i allowed
      split
      · exact .failed _
      · obtain ⟨uncached, spec⟩ := nested_spec environment container asks notHeld notCached allowed
        split
        · rename_i failure after failed
          rw [failed] at spec
          exact spec.unwound uncached
        · rename_i given after returned
          rw [returned] at spec
          exact (spec.stored fresh uncached).answered token requestingModuleId

theorem resolveWithin_spec (depth : ℕ) :
    AskSpec (resolveWithin environment container depth) := by
  induction depth with
  | zero => exact fun _ _ _ _ => .failed _
  | succ depth ih =>
      intro frame token requestingModuleId state
      rw [resolveWithin]
      split
      · exact (Spec.failed _).requested fun _ => rfl
      · rename_i fresh
        refine Spec.requested ?_ fun inChain => absurd inChain fresh
        split
        · rename_i given _
          split
          · exact .failed _
          · rename_i noSingleton
            exact (Spec.done fun _ flag => absurd flag noSingleton).answered token
              requestingModuleId
        · rename_i notHeld
          split
          · exact .failed _
          · rename_i registered _
            exact resolveRegistered_spec environment container ih fresh requestingModuleId
              registered
              notHeld

end Resolve

section Termination

variable (environment : Environment Token Value) (container : Container Token Value)
  {ask : Ask Token Value} {frame : Frame Token}

theorem build_ends
    (ends : ∀ token requestingModuleId state, Ends (ask frame token requestingModuleId state))
    (token : Token) (registered : RegisteredProvider Token Value) (deps : List (Dependency Token))
    (target : Option Token) (state : State Token Value) :
    Ends (build environment container ask frame token registered deps target state) := by
  have dependencyEnds : ∀ dependency state,
      Ends (resolveDependency container ask frame registered.moduleId dependency state) := by
    intro dependency state
    unfold resolveDependency
    split
    · exact nofun
    · rename_i token _
      split
      · exact nofun
      · have first := ends token (some registered.moduleId) state
        split
        · rename_i failure after failed
          rw [failed] at first
          rintro ⟨⟩
          exact first rfl
        · exact nofun
  have collected := collect_ends _ dependencyEnds deps state
  unfold build
  split
  · rename_i failure after failed
    rw [failed] at collected
    rintro ⟨⟩
    exact collected rfl
  · unfold construct
    dsimp only
    split
    · exact nofun
    · exact nofun

theorem instantiate_ends (frame : Frame Token) (ends : ∀ target token requestingModuleId state,
      Ends (ask { frame with injectionTarget := target } token requestingModuleId state))
    (token : Token) (registered : RegisteredProvider Token Value) (state : State Token Value) :
    Ends (instantiate environment container ask frame token registered state) := by
  have classEnds : ∀ classType, Ends (instantiateClass environment container ask frame token
      registered classType state) := by
    intro classType
    unfold instantiateClass
    split
    · rename_i failure failed
      unfold Environment.getConstructorDependencies at failed
      split at failed
      · cases failed
        exact nofun
      · split at failed
        · cases failed
          exact nofun
        · cases failed
    · exact build_ends environment container (ends (some classType)) token registered _ none state
  unfold instantiate
  split
  · split
    · exact classEnds _
    · exact nofun
  · exact classEnds _
  · exact nofun
  · rename_i existing _
    have first := ends frame.injectionTarget existing (some registered.moduleId) state
    split
    · rename_i failure after failed
      rw [failed] at first
      rintro ⟨⟩
      exact first rfl
    · exact nofun
  · exact build_ends environment container (ends frame.injectionTarget) token registered _ none
      state
  · exact build_ends environment container (ends frame.injectionTarget) token registered _ _ state

theorem instantiate_congr {first second : Ask Token Value}
    (same : ∀ target, first { frame with injectionTarget := target } =
      second { frame with injectionTarget := target }) :
    instantiate environment container first frame = instantiate environment container second
        frame := by
  have dependency : ∀ target,
      resolveDependency container first { frame with injectionTarget := target } =
        resolveDependency container second { frame with injectionTarget := target } := by
    intro target
    funext moduleId item state
    unfold resolveDependency
    rw [same target]
  have built : ∀ target,
      build environment container first { frame with injectionTarget := target } =
        build environment container second { frame with injectionTarget := target } := by
    intro target
    funext token registered deps given state
    unfold build
    rw [dependency target]
  have own : frame = { frame with injectionTarget := frame.injectionTarget } := rfl
  funext token registered state
  unfold instantiate instantiateClass
  simp only [built]
  rw [own, same]

theorem resolveRegistered_ends (token : Token) (requestingModuleId : Option ℕ)
    (registered : RegisteredProvider Token Value) (state : State Token Value)
    (ends : ∀ flag target other requestingModuleId state,
      Ends (ask ⟨frame.chain ++ [token], frame.context, flag, target⟩ other requestingModuleId
        state)) :
    Ends (resolveRegistered environment container ask frame token requestingModuleId registered
      state) := by
  unfold resolveRegistered
  dsimp only
  split
  · exact nofun
  · split
    · exact nofun
    · split
      · exact nofun
      · have instantiated := instantiate_ends environment container { frame with
          chain := frame.chain ++ [token]
          singletonInChain := frame.singletonInChain || registered.provider.scope = .singleton }
          (ends _) token registered state
        split
        · rename_i failure after failed
          rw [failed] at instantiated
          rintro ⟨⟩
          exact instantiated rfl
        · exact nofun

theorem resolveWithin_settled (depth : ℕ) (nodup : frame.chain.Nodup)
    (known : ∀ token ∈ frame.chain, token ∈ container.tokens)
    (enough : container.tokens.length < depth + frame.chain.length) :
    resolveWithin environment container (depth + 1) frame =
        resolveWithin environment container depth frame ∧
      ∀ token requestingModuleId state,
        Ends (resolveWithin environment container depth frame token requestingModuleId state) := by
  induction depth generalizing frame with
  | zero =>
      have short := (List.subperm_of_subset nodup known).length_le
      omega
  | succ depth ih =>
      have nested : ∀ token, token ∉ frame.chain → token ∈ container.tokens → ∀ flag target,
          resolveWithin environment container (depth + 1)
              ⟨frame.chain ++ [token], frame.context, flag, target⟩ =
            resolveWithin environment container depth
              ⟨frame.chain ++ [token], frame.context, flag, target⟩ ∧
          ∀ other requestingModuleId state, Ends (resolveWithin environment container depth
            ⟨frame.chain ++ [token], frame.context, flag, target⟩ other requestingModuleId
                state) := by
        intro token fresh isToken flag target
        refine ih ?_ ?_ ?_
        · exact List.nodup_append.mpr ⟨nodup, List.nodup_singleton token, by
            intro other inChain last isLast same
            rw [List.mem_singleton.mp isLast] at same
            exact fresh (same ▸ inChain)⟩
        · intro other isOther
          rcases List.mem_append.mp isOther with inChain | last
          · exact known other inChain
          · rw [List.mem_singleton.mp last]
            exact isToken
        · simp only [List.length_append, List.length_singleton]
          omega
      constructor
      · funext token requestingModuleId state
        simp only [resolveWithin]
        split
        · rfl
        · rename_i fresh
          split
          · rfl
          · split
            · rfl
            · rename_i registered found
              have isToken := container.mem_tokens_of_find found
              simp only [resolveRegistered]
              rw [instantiate_congr environment container fun target =>
                (nested token fresh isToken _ target).1]
      · intro token requestingModuleId state
        rw [resolveWithin]
        split
        · exact nofun
        · rename_i fresh
          split
          · split
            · exact nofun
            · exact nofun
          · split
            · exact nofun
            · rename_i registered found
              have isToken := container.mem_tokens_of_find found
              exact resolveRegistered_ends environment container token requestingModuleId registered
                _ fun flag target => (nested token fresh isToken flag target).2

theorem resolveWithin_of_depth_le {depth : ℕ} (deep : container.depth ≤ depth)
    (context : Option ℕ) (flag : Bool) (target : Option Token) :
    resolveWithin environment container depth ⟨[], context, flag, target⟩ =
      resolveWithin environment container container.depth ⟨[], context, flag, target⟩ := by
  obtain ⟨extra, rfl⟩ := Nat.exists_eq_add_of_le deep
  induction extra with
  | zero => rfl
  | succ extra ih =>
      rw [← ih (Nat.le_add_right _ _)]
      refine (resolveWithin_settled environment container (container.depth + extra)
        List.nodup_nil (fun _ inChain => absurd inChain List.not_mem_nil) ?_).1
      simp only [Container.depth, List.length_nil]
      omega

end Termination

section Runs

variable {environment : Environment Token Value} {container : Container Token Value}

theorem sound_of_reachable {state : State Token Value}
    (reachable : (system environment container).Reachable state) : state.Sound [] := by
  refine reachable.invariant (fun state => state.Sound []) ?_ ?_
  · rintro state rfl
    exact ⟨nofun, nofun, .nil⟩
  · rintro before label after - sound rfl
    cases label with
    | resolve token requestingModuleId context injectionTarget =>
        have kept := (resolveWithin_spec environment container container.depth
          ⟨[], context, false, injectionTarget⟩ token requestingModuleId before).sound sound
        refine ⟨kept.clean, fun work made => .inr ((kept.kept work made).resolve_left ?_),
          kept.once⟩
        cases (resolveWithin environment container container.depth
          ⟨[], context, false, injectionTarget⟩ token requestingModuleId before).1 <;>
          exact List.not_mem_nil
    | place context token value =>
        refine ⟨sound.clean, ?_, sound.once⟩
        intro work made
        refine .inr ?_
        intro slot isSlot
        have stored := (sound.kept work made).resolve_left List.not_mem_nil slot isSlot
        by_cases place : slotFor .request (some context) token = some slot
        · have self : (before.store .request (some context) token ⟨value, .placed⟩).at slot =
              some ⟨value, .placed⟩ := State.at_store_self place _
          simpa [State.step, State.store] using congrArg Option.isSome self
        · have unchanged : (before.step environment container
            (.place context token value)).at slot =
              before.at slot := State.at_store_other place ⟨value, .placed⟩
          rw [unchanged]
          exact stored

/-- What a call of `resolve` promises. -/
structure SafeCall (environment : Environment Token Value) (container : Container Token Value)
    (token : Token) (requestingModuleId context : Option ℕ) (injectionTarget : Option Token)
    (before : State Token Value) (outcome : Outcome Token Value (Instance Token Value)) : Prop where
  ends : outcome.1 ≠ .error .exhausted
  settled : ∀ depth, container.depth ≤ depth →
    resolveWithin environment container depth ⟨[], context, false, injectionTarget⟩ token
      requestingModuleId before = outcome
  cycles : ∀ request ∈ outcome.2.requests.drop before.requests.length,
    request.token ∈ request.chain →
    outcome.1 = .error (.cyclicDependency (request.chain ++ [request.token]))
  clean : ∀ token given, outcome.2.singletons token = some given → given.origin.RequestFree
  forgets : ∀ failure, outcome.1 = .error failure →
    ∀ work ∈ outcome.2.unwound.drop before.unwound.length, outcome.2.Uncached work
  once : outcome.2.constructions.Pairwise State.Distinct
  held : ∀ given, outcome.1 = .ok given → ∀ registered,
    container.findRegisteredProvider token requestingModuleId = some registered →
    registered.provider.scope = .request → ∃ id stored, context = some id ∧
      outcome.2.contexts id token = some stored ∧ stored.value = given.value

theorem held_of_returned {token : Token} {requestingModuleId : Option ℕ} {frame : Frame Token}
    {before after : State Token Value} {given : Instance Token Value} {depth : ℕ}
    (returned : resolveWithin environment container depth frame token requestingModuleId before =
      (.ok given, after)) {registered : RegisteredProvider Token Value}
    (found : container.findRegisteredProvider token requestingModuleId = some registered)
    (scope : registered.provider.scope = .request) : ∃ id stored, frame.context = some id ∧
      after.contexts id token = some stored ∧ stored.value = given.value := by
  cases depth with
  | zero => cases returned
  | succ depth =>
      rw [resolveWithin] at returned
      split at returned
      · cases returned
      · split at returned
        · rename_i stored isHeld
          split at returned
          · cases returned
          · cases returned
            obtain ⟨id, isContext, stored⟩ := Option.bind_eq_some_iff.mp isHeld
            exact ⟨id, _, isContext, stored, rfl⟩
        · rw [found] at returned
          simp only [resolveRegistered, scope] at returned
          split at returned
          · cases returned
          · split at returned
            · cases returned
            · rename_i hasContext
              obtain ⟨id, isContext⟩ := Option.ne_none_iff_exists'.mp
                fun absent => hasContext ⟨trivial, absent⟩
              split at returned
              · cases returned
              · cases returned
                refine ⟨id, given, isContext, ?_, rfl⟩
                simp [State.store, State.hold, isContext]

/-- A call of `resolve` in a run is safe. -/
theorem safeCall_of_reachable {before : State Token Value}
    (reachable : (system environment container).Reachable before) (token : Token)
    (requestingModuleId context : Option ℕ) (injectionTarget : Option Token) :
    SafeCall environment container token requestingModuleId context injectionTarget before
      (container.resolve environment token requestingModuleId context injectionTarget before) := by
  have sound := sound_of_reachable reachable
  have spec := resolveWithin_spec environment container container.depth
    ⟨[], context, false, injectionTarget⟩ token requestingModuleId before
  have taken : (system environment container).Step before
      (.resolve token requestingModuleId context injectionTarget)
      (container.resolve environment token requestingModuleId context injectionTarget before).2 :=
    rfl
  have after := sound_of_reachable (reachable.step taken)
  obtain ⟨requests, sameRequests, cycles⟩ := spec.cycles
  obtain ⟨unwound, sameUnwound, -, uncached⟩ := spec.unwinds
  exact {
    ends := (resolveWithin_settled environment container container.depth List.nodup_nil
      (fun _ inChain => absurd inChain List.not_mem_nil) (by simp [Container.depth])).2 token
        requestingModuleId before
    settled := by
      intro depth deep
      rw [resolveWithin_of_depth_le environment container deep]
      rfl
    cycles := by
      intro request isAdded isCyclic
      refine cycles request ?_ isCyclic
      have same : (container.resolve environment token requestingModuleId context injectionTarget
        before).2.requests = before.requests ++ requests := sameRequests
      rwa [same, List.drop_left] at isAdded
    clean := after.clean
    forgets := by
      intro _ _ work isAdded
      refine uncached work ?_
      have same : (container.resolve environment token requestingModuleId context injectionTarget
        before).2.unwound = before.unwound ++ unwound := sameUnwound
      rwa [same, List.drop_left] at isAdded
    once := after.once
    held := by
      intro given returned registered found scope
      exact held_of_returned (Prod.ext returned rfl) found scope }

end Runs

end Safety

/-- A class `0` whose constructor takes a class `1`. -/
def dependentClasses : Environment ℕ ℕ where
  isClass _ := true
  hasPrototype _ := true
  getParameters
    | 0 => some [⟨"current", some 1, false, false⟩]
    | _ => some []
  construct call _ _ _ := some call

/-- A module with a singleton that depends on a request-scoped provider. -/
def dependentModule : ModuleDefinition ℕ ℕ :=
  .define [.plain 0, .useClass 1 1 (some .request)] [] [] []

/-- A singleton that needs what a context holds is refused. -/
theorem safeCall_scopeMismatch : ∃ container, Container.compile dependentModule = .ok container ∧
    let before := State.initial.step dependentClasses container (.resolve 1 none (some 7) none)
    let outcome := container.resolve dependentClasses 0 none (some 7) none before
    (before.contexts 7 1).isSome ∧ outcome.1.toOption.isNone ∧
      SafeCall dependentClasses container 0 none (some 7) none before outcome := by
  refine ⟨_, rfl, by decide +kernel, by decide +kernel, ?_⟩
  exact safeCall_of_reachable ((TransitionSystem.Reachable.start rfl).step rfl) 0 none (some 7) none

end ServerFoundation.Di
