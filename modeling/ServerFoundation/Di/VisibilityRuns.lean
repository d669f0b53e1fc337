import ServerFoundation.Di.Visibility

/-!
# Visibility in runs

What the caches hold was made by the providers that the askers select, and every call of
`resolve` keeps it so. The tree of providers behind an answer is then fixed by the token and
the module that asks, whatever was resolved before.
-/

namespace ServerFoundation.Di

variable {Token Value : Type} {registered : RegisteredProvider Token Value}
  {moduleId context : Option ℕ} {state : State Token Value} {token : Token} {below : Bool}
  {given : Instance Token Value}

theorem Origin.producer_erase : ∀ origin : Origin Token Value,
    origin.erase.producer = origin.producer
  | .value _ | .placed => by rw [Origin.erase]
  | .alias _ _ | .built _ _ => by rw [Origin.erase, Origin.producer, Origin.producer]
  | .held instance_ => by
      rw [Origin.erase, Origin.producer]
      exact Origin.producer_erase instance_

variable [DecidableEq Token] {environment : Environment Token Value}
  {container : Container Token Value} {calls : List (Call Token)}

theorem Produced.producer {origin : Origin Token Value}
    (produced : Produced environment container registered origin) :
    origin.producer = some registered := by
  cases produced with
  | value form => rfl
  | existing form found produced => rfl
  | built code produced => rfl

mutual

theorem Produced.unique {registered : RegisteredProvider Token Value} :
    ∀ {first second : Origin Token Value}, Produced environment container registered first →
      Produced environment container registered second → first = second
  | _, _, .value form, right => by
      cases right with
      | value _ => rfl
      | existing other _ _ => cases form.symm.trans other
      | built code _ => simp [form, Provider.hasCode] at code
  | _, _, .existing form found produced, right => by
      cases right with
      | value other => cases form.symm.trans other
      | existing other foundOther producedOther =>
          cases form.symm.trans other
          cases found.symm.trans foundOther
          rw [Produced.unique produced producedOther]
      | built code _ => simp [form, Provider.hasCode] at code
  | _, _, .built code produced, right => by
      cases right with
      | value other => simp [other, Provider.hasCode] at code
      | existing other _ _ => simp [other, Provider.hasCode] at code
      | built _ producedOther => rw [ProducedAll.unique produced producedOther]

theorem ProducedAll.unique {moduleId : ℕ} {tokens : List Token} :
    ∀ {first second : List (Origin Token Value)},
      ProducedAll environment container moduleId tokens first →
      ProducedAll environment container moduleId tokens second → first = second
  | _, _, .nil _, .nil _ => rfl
  | _, _, .cons found left rest, .cons foundOther right restOther => by
      cases found.symm.trans foundOther
      rw [Produced.unique left right, ProducedAll.unique rest restOther]

end

theorem Asked.reaches {first second : RegisteredProvider Token Value}
    (asked : Asked environment container calls token moduleId context)
    (found : container.findRegisteredProvider token moduleId = some first)
    (needs : Relation.TransGen (Requires environment container) first second) :
    ∃ required otherId, Asked environment container calls required otherId context ∧
      container.findRegisteredProvider required otherId = some second := by
  induction needs with
  | single requires =>
      obtain ⟨required, isRequired, isOther⟩ := requires
      exact ⟨required, _, asked.dependency found isRequired, isOther⟩
  | tail _ requires ih =>
      obtain ⟨_, _, askedNext, foundNext⟩ := ih
      obtain ⟨required, isRequired, isOther⟩ := requires
      exact ⟨required, _, askedNext.dependency foundNext isRequired, isOther⟩

section

variable (resolvable : Resolvable environment container context below registered)
include resolvable

theorem Resolvable.anywhere (isBelow : below = true) (other : Option ℕ) (flag : Bool) :
    Resolvable environment container other flag registered := by
  induction resolvable generalizing flag with
  | intro inScope instantiable known resolvable ih =>
      subst isBelow
      refine .intro (fun isRequest => ?_) instantiable known fun next requires => ?_
      · exact Bool.noConfusion (inScope isRequest).1
      · exact ih next requires rfl _

theorem Resolvable.of_singleton (scope : registered.provider.scope = .singleton) (other : Option ℕ)
    (flag : Bool) : Resolvable environment container other flag registered := by
  cases resolvable with
  | intro inScope instantiable known resolvable =>
      refine .intro ?_ instantiable known fun next requires => ?_
      · rw [scope]
        exact nofun
      · exact (resolvable next requires).anywhere (by simp [scope]) _ _

theorem Resolvable.acyclic :
    ¬Relation.TransGen (Requires environment container) registered registered := by
  induction resolvable with
  | intro inScope instantiable known resolvable ih =>
      intro circle
      obtain ⟨next, requires, back⟩ := Relation.TransGen.head'_iff.mp circle
      exact ih next requires (Relation.TransGen.tail' back requires)

end

variable (environment container) in
/-- An instance of the provider that a module selects, as a frame can ask for it. -/
def IsGiven (frame : Frame Token) (token : Token) (moduleId : Option ℕ)
    (given : Instance Token Value) : Prop :=
  ∃ registered, container.findRegisteredProvider token moduleId = some registered ∧
    Produced environment container registered given.origin.erase ∧
    Resolvable environment container frame.context frame.singletonInChain registered

variable (environment container) in
/-- The tokens have providers that a frame can ask for. -/
def Supplied (frame : Frame Token) (moduleId : ℕ) (tokens : List Token) : Prop :=
  ∀ token ∈ tokens, ∃ registered,
    container.findRegisteredProvider token (some moduleId) = some registered ∧
      Resolvable environment container frame.context frame.singletonInChain registered

variable (environment container) in
/-- An instance of a provider, with what the provider needs. -/
def IsMade (frame : Frame Token) (registered : RegisteredProvider Token Value)
    (given : Instance Token Value) : Prop :=
  Produced environment container registered given.origin.erase ∧
    registered.Instantiable environment ∧
    Supplied environment container frame registered.moduleId
      (registered.requirements environment container)

variable (environment container calls) in
/-- What the caches hold was made by the providers that the askers select. -/
structure Faithful (state : State Token Value) : Prop where
  singletons : ∀ token given, state.singletons token = some given →
    ∃ moduleId context registered, Asked environment container calls token moduleId context ∧
      container.findRegisteredProvider token moduleId = some registered ∧
      registered.provider.scope = .singleton ∧
      Produced environment container registered given.origin.erase ∧
      Resolvable environment container none true registered
  contexts : ∀ id token given, state.contexts id token = some given →
    ∃ moduleId registered, Asked environment container calls token moduleId (some id) ∧
      container.findRegisteredProvider token moduleId = some registered ∧
      registered.provider.scope = .request ∧
      Produced environment container registered given.origin.erase ∧
      Resolvable environment container (some id) false registered
  answers : ∀ answer ∈ state.answers, ∃ registered,
    container.findRegisteredProvider answer.token answer.requestingModuleId = some registered ∧
      Produced environment container registered answer.given.origin.erase ∧
      (registered.provider.scope = .singleton →
        state.singletons answer.token = some answer.given)
  made : ∀ work ∈ state.constructions, work.provider.provider.token = work.token

variable (environment container calls) in
/-- What a call keeps and promises of its result. -/
def Keeps {Result : Type} (Promise : Result → Prop) (outcome : Outcome Token Value Result) : Prop :=
  Faithful environment container calls outcome.2 ∧
    ∀ result, outcome.1 = .ok result → Promise result

variable (environment container calls) in
/-- A nested call of `resolve` keeps the caches faithful. -/
def AskFaithful (ask : Ask Token Value) : Prop :=
  ∀ frame token moduleId state, Asked environment container calls token moduleId frame.context →
    Faithful environment container calls state →
    Keeps environment container calls (IsGiven environment container frame token moduleId)
      (ask frame token moduleId state)

theorem Keeps.failed {Result Other : Type} {Promise : Result → Prop} {Promised : Other → Prop}
    {failure : Failure Token} {after : State Token Value}
    (keeps : Keeps environment container calls Promise (.error failure, after)) :
    Keeps environment container calls Promised (.error failure, after) :=
  ⟨keeps.1, nofun⟩

section Instantiation

variable {ask : Ask Token Value} (asks : AskFaithful environment container calls ask)
  {frame : Frame Token} {token : Token}

include asks

theorem collect_faithful (frame : Frame Token) (moduleId : ℕ) (deps : List (Dependency Token))
    {state : State Token Value}
    (asked : ∀ token ∈ container.needed moduleId deps,
      Asked environment container calls token (some moduleId) frame.context)
    (faithful : Faithful environment container calls state) :
    Keeps environment container calls
      (fun args => ProducedAll environment container moduleId (container.needed moduleId deps)
          (Origin.eraseAll ((args.filterMap id).map Instance.origin)) ∧
        Supplied environment container frame moduleId (container.needed moduleId deps))
      (collect (resolveDependency container ask frame moduleId) deps state) := by
  induction deps generalizing state with
  | nil =>
      refine ⟨faithful, ?_⟩
      rintro args ⟨⟩
      exact ⟨.nil moduleId, nofun⟩
  | cons dependency rest ih =>
      have later : ∀ token ∈ container.needed moduleId rest,
          Asked environment container calls token (some moduleId) frame.context := by
        intro token isNeeded
        refine asked token ?_
        unfold Container.needed at isNeeded ⊢
        rw [List.filterMap_cons]
        split
        · exact isNeeded
        · exact List.mem_cons_of_mem _ isNeeded
      rw [collect]
      by_cases skipped : dependency.token.filter (fun token => !(dependency.optional &&
          (container.findRegisteredProvider token (some moduleId)).isNone)) = none
      · have skips : resolveDependency container ask frame moduleId dependency state =
            (.ok none, state) := by
          unfold resolveDependency
          split
          · rfl
          · rename_i token isToken
            rw [if_pos]
            simpa [isToken, Option.filter_eq_none_iff] using skipped
        have same : container.needed moduleId (dependency :: rest) =
            container.needed moduleId rest := by
          unfold Container.needed
          rw [List.filterMap_cons, skipped]
        have collected := ih later faithful
        rw [skips, same]
        dsimp only
        split
        · rename_i failure last failed
          rw [failed] at collected
          exact collected.failed
        · rename_i results last finished
          rw [finished] at collected
          refine ⟨collected.1, ?_⟩
          rintro args ⟨⟩
          exact collected.2 results rfl
      · obtain ⟨token, isKept⟩ := Option.ne_none_iff_exists'.mp skipped
        obtain ⟨isToken, isAsked⟩ := Option.filter_eq_some_iff.mp isKept
        have same : container.needed moduleId (dependency :: rest) =
            token :: container.needed moduleId rest := by
          unfold Container.needed
          rw [List.filterMap_cons, isKept]
        have first := asks frame token (some moduleId) state
          (asked token (by rw [same]; exact List.mem_cons_self)) faithful
        have kept : ¬(dependency.optional = true ∧
            container.findRegisteredProvider token (some moduleId) = none) := by
          rintro ⟨optional, absent⟩
          simp [optional, absent] at isAsked
        rw [resolveDependency, isToken, same]
        dsimp only
        rw [if_neg kept]
        rcases answered : ask frame token (some moduleId) state with ⟨failure | given, middle⟩
        all_goals rw [answered] at first
        · exact first.failed
        · obtain ⟨registered, found, produced, resolvable⟩ := first.2 given rfl
          have collected := ih later first.1
          dsimp only
          split
          · rename_i failure last failed
            rw [failed] at collected
            exact collected.failed
          · rename_i results last finished
            rw [finished] at collected
            refine ⟨collected.1, ?_⟩
            rintro args ⟨⟩
            obtain ⟨tail, supplied⟩ := collected.2 results rfl
            rw [List.filterMap_cons]
            refine ⟨.cons found produced tail, ?_⟩
            intro other isOther
            rcases List.mem_cons.mp isOther with rfl | later
            · exact ⟨registered, found, resolvable⟩
            · exact supplied other later

theorem build_faithful {registered : RegisteredProvider Token Value}
    (code : registered.provider.hasCode = true) (own : registered.provider.token = token)
    (deps : List (Dependency Token)) (target : Option Token) {state : State Token Value}
    (requires : registered.dependencies environment = deps)
    (instantiable : registered.Instantiable environment)
    (asked : ∀ required ∈ registered.requirements environment container,
      Asked environment container calls required (some registered.moduleId) frame.context)
    (faithful : Faithful environment container calls state) :
    Keeps environment container calls (IsMade environment container frame registered)
      (build environment container ask frame token registered deps target state) := by
  subst requires
  have collected := collect_faithful asks frame registered.moduleId
    (registered.dependencies environment) asked faithful
  unfold build
  split
  · rename_i failure after failed
    rw [failed] at collected
    exact collected.failed
  · rename_i args after finished
    rw [finished] at collected
    unfold construct
    dsimp only
    split
    · exact ⟨⟨collected.1.singletons, collected.1.contexts, collected.1.answers, collected.1.made⟩,
        nofun⟩
    · refine ⟨⟨collected.1.singletons, collected.1.contexts, collected.1.answers, ?_⟩, ?_⟩
      · intro work isMade
        rcases List.mem_append.mp isMade with earlier | last
        · exact collected.1.made work earlier
        · rw [List.mem_singleton.mp last]
          exact own
      · rintro given ⟨⟩
        rw [IsMade, Origin.erase]
        obtain ⟨produced, supplied⟩ := collected.2 args rfl
        exact ⟨.built code produced, instantiable, supplied⟩

theorem instantiateClass_faithful {registered : RegisteredProvider Token Value}
    (code : registered.provider.hasCode = true) (own : registered.provider.token = token)
    (classType : Token) {state : State Token Value}
    (requires : registered.dependencies environment =
      (environment.getConstructorDependencies classType).toOption.getD [])
    (instantiable : ∀ deps, environment.getConstructorDependencies classType = .ok deps →
      registered.Instantiable environment)
    (asked : ∀ required ∈ registered.requirements environment container,
      Asked environment container calls required (some registered.moduleId) frame.context)
    (faithful : Faithful environment container calls state) :
    Keeps environment container calls (IsMade environment container frame registered)
      (instantiateClass environment container ask frame token registered classType state) := by
  unfold instantiateClass
  split
  · exact ⟨faithful, nofun⟩
  · rename_i deps known
    rw [known] at requires
    exact @build_faithful _ _ _ _ _ _ _ asks { frame with injectionTarget := some classType } _ _
      code
      own deps none state requires (instantiable deps known) asked faithful

theorem instantiate_faithful {registered : RegisteredProvider Token Value}
    (own : registered.provider.token = token) {state : State Token Value}
    (asked : ∀ required ∈ registered.requirements environment container,
      Asked environment container calls required (some registered.moduleId) frame.context)
    (faithful : Faithful environment container calls state) :
    Keeps environment container calls (IsMade environment container frame registered)
      (instantiate environment container ask frame token registered state) := by
  unfold instantiate
  split
  · rename_i classType form
    split
    · rename_i isClass
      refine instantiateClass_faithful asks (by rw [form]; rfl) own classType
        (by rw [RegisteredProvider.dependencies, form]) ?_ asked faithful
      intro deps known
      rw [RegisteredProvider.Instantiable, form]
      exact ⟨isClass, deps, known⟩
    · exact ⟨faithful, nofun⟩
  · rename_i classType _ form
    refine instantiateClass_faithful asks (by rw [form]; rfl) own classType
      (by rw [RegisteredProvider.dependencies, form]) ?_ asked faithful
    intro deps known
    rw [RegisteredProvider.Instantiable, form]
    exact ⟨deps, known⟩
  · rename_i form
    refine ⟨faithful, ?_⟩
    rintro given ⟨⟩
    rw [IsMade, Origin.erase]
    refine ⟨.value form, by rw [RegisteredProvider.Instantiable, form]; trivial, ?_⟩
    simp [Supplied, RegisteredProvider.requirements, RegisteredProvider.dependencies, form,
      Container.needed]
  · rename_i existing form
    have only : registered.requirements environment container = [existing] := by
      simp [RegisteredProvider.requirements, RegisteredProvider.dependencies, form,
        factoryDependencies, Container.needed]
    have first := asks frame existing (some registered.moduleId) state
      (asked existing (only ▸ List.mem_singleton_self existing)) faithful
    split
    · rename_i failure after failed
      rw [failed] at first
      exact first.failed
    · rename_i given after returned
      rw [returned] at first
      refine ⟨first.1, ?_⟩
      rintro result ⟨⟩
      obtain ⟨other, found, produced, resolvable⟩ := first.2 given rfl
      rw [IsMade, Origin.erase, only]
      refine ⟨.existing form found produced, by rw [RegisteredProvider.Instantiable, form]; trivial,
        ?_⟩
      intro token isToken
      rw [List.mem_singleton.mp isToken]
      exact ⟨other, found, resolvable⟩
  · rename_i deps _ form
    exact build_faithful asks (by rw [form]; rfl) own (factoryDependencies deps) none
      (by rw [RegisteredProvider.dependencies, form])
      (by rw [RegisteredProvider.Instantiable, form]; trivial) asked faithful
  · rename_i deps _ form
    exact build_faithful asks (by rw [form]; rfl) own (factoryDependencies deps) _
      (by rw [RegisteredProvider.dependencies, form])
      (by rw [RegisteredProvider.Instantiable, form]; trivial) asked faithful

end Instantiation

theorem Faithful.store (faithful : Faithful environment container calls state)
    (asked : Asked environment container calls token moduleId context)
    (found : container.findRegisteredProvider token moduleId = some registered)
    (produced : Produced environment container registered given.origin.erase)
    (resolvable : Resolvable environment container context below registered)
    (absent : registered.provider.scope = .singleton → state.singletons token = none) :
    Faithful environment container calls
      (state.store registered.provider.scope context token given) := by
  unfold State.store
  split
  · rename_i scope
    refine ⟨?_, faithful.contexts, ?_, faithful.made⟩
    · intro other stored isStored
      by_cases same : other = token
      · subst same
        simp only [Function.update_self, Option.some.injEq] at isStored
        subst isStored
        exact ⟨moduleId, _, registered, asked, found, scope, produced,
        resolvable.of_singleton scope _ _⟩
      · simp only [Function.update_of_ne same] at isStored
        exact faithful.singletons other stored isStored
    · intro answer isAnswer
      obtain ⟨selected, isSelected, isProduced, kept⟩ := faithful.answers answer isAnswer
      refine ⟨selected, isSelected, isProduced, ?_⟩
      intro isSingleton
      have stored := kept isSingleton
      have other : answer.token ≠ token := by
        intro same
        rw [same, absent scope] at stored
        cases stored
      dsimp only
      rw [Function.update_of_ne other, stored]
  · rename_i id scope
    refine ⟨faithful.singletons, ?_, faithful.answers, faithful.made⟩
    intro otherId other stored isStored
    unfold State.hold at isStored
    by_cases same : otherId = id ∧ other = token
    · obtain ⟨rfl, rfl⟩ := same
      simp only [Function.update_self, Option.some.injEq] at isStored
      subst isStored
      refine ⟨moduleId, registered, asked, found, scope, produced, ?_⟩
      have outside : below = false := by
        cases resolvable with
        | intro inScope => exact (inScope scope).1
      exact outside ▸ resolvable
    · refine faithful.contexts otherId other stored ?_
      by_cases sameId : otherId = id
      · have different : other ≠ token := fun sameToken => same ⟨sameId, sameToken⟩
        subst sameId
        simpa [Function.update_of_ne different] using isStored
      · simpa [Function.update_of_ne sameId] using isStored
  · exact faithful

theorem Faithful.answer (faithful : Faithful environment container calls state)
    (found : container.findRegisteredProvider token moduleId = some registered)
    (produced : Produced environment container registered given.origin.erase) {frame : Frame Token}
    (resolvable : Resolvable environment container frame.context frame.singletonInChain registered)
    (shared : registered.provider.scope = .singleton → state.singletons token = some given) :
    Keeps environment container calls (IsGiven environment container frame token moduleId)
      (state.answer token moduleId given) := by
  refine ⟨⟨faithful.singletons, faithful.contexts, ?_, faithful.made⟩, ?_⟩
  · intro answer isAnswer
    rcases List.mem_append.mp isAnswer with earlier | last
    · exact faithful.answers answer earlier
    · rw [List.mem_singleton.mp last]
      exact ⟨registered, found, produced, shared⟩
  · rintro result ⟨⟩
    exact ⟨registered, found, produced, resolvable⟩

section Resolve

variable (keyed : container.Keyed) (separate : Separate environment container calls)

include keyed separate

theorem resolveRegistered_faithful {ask : Ask Token Value} (specified : AskSpec ask)
    (asks : AskFaithful environment container calls ask) {frame : Frame Token} {token : Token}
    {moduleId : Option ℕ} {registered : RegisteredProvider Token Value}
    (asked : Asked environment container calls token moduleId frame.context)
    (found : container.findRegisteredProvider token moduleId = some registered)
    {state : State Token Value} (notHeld : state.held frame.context token = none)
    (faithful : Faithful environment container calls state) :
    Keeps environment container calls (IsGiven environment container frame token moduleId)
      (resolveRegistered environment container ask frame token moduleId registered state) := by
  unfold resolveRegistered
  dsimp only
  split
  · rename_i given scope stored
    obtain ⟨otherId, context, other, askedOther, foundOther, isSingleton, produced, resolvable⟩ :=
      faithful.singletons token given stored
    have same := separate.singletons token moduleId frame.context registered asked found scope
      otherId
      context other askedOther foundOther isSingleton
    subst same
    exact faithful.answer found produced (resolvable.of_singleton scope _ _) fun _ => stored
  · rename_i notCached
    split
    · exact ⟨faithful, nofun⟩
    · rename_i allowed
      split
      · exact ⟨faithful, nofun⟩
      · rename_i inContext
        obtain ⟨uncached, spec⟩ :=
          nested_spec environment container specified notHeld notCached allowed
        have requires : ∀ required ∈ registered.requirements environment container,
            Asked environment container calls required (some registered.moduleId) frame.context :=
          fun required isRequired => asked.dependency found isRequired
        have made := @instantiate_faithful _ _ _ _ _ _ _ asks { frame with
          chain := frame.chain ++ [token]
          singletonInChain := frame.singletonInChain || registered.provider.scope = .singleton }
          token registered (keyed.token_of_find found) state requires faithful
        split
        · rename_i failure after failed
          rw [failed] at made
          exact ⟨⟨made.1.singletons, made.1.contexts, made.1.answers, made.1.made⟩, nofun⟩
        · rename_i given after returned
          rw [returned] at made spec
          obtain ⟨produced, instantiable, supplied⟩ := made.2 given rfl
          have resolvable : Resolvable environment container frame.context frame.singletonInChain
              registered := by
            refine .intro ?_ instantiable ?_ ?_
            · intro isRequest
              refine ⟨Bool.eq_false_iff.mpr fun below => allowed ⟨isRequest, below⟩, ?_⟩
              exact fun absent => inContext ⟨isRequest, absent⟩
            · intro required isRequired
              obtain ⟨other, isFound, -⟩ := supplied required isRequired
              rw [isFound]
              rfl
            · rintro other ⟨required, isRequired, isOther⟩
              obtain ⟨selected, isFound, resolvable⟩ := supplied required isRequired
              cases isOther.symm.trans isFound
              exact resolvable
          have absent : registered.provider.scope = .singleton → after.singletons token = none := by
            intro scope
            have fixed := spec.extended.fixed (.singleton token) (by simp [Slot.token])
            have empty := uncached (.singleton token) (by simp [Work.slot, slotFor, scope])
            exact fixed.trans empty
          refine (made.1.store asked found produced resolvable absent).answer found produced
            resolvable ?_
          intro scope
          rw [scope]
          exact Function.update_self _ _ _

theorem resolveWithin_faithful (depth : ℕ) :
    AskFaithful environment container calls (resolveWithin environment container depth) := by
  have fails : ∀ {Promise : Instance Token Value → Prop} {failure : Failure Token}
      {after : State Token Value}, Faithful environment container calls after →
      Keeps environment container calls Promise (.error failure, after) := by
    intro Promise failure after faithful
    refine ⟨faithful, ?_⟩
    intro given impossible
    cases impossible
  induction depth with
  | zero => exact fun _ _ _ _ _ faithful => fails faithful
  | succ depth ih =>
      intro frame token moduleId state asked faithful
      have recorded : Faithful environment container calls
          { state with requests := state.requests ++ [⟨frame.chain, token⟩] } :=
        ⟨faithful.singletons, faithful.contexts, faithful.answers, faithful.made⟩
      rw [resolveWithin]
      split
      · exact fails recorded
      · split
        · rename_i given isHeld
          split
          · exact fails recorded
          · obtain ⟨id, inContext, stored⟩ := Option.bind_eq_some_iff.mp isHeld
            obtain ⟨otherId, registered, askedOther, foundOther, scope, produced, resolvable⟩ :=
              faithful.contexts id token given stored
            have found := separate.requests token otherId id registered askedOther foundOther scope
              moduleId (inContext ▸ asked)
            refine recorded.answer found ?_ ?_ ?_
            · rw [Origin.erase]
              exact produced
            · rename_i outside
              rw [Option.mem_def.mp inContext, Bool.eq_false_iff.mpr outside]
              exact resolvable
            · intro isSingleton
              rw [scope] at isSingleton
              cases isSingleton
        · rename_i notHeld
          split
          · exact fails recorded
          · rename_i registered found
            exact resolveRegistered_faithful keyed separate
              (resolveWithin_spec environment container depth) ih asked found notHeld recorded

section Returns

variable (environment container calls) in
/-- The tokens of a chain were asked for, and their providers need the given one. -/
def Above (chain : List Token) (registered : RegisteredProvider Token Value) : Prop :=
  ∀ token ∈ chain, ∃ moduleId context first,
    Asked environment container calls token moduleId context ∧
    container.findRegisteredProvider token moduleId = some first ∧
    Relation.TransGen (Requires environment container) first registered

/-- Only the code of a provider makes the call fail, unless the recursion is cut off. -/
def Returns {Result : Type} (outcome : Outcome Token Value Result) : Prop :=
  ∀ failure, outcome.1 = .error failure → failure = .thrown ∨ failure = .exhausted

omit [DecidableEq Token] keyed separate in
theorem Returns.ok {Result : Type} {result : Result} {after : State Token Value} :
    Returns ((.ok result, after) : Outcome Token Value Result) := by
  rintro failure ⟨⟩

omit [DecidableEq Token] keyed separate in
theorem Returns.failed {Result Other : Type} {failure : Failure Token} {after : State Token Value}
    (returns : Returns ((.error failure, after) : Outcome Token Value Result)) :
    Returns ((.error failure, after) : Outcome Token Value Other) := by
  rintro other ⟨⟩
  exact returns failure rfl

variable (environment container calls) in
/-- A token that a frame asks for has a provider that can be resolved below the chain. -/
def Grantable (frame : Frame Token) (token : Token) (moduleId : Option ℕ) : Prop :=
  Asked environment container calls token moduleId frame.context ∧
    ∃ registered, container.findRegisteredProvider token moduleId = some registered ∧
      Resolvable environment container frame.context frame.singletonInChain registered ∧
      Above environment container calls frame.chain registered

variable (environment container calls) in
/-- A nested call of `resolve` returns what can be resolved. -/
def AskReturns (ask : Ask Token Value) : Prop :=
  ∀ frame token moduleId state, Grantable environment container calls frame token moduleId →
    Faithful environment container calls state → Returns (ask frame token moduleId state)

omit keyed separate

theorem grantable_of_asked {frame : Frame Token} {token : Token} {moduleId : Option ℕ}
    {registered : RegisteredProvider Token Value} {flag : Bool}
    (asked : Asked environment container calls token moduleId frame.context)
    (found : container.findRegisteredProvider token moduleId = some registered)
    (known : ∀ required ∈ registered.requirements environment container,
      (container.findRegisteredProvider required (some registered.moduleId)).isSome = true)
    (resolvable : ∀ other, Requires environment container registered other →
      Resolvable environment container frame.context flag other)
    (above : Above environment container calls frame.chain registered) :
    ∀ required ∈ registered.requirements environment container,
      Grantable environment container calls
        { frame with chain := frame.chain ++ [token], singletonInChain := flag } required
        (some registered.moduleId) := by
  intro required isRequired
  obtain ⟨other, isOther⟩ := Option.isSome_iff_exists.mp (known required isRequired)
  have needs : Requires environment container registered other := ⟨required, isRequired, isOther⟩
  refine ⟨asked.dependency found isRequired, other, isOther, resolvable other needs, ?_⟩
  intro earlier inChain
  rcases List.mem_append.mp inChain with before | last
  · obtain ⟨otherId, context, first, askedFirst, foundFirst, needed⟩ := above earlier before
    exact ⟨otherId, context, first, askedFirst, foundFirst, needed.tail needs⟩
  · rw [List.mem_singleton.mp last]
    exact ⟨moduleId, _, registered, asked, found, .single needs⟩

variable {ask : Ask Token Value} (asks : AskFaithful environment container calls ask)
  (returns : AskReturns environment container calls ask)

include asks returns

theorem resolveDependency_returns (frame : Frame Token) (moduleId : ℕ)
    (dependency : Dependency Token) {state : State Token Value}
    (grantable : ∀ token ∈ container.needed moduleId [dependency],
      Grantable environment container calls frame token (some moduleId))
    (faithful : Faithful environment container calls state) :
    Returns (resolveDependency container ask frame moduleId dependency state) ∧
      Faithful environment container calls
        (resolveDependency container ask frame moduleId dependency state).2 := by
  unfold resolveDependency
  split
  · exact ⟨.ok, faithful⟩
  · rename_i token isToken
    split
    · exact ⟨.ok, faithful⟩
    · rename_i kept
      have granted := grantable token (by
        rw [← Option.isNone_iff_eq_none, ← Bool.and_eq_true, Bool.not_eq_true] at kept
        rw [Container.needed, List.filterMap_cons, isToken, Option.filter_some, kept,
          Bool.not_false, if_pos rfl]
        exact List.mem_cons_self)
      have answered := returns frame token (some moduleId) state granted faithful
      have keeps := (asks frame token (some moduleId) state granted.1 faithful).1
      split
      all_goals rename_i outcome
      all_goals rw [outcome] at answered keeps
      · exact ⟨answered.failed, keeps⟩
      · exact ⟨.ok, keeps⟩

theorem collect_returns (frame : Frame Token) (moduleId : ℕ) (deps : List (Dependency Token))
    {state : State Token Value}
    (grantable : ∀ token ∈ container.needed moduleId deps,
      Grantable environment container calls frame token (some moduleId))
    (faithful : Faithful environment container calls state) :
    Returns (collect (resolveDependency container ask frame moduleId) deps state) := by
  induction deps generalizing state with
  | nil => exact .ok
  | cons dependency rest ih =>
      have split : container.needed moduleId (dependency :: rest) =
          container.needed moduleId [dependency] ++ container.needed moduleId rest :=
        List.filterMap_append (l := [dependency])
      rw [split] at grantable
      have first := resolveDependency_returns asks returns frame moduleId dependency
        (fun token isNeeded => grantable token (List.mem_append_left _ isNeeded)) faithful
      rw [collect]
      split
      · rename_i failure after failed
        rw [failed] at first
        exact first.1.failed
      · rename_i result after finished
        rw [finished] at first
        have rest := ih (fun token isNeeded => grantable token (List.mem_append_right _ isNeeded))
          first.2
        split
        · rename_i failure last failed
          rw [failed] at rest
          exact rest
        · exact .ok

theorem build_returns (frame : Frame Token) (token : Token)
    {registered : RegisteredProvider Token Value} (deps : List (Dependency Token))
    (target : Option Token) {state : State Token Value}
    (requires : registered.dependencies environment = deps)
    (grantable : ∀ required ∈ registered.requirements environment container,
      Grantable environment container calls frame required (some registered.moduleId))
    (faithful : Faithful environment container calls state) :
    Returns (build environment container ask frame token registered deps target state) := by
  subst requires
  have collected := collect_returns asks returns frame registered.moduleId
    (registered.dependencies environment) grantable faithful
  unfold build
  split
  · rename_i failure after failed
    rw [failed] at collected
    exact collected.failed
  · unfold construct
    dsimp only
    split
    · rintro failure ⟨⟩
      exact .inl rfl
    · exact .ok

theorem instantiate_returns (frame : Frame Token) (token : Token)
    {registered : RegisteredProvider Token Value} {state : State Token Value}
    (instantiable : registered.Instantiable environment)
    (grantable : ∀ required ∈ registered.requirements environment container,
      Grantable environment container calls frame required (some registered.moduleId))
    (faithful : Faithful environment container calls state) :
    Returns (instantiate environment container ask frame token registered state) := by
  have ofClass : ∀ classType deps, environment.getConstructorDependencies classType = .ok deps →
      registered.dependencies environment =
        (environment.getConstructorDependencies classType).toOption.getD [] →
      Returns (instantiateClass environment container ask frame token registered classType
          state) := by
    intro classType deps known requires
    rw [known] at requires
    rw [instantiateClass, known]
    exact build_returns asks returns { frame with injectionTarget := some classType } token deps
      none requires grantable faithful
  unfold instantiate
  rw [RegisteredProvider.Instantiable] at instantiable
  split
  all_goals rename_i form
  all_goals simp only [form] at instantiable
  · obtain ⟨isClass, deps, known⟩ := instantiable
    rw [if_pos isClass]
    exact ofClass _ deps known (by rw [RegisteredProvider.dependencies, form])
  · obtain ⟨deps, known⟩ := instantiable
    exact ofClass _ deps known (by rw [RegisteredProvider.dependencies, form])
  · exact .ok
  · rename_i existing
    have isNeeded : existing ∈ registered.requirements environment container := by
      simp [RegisteredProvider.requirements, RegisteredProvider.dependencies, form,
        factoryDependencies, Container.needed]
    have answered := returns frame existing (some registered.moduleId) state
      (grantable existing isNeeded) faithful
    split
    · rename_i failure after failed
      rw [failed] at answered
      exact answered
    · exact .ok
  · exact build_returns asks returns frame token _ none
      (by rw [RegisteredProvider.dependencies, form]) grantable faithful
  · exact build_returns asks returns frame token _ _
      (by rw [RegisteredProvider.dependencies, form]) grantable faithful

end Returns

include keyed separate in
theorem resolveWithin_returns (depth : ℕ) :
    AskReturns environment container calls (resolveWithin environment container depth) := by
  induction depth with
  | zero =>
      rintro frame token moduleId state - - failure ⟨⟩
      exact .inr rfl
  | succ depth ih =>
      rintro frame token moduleId state ⟨asked, registered, found, resolvable, above⟩ faithful
      have recorded : Faithful environment container calls
          { state with requests := state.requests ++ [⟨frame.chain, token⟩] } :=
        ⟨faithful.singletons, faithful.contexts, faithful.answers, faithful.made⟩
      have own := keyed.token_of_find found
      have fresh : token ∉ frame.chain := by
        intro inChain
        obtain ⟨otherId, context, first, askedFirst, foundFirst, needs⟩ := above token inChain
        have same := separate.unrepeated token otherId context first askedFirst foundFirst
          registered needs own
        exact resolvable.acyclic (same ▸ needs)
      cases resolvable with
      | intro inScope instantiable known resolvable =>
          rw [resolveWithin, if_neg fresh]
          split
          · rename_i given isHeld
            obtain ⟨id, inContext, stored⟩ := Option.bind_eq_some_iff.mp isHeld
            obtain ⟨otherId, other, askedOther, foundOther, scope, -⟩ :=
              faithful.contexts id token given stored
            have same := separate.requests token otherId id other askedOther foundOther scope
              moduleId (inContext ▸ asked)
            cases found.symm.trans same
            rw [if_neg (by simp [(inScope scope).1])]
            exact .ok
          · rw [found]
            unfold resolveRegistered
            dsimp only
            split
            · exact .ok
            · rw [if_neg (by rintro ⟨isRequest, below⟩; simp [(inScope isRequest).1] at below),
                if_neg (by rintro ⟨isRequest, absent⟩; exact (inScope isRequest).2 absent)]
              have made := @instantiate_returns _ _ _ _ _ _ _
                (resolveWithin_faithful keyed separate depth) ih _ token registered _ instantiable
                (grantable_of_asked asked found known resolvable above) recorded
              split
              · rename_i failure after failed
                rw [failed] at made
                exact made
              · exact .ok

theorem faithful_of_run {labels : List (Label Token Value)} {state : State Token Value}
    (run : (system environment container).Run labels state)
    (made : ∀ label ∈ labels, ∃ call ∈ calls, label = call.label) :
    Faithful environment container calls state := by
  induction run with
  | start initial =>
      cases initial
      exact ⟨nofun, nofun, nofun, nofun⟩
  | @step earlier label before after run taken ih =>
      have faithful := ih fun other isEarlier => made other (List.mem_append_left _ isEarlier)
      obtain ⟨call, isCall, rfl⟩ :=
        made label (List.mem_append_right _ (List.mem_singleton.mpr rfl))
      rw [show after = _ from taken]
      exact (resolveWithin_faithful keyed separate container.depth
        ⟨[], call.context, false, call.injectionTarget⟩ call.token call.requestingModuleId before
        (.call isCall) faithful).1

end Resolve

theorem Faithful.visible (keyed : container.Keyed)
    (faithful : Faithful environment container calls state) (sound : state.Sound []) :
    Visible container state where
  selected := by
    intro answer isAnswer
    obtain ⟨registered, found, produced, -⟩ := faithful.answers answer isAnswer
    refine ⟨registered, found, ?_⟩
    rw [← Origin.producer_erase]
    exact produced.producer
  shared := by
    have stored : ∀ answer ∈ state.answers, ∀ registered : RegisteredProvider Token Value,
        registered.provider.scope = .singleton → answer.given.origin.producer = some registered →
        state.singletons registered.provider.token = some answer.given := by
      intro answer isAnswer registered scope isProducer
      obtain ⟨selected, found, produced, shared⟩ := faithful.answers answer isAnswer
      have same : selected = registered := by
        rw [← Origin.producer_erase, produced.producer] at isProducer
        exact Option.some.inj isProducer
      subst same
      rw [keyed.token_of_find found]
      exact shared scope
    intro first isFirst second isSecond registered scope byFirst bySecond
    have same := (stored first isFirst registered scope byFirst).symm.trans
      (stored second isSecond registered scope bySecond)
    rw [Option.some.inj same]
  once := by
    refine sound.once.imp_of_mem ?_
    intro first second isFirst isSecond distinct scope same
    have firstSlot : Slot.singleton first.token ∈ first.slot := by
      simp [Work.slot, slotFor, scope]
    have secondSlot : Slot.singleton first.token ∈ second.slot := by
      have sameToken : second.token = first.token := by
        rw [← faithful.made second isSecond, ← faithful.made first isFirst, same]
      simp [Work.slot, slotFor, ← same, scope, sameToken]
    exact distinct _ firstSlot secondSlot

/-- A call that returned after one run returns after every other run, unless the code of a provider
throws. -/
def Steady (environment : Environment Token Value) (container : Container Token Value)
    (call : Call Token) (state other : State Token Value) : Prop :=
  let outcome (before : State Token Value) := (container.resolve environment call.token
    call.requestingModuleId call.context call.injectionTarget before).1
  ∀ given, outcome state = .ok given → (∃ again, outcome other = .ok again) ∨
    outcome other = .error .thrown

theorem Faithful.steady (keyed : container.Keyed) {call : Call Token}
    {first second : List (Call Token)} {other : State Token Value} (isFirst : call ∈ first)
    (isSecond : call ∈ second) (separate : Separate environment container first)
    (faithful : Faithful environment container first state)
    (otherSeparate : Separate environment container second)
    (otherFaithful : Faithful environment container second other)
    (reachable : (system environment container).Reachable other) :
    Steady environment container call state other := by
  intro given returned
  obtain ⟨registered, found, -, resolvable⟩ := (resolveWithin_faithful keyed separate
    container.depth ⟨[], call.context, false, call.injectionTarget⟩ call.token
    call.requestingModuleId state (.call isFirst) faithful).2 given returned
  have returns := resolveWithin_returns keyed otherSeparate container.depth
    ⟨[], call.context, false, call.injectionTarget⟩ call.token call.requestingModuleId other
    ⟨.call isSecond, registered, found, resolvable, nofun⟩ otherFaithful
  have ends := (safeCall_of_reachable reachable call.token call.requestingModuleId call.context
    call.injectionTarget).ends
  rw [Container.resolve] at ends ⊢
  cases outcome : (resolveWithin environment container container.depth
      ⟨[], call.context, false, call.injectionTarget⟩ call.token call.requestingModuleId
          other).1 with
  | ok again => exact .inl ⟨again, outcome⟩
  | error failure =>
      rcases returns failure outcome with rfl | rfl
      · exact .inr outcome
      · exact absurd outcome ends

/-- Where the calls keep different providers of a token apart, providers are visible as their
modules declare them, and neither the providers behind an answer nor whether a call returns depends
on the run. -/
theorem visible_of_separate {definition : ModuleDefinition Token Value}
    (compiled : Container.compile definition = .ok container)
    (separate : Separate environment container calls) {state : State Token Value}
    (run : (system environment container).Run (calls.map Call.label) state) :
    Visible container state ∧
      (∀ (others : List (Call Token)) (other : State Token Value),
        Separate environment container others →
        (system environment container).Run (others.map Call.label) other →
        ∀ answer ∈ state.answers, ∀ second ∈ other.answers, second.token = answer.token →
          second.requestingModuleId = answer.requestingModuleId →
          second.given.origin.erase = answer.given.origin.erase) ∧
      ∀ (call : Call Token) (others : List (Call Token)) (other : State Token Value),
        Separate environment container (call :: calls) →
        Separate environment container (call :: others) →
        (system environment container).Run (others.map Call.label) other →
        Steady environment container call state other := by
  have keyed := Container.keyed_of_compile compiled
  have isCall : ∀ (made : List (Call Token)), ∀ label ∈ made.map (@Call.label Token Value),
      ∃ call ∈ made, label = call.label := by
    intro made label isLabel
    obtain ⟨call, isMade, rfl⟩ := List.mem_map.mp isLabel
    exact ⟨call, isMade, rfl⟩
  have faithful := faithful_of_run keyed separate run (isCall calls)
  refine ⟨faithful.visible keyed (sound_of_reachable ⟨_, run⟩), ?_, ?_⟩
  · intro others other otherSeparate otherRun answer isAnswer second isSecond sameToken sameModule
    have otherFaithful := faithful_of_run keyed otherSeparate otherRun (isCall others)
    obtain ⟨registered, found, produced, -⟩ := faithful.answers answer isAnswer
    obtain ⟨selected, foundOther, producedOther, -⟩ := otherFaithful.answers second isSecond
    rw [sameToken, sameModule, found] at foundOther
    cases foundOther
    exact producedOther.unique produced
  · intro call others other separate otherSeparate otherRun
    have among : ∀ (made : List (Call Token)), ∀ label ∈ made.map (@Call.label Token Value),
        ∃ earlier ∈ call :: made, label = earlier.label := by
      intro made label isLabel
      obtain ⟨earlier, isMade, same⟩ := isCall made label isLabel
      exact ⟨earlier, List.mem_cons_of_mem _ isMade, same⟩
    exact (faithful_of_run keyed separate run (among calls)).steady keyed List.mem_cons_self
      List.mem_cons_self separate otherSeparate
      (faithful_of_run keyed otherSeparate otherRun (among others)) ⟨_, otherRun⟩

theorem Visible.producer_eq (visible : Visible container state) :
    ∀ answer ∈ state.answers, answer.given.origin.producer =
      container.findRegisteredProvider answer.token answer.requestingModuleId := by
  intro answer isAnswer
  obtain ⟨registered, found, produced⟩ := visible.selected answer isAnswer
  rw [found, produced]

/-- The classes `10` and `20` take a class `5`. -/
def clockClasses : Environment ℕ ℕ where
  isClass _ := true
  hasPrototype _ := true
  getParameters classType :=
    if classType = 5 then some [] else some [⟨"clock", some 5, false, false⟩]
  construct call _ _ _ := some call

/-- Two modules with a value of their own for the class `5`, which neither exports. -/
def clockModules : ModuleDefinition ℕ ℕ :=
  .define [] [] [.define [.useValue 5 100, .plain 10] [] [] [10],
    .define [.useValue 5 200, .plain 20] [] [] [20]] []

/-- The second module is given the value of the first one. -/
theorem clock_of_other_module : ∃ container state,
    Container.compile clockModules = .ok container ∧
    (system clockClasses container).Run
      ([⟨10, none, none, none⟩, ⟨20, none, none, none⟩].map Call.label) state ∧
    container.findRegisteredProvider 5 (some 2) = some ⟨.useValue 5 200, 2⟩ ∧
    (∃ answer ∈ state.answers, answer.token = 5 ∧ answer.requestingModuleId = some 2 ∧
      answer.given.value = 100) ∧ ¬ Visible container state := by
  refine ⟨_, _, rfl, ((TransitionSystem.Run.start rfl).step rfl).step rfl, by decide +kernel,
    by decide +kernel, ?_⟩
  intro visible
  have agrees := visible.producer_eq
  revert agrees
  decide +kernel

theorem clockPlaces {container : Container ℕ ℕ}
    (compiled : Container.compile clockModules = .ok container) {calls : List (Call ℕ)}
    (made : calls ⊆ [⟨10, none, none, none⟩, ⟨5, some 1, none, none⟩]) {token : ℕ}
    (asked : Asked clockClasses container calls token moduleId context) :
    token = 10 ∧ moduleId = none ∧ context = none ∨
      token = 5 ∧ moduleId = some 1 ∧ context = none := by
  have foundClass : container.findRegisteredProvider 10 none = some ⟨.plain 10, 1⟩ := by
    cases compiled
    decide +kernel
  have foundValue : container.findRegisteredProvider 5 (some 1) = some ⟨.useValue 5 100, 1⟩ := by
    cases compiled
    decide +kernel
  have needed : RegisteredProvider.requirements clockClasses container ⟨.plain 10, 1⟩ = [5] := by
    cases compiled
    decide +kernel
  induction asked with
  | call isMade =>
      have isOne := made isMade
      simp only [List.mem_cons, List.not_mem_nil, or_false] at isOne
      rcases isOne with rfl | rfl
      · exact .inl ⟨rfl, rfl, rfl⟩
      · exact .inr ⟨rfl, rfl, rfl⟩
  | dependency asked found requires ih =>
      rcases ih with ⟨rfl, rfl, rfl⟩ | ⟨rfl, rfl, rfl⟩
      · cases foundClass.symm.trans found
        rw [needed] at requires
        exact .inr ⟨List.mem_singleton.mp requires, rfl, rfl⟩
      · cases foundValue.symm.trans found
        cases requires

theorem clockSeparate {container : Container ℕ ℕ}
    (compiled : Container.compile clockModules = .ok container) {calls : List (Call ℕ)}
    (made : calls ⊆ [⟨10, none, none, none⟩, ⟨5, some 1, none, none⟩]) :
    Separate clockClasses container calls := by
  constructor
  · intro token moduleId context first asked found _ otherId otherContext second otherAsked
      otherFound _
    have same : otherId = moduleId := by
      rcases clockPlaces compiled made asked with place | place <;>
        rcases clockPlaces compiled made otherAsked with other | other <;> simp_all
    subst same
    exact Option.some.inj (otherFound.symm.trans found)
  · intro token moduleId context first asked
    rcases clockPlaces compiled made asked with place | place <;> simp at place
  · intro token moduleId context first asked found second needs own
    obtain ⟨required, otherId, otherAsked, otherFound⟩ := asked.reaches found needs
    have same : required = token :=
      ((Container.keyed_of_compile compiled).token_of_find otherFound).symm.trans own
    have sameId : otherId = moduleId := by
      rcases clockPlaces compiled made asked with place | place <;>
        rcases clockPlaces compiled made otherAsked with other | other <;> simp_all
    subst same sameId
    exact Option.some.inj (otherFound.symm.trans found)

/-- The value of the first module, asked for by the module itself and through its class. -/
theorem clock_of_own_module : ∃ container state,
    Container.compile clockModules = .ok container ∧
    (system clockClasses container).Run
      ([⟨10, none, none, none⟩, ⟨5, some 1, none, none⟩].map Call.label) state ∧
    state.answers.length = 3 ∧ Visible container state ∧
      Steady clockClasses container ⟨10, none, none, none⟩ state .initial := by
  obtain ⟨container, compiled⟩ : ∃ container, Container.compile clockModules = .ok container :=
    ⟨_, rfl⟩
  have run : (system clockClasses container).Run
      ([⟨10, none, none, none⟩, ⟨5, some 1, none, none⟩].map Call.label) _ :=
    ((TransitionSystem.Run.start rfl).step rfl).step rfl
  obtain ⟨visible, -, steady⟩ := visible_of_separate compiled
    (clockSeparate compiled (List.Subset.refl _)) run
  refine ⟨container, _, compiled, run, ?_, visible, ?_⟩
  · cases compiled
    decide +kernel
  · exact steady ⟨10, none, none, none⟩ [] .initial (clockSeparate compiled (by simp))
      (clockSeparate compiled (by simp)) (.start rfl)

end ServerFoundation.Di
