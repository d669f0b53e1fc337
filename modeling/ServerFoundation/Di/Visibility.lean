import Mathlib.Logic.Relation
import ServerFoundation.Di.ResolutionSafety

/-!
# Visibility of providers

Which provider a request finds depends on the module that asks, but both caches are looked
up by the token alone. As long as no token is asked for from two places with different
providers that share a cache, every answer comes from the provider that its module selects,
with all that was built into it, and no earlier request makes a difference.
-/

namespace ServerFoundation.Di

section Origins

variable {Token Value : Type}

/-- The provider that made an instance. -/
def Origin.producer : Origin Token Value → Option (RegisteredProvider Token Value)
  | .value provider => some provider
  | .alias provider _ => some provider
  | .built provider _ => some provider
  | .held instance_ => instance_.producer
  | .placed => none

mutual

/-- What an instance was built from, no matter which parts a context held. -/
def Origin.erase : Origin Token Value → Origin Token Value
  | .value provider => .value provider
  | .alias provider target => .alias provider target.erase
  | .built provider args => .built provider (eraseAll args)
  | .held instance_ => instance_.erase
  | .placed => .placed

/-- What instances were built from. -/
def Origin.eraseAll : List (Origin Token Value) → List (Origin Token Value)
  | [] => []
  | origin :: rest => origin.erase :: eraseAll rest

end

end Origins

section Requirements

variable {Token Value : Type} [DecidableEq Token] (environment : Environment Token Value)
  (container : Container Token Value)

/-- A class or a factory is called for its instances. -/
def Provider.hasCode : Provider Token Value → Bool
  | .useValue _ _ | .useExisting _ _ => false
  | _ => true

/-- The dependencies of a provider. -/
def RegisteredProvider.dependencies (registered : RegisteredProvider Token Value) :
    List (Dependency Token) :=
  match registered.provider with
  | .plain classType | .useClass _ classType _ =>
      (environment.getConstructorDependencies classType).toOption.getD []
  | .useValue _ _ => []
  | .useExisting _ existing => factoryDependencies [existing]
  | .useFactory _ deps _ | .useTargetFactory _ deps _ => factoryDependencies deps

/-- The tokens that are asked for; an optional dependency without a provider is left out. -/
def Container.needed (moduleId : ℕ) (deps : List (Dependency Token)) : List Token :=
  deps.filterMap fun dependency => dependency.token.filter fun token =>
    !(dependency.optional && (container.findRegisteredProvider token (some moduleId)).isNone)

/-- The tokens that a provider asks for from its own module. -/
def RegisteredProvider.requirements (registered : RegisteredProvider Token Value) : List Token :=
  container.needed registered.moduleId (registered.dependencies environment)

mutual

/-- An instance of a provider, made from instances of the providers that its module selects. -/
inductive Produced : RegisteredProvider Token Value → Origin Token Value → Prop where
  | value {registered : RegisteredProvider Token Value} {provide : Token} {value : Value}
      (form : registered.provider = .useValue provide value) :
      Produced registered (.value registered)
  | existing {registered other : RegisteredProvider Token Value} {existing provide : Token}
      {target : Origin Token Value} (form : registered.provider = .useExisting provide existing)
      (found : container.findRegisteredProvider existing (some registered.moduleId) = some other)
      (produced : Produced other target) : Produced registered (.alias registered target)
  | built {registered : RegisteredProvider Token Value} {args : List (Origin Token Value)}
      (code : registered.provider.hasCode = true)
      (produced : ProducedAll registered.moduleId (registered.requirements environment container)
        args) : Produced registered (.built registered args)

/-- Instances of the providers that a module selects for its tokens. -/
inductive ProducedAll : ℕ → List Token → List (Origin Token Value) → Prop where
  | nil (moduleId : ℕ) : ProducedAll moduleId [] []
  | cons {moduleId : ℕ} {token : Token} {tokens : List Token} {origin : Origin Token Value}
      {origins : List (Origin Token Value)} {registered : RegisteredProvider Token Value}
      (found : container.findRegisteredProvider token (some moduleId) = some registered)
      (produced : Produced registered origin) (rest : ProducedAll moduleId tokens origins) :
      ProducedAll moduleId (token :: tokens) (origin :: origins)

end

/-- A call of `resolve` or `get` from outside. -/
structure Call (Token : Type) where
  token : Token
  requestingModuleId : Option ℕ
  context : Option ℕ
  injectionTarget : Option Token
deriving DecidableEq

/-- The step of a call. -/
def Call.label (call : Call Token) : Label Token Value :=
  .resolve call.token call.requestingModuleId call.context call.injectionTarget

/-- The places that the calls ask from, directly or through the dependencies of a provider. -/
inductive Asked (calls : List (Call Token)) : Token → Option ℕ → Option ℕ → Prop where
  | call {call : Call Token} (made : call ∈ calls) :
      Asked calls call.token call.requestingModuleId call.context
  | dependency {token required : Token} {moduleId context : Option ℕ}
      {registered : RegisteredProvider Token Value} (asked : Asked calls token moduleId context)
      (found : container.findRegisteredProvider token moduleId = some registered)
      (requires : required ∈ registered.requirements environment container) :
      Asked calls required (some registered.moduleId) context

/-- One provider needs another one. -/
def Requires (registered other : RegisteredProvider Token Value) : Prop :=
  ∃ token ∈ registered.requirements environment container,
    container.findRegisteredProvider token (some registered.moduleId) = some other

/-- No token is asked for from two places that select different providers, of which both are
singletons, or one belongs to the request for which the other is asked too; and no provider needs
another provider of its own token. -/
structure Separate (calls : List (Call Token)) : Prop where
  singletons : ∀ token moduleId context first,
    Asked environment container calls token moduleId context →
    container.findRegisteredProvider token moduleId = some first →
    first.provider.scope = .singleton →
    ∀ otherId otherContext second, Asked environment container calls token otherId otherContext →
      container.findRegisteredProvider token otherId = some second →
      second.provider.scope = .singleton → second = first
  requests : ∀ token moduleId context first,
    Asked environment container calls token moduleId (some context) →
    container.findRegisteredProvider token moduleId = some first → first.provider.scope = .request →
    ∀ otherId, Asked environment container calls token otherId (some context) →
      container.findRegisteredProvider token otherId = some first
  unrepeated : ∀ token moduleId context first,
    Asked environment container calls token moduleId context →
    container.findRegisteredProvider token moduleId = some first →
    ∀ second, Relation.TransGen (Requires environment container) first second →
      second.provider.token = token → second = first

/-- The class of a provider can be constructed, as far as its metadata says. -/
def RegisteredProvider.Instantiable (registered : RegisteredProvider Token Value) : Prop :=
  match registered.provider with
  | .plain classType => environment.isClass classType = true ∧
      ∃ deps, environment.getConstructorDependencies classType = .ok deps
  | .useClass _ classType _ => ∃ deps, environment.getConstructorDependencies classType = .ok deps
  | _ => True

/-- A provider from which an instance is made, for a request and below a singleton or not, unless
the code of a provider throws. -/
inductive Resolvable (context : Option ℕ) : Bool → RegisteredProvider Token Value → Prop
  | intro {inSingleton : Bool} {registered : RegisteredProvider Token Value}
      (inScope : registered.provider.scope = .request → inSingleton = false ∧ context ≠ none)
      (instantiable : registered.Instantiable environment)
      (known : ∀ token ∈ registered.requirements environment container,
        (container.findRegisteredProvider token (some registered.moduleId)).isSome)
      (resolvable : ∀ other, Requires environment container registered other →
        Resolvable context (inSingleton || registered.provider.scope = .singleton) other) :
      Resolvable context inSingleton registered

/-- Providers are visible as their modules declare them. -/
structure Visible (state : State Token Value) : Prop where
  selected : ∀ answer ∈ state.answers, ∃ registered,
    container.findRegisteredProvider answer.token answer.requestingModuleId = some registered ∧
      answer.given.origin.producer = some registered
  shared : ∀ first ∈ state.answers, ∀ second ∈ state.answers, ∀ registered,
    registered.provider.scope = .singleton → first.given.origin.producer = some registered →
      second.given.origin.producer = some registered → first.given.value = second.given.value
  once : state.constructions.Pairwise fun first second =>
    first.provider.provider.scope = .singleton → first.provider ≠ second.provider

end Requirements

section Keyed

variable {Token Value : Type} [DecidableEq Token]

/-- Every provider of a map is stored under its own token. -/
def KeyedMap (map : OrderedMap Token (RegisteredProvider Token Value)) : Prop :=
  ∀ token registered, map.get? token = some registered → registered.provider.token = token

/-- Every provider of a module is stored under its own token. -/
structure ModuleRecord.Keyed (record : ModuleRecord Token Value) : Prop where
  locals : KeyedMap record.localProviders
  imports : KeyedMap record.importedProviders
  exports : KeyedMap record.exportedProviders

/-- Every provider is stored under its own token. -/
structure Container.Keyed (container : Container Token Value) : Prop where
  modules : ∀ record ∈ container.modules, record.Keyed
  roots : KeyedMap container.rootProviders
  exports : KeyedMap container.exportedProviders

theorem KeyedMap.empty : KeyedMap (.empty : OrderedMap Token (RegisteredProvider Token Value)) :=
  nofun

theorem KeyedMap.set {map : OrderedMap Token (RegisteredProvider Token Value)}
    (keyed : KeyedMap map) {token : Token} {registered : RegisteredProvider Token Value}
    (own : registered.provider.token = token) : KeyedMap (map.set token registered) := by
  intro other found stored
  rw [OrderedMap.get?_set] at stored
  split at stored
  · rename_i same
    cases stored
    rw [own, same]
  · exact keyed other found stored

theorem registerProviders_keyed (providers : List (Provider Token Value)) (listeners : List Token)
    (moduleId : ℕ) : KeyedMap (registerProviders providers listeners moduleId) := by
  have step : ∀ (items : List (Provider Token Value))
      (known : OrderedMap Token (RegisteredProvider Token Value)), KeyedMap known →
      KeyedMap (items.foldl (fun registered (provider : Provider Token Value) =>
        registered.set provider.token ⟨provider, moduleId⟩) known) := by
    intro items
    induction items with
    | nil => exact fun _ keyed => keyed
    | cons provider rest ih => exact fun known keyed => ih _ (keyed.set rfl)
  exact step _ _ .empty

namespace Container

variable {container : Container Token Value}

theorem Keyed.modify (keyed : container.Keyed) (moduleId : ℕ)
    {change : ModuleRecord Token Value → ModuleRecord Token Value}
    (keeps : ∀ record, record.Keyed → (change record).Keyed) :
    ∀ record ∈ container.modules.modify moduleId change, record.Keyed := by
  intro record isRecord
  obtain ⟨position, inRange, rfl⟩ := List.mem_iff_getElem.mp isRecord
  rw [List.getElem_modify]
  split
  · exact keeps _ (keyed.modules _ (List.getElem_mem _))
  · exact keyed.modules _ (List.getElem_mem _)

theorem Keyed.addModule (keyed : container.Keyed)
    {providers : OrderedMap Token (RegisteredProvider Token Value)} (known : KeyedMap providers) :
    (container.addModule providers).Keyed := by
  refine ⟨?_, keyed.roots, keyed.exports⟩
  intro record isRecord
  rcases List.mem_append.mp isRecord with earlier | last
  · exact keyed.modules record earlier
  · rw [List.mem_singleton.mp last]
    exact ⟨known, .empty, .empty⟩

theorem Keyed.addImportedExports (keyed : container.Keyed) (moduleId importedId : ℕ) :
    (container.addImportedExports moduleId importedId).Keyed := by
  unfold Container.addImportedExports
  split
  · rename_i imported atModule
    have exported := (keyed.modules imported (List.mem_of_getElem? atModule)).exports
    refine ⟨keyed.modify moduleId ?_, keyed.roots, keyed.exports⟩
    intro record isKeyed
    refine ⟨isKeyed.locals, ?_, isKeyed.exports⟩
    have step : ∀ (entries : List (Token × RegisteredProvider Token Value))
        (known : OrderedMap Token (RegisteredProvider Token Value)),
        (∀ entry ∈ entries, entry.2.provider.token = entry.1) → KeyedMap known →
        KeyedMap (entries.foldl (fun known entry =>
          if entry.1 ∈ known.keys then known else known.set entry.1 entry.2) known) := by
      intro entries
      induction entries with
      | nil => exact fun _ _ keyed => keyed
      | cons entry rest ih =>
          intro known own keyed
          refine ih _ (fun other isOther => own other (List.mem_cons_of_mem _ isOther)) ?_
          dsimp only
          split
          · exact keyed
          · exact keyed.set (own entry List.mem_cons_self)
    refine step _ _ ?_ isKeyed.imports
    intro entry isEntry
    exact exported entry.1 entry.2 ((OrderedMap.get?_eq_some_iff _ _ _).mpr isEntry)
  · exact keyed

theorem Keyed.registerExports {moduleId : ℕ} {globally : Bool} {tokens : List Token}
    {exported : Container Token Value} (keyed : container.Keyed)
    (registered : registerExports moduleId globally tokens container = .ok exported) :
    exported.Keyed := by
  induction tokens generalizing container with
  | nil =>
      cases registered
      exact keyed
  | cons token rest ih =>
      rw [Container.registerExports] at registered
      split at registered
      · cases registered
      · rename_i provider found
        have own : provider.provider.token = token := by
          obtain ⟨record, atModule, known⟩ := Option.bind_eq_some_iff.mp found
          have isKeyed := keyed.modules record (List.mem_of_getElem? atModule)
          rcases Option.or_eq_some_iff.mp known with isLocal | ⟨-, isImported⟩
          · exact isKeyed.locals token provider isLocal
          · exact isKeyed.imports token provider isImported
        split at registered
        · cases registered
        · refine ih ?_ registered
          refine ⟨keyed.modify moduleId ?_, keyed.roots, ?_⟩
          · intro record isKeyed
            exact ⟨isKeyed.locals, isKeyed.imports, isKeyed.exports.set own⟩
          · dsimp only
            split
            · exact keyed.exports.set own
            · exact keyed.exports

mutual

theorem Keyed.compileImportedModule : ∀ (definition : ModuleDefinition Token Value)
    (globally : Bool) {container compiled : Container Token Value}, container.Keyed →
    Container.compileImportedModule definition globally container = .ok compiled → compiled.Keyed
  | .define providers listeners imports exports, globally, container, compiled, keyed, done => by
      rw [Container.compileImportedModule] at done
      split at done
      · cases done
      · rename_i imported finished
        exact (Keyed.compileImports imports _ false
          (keyed.addModule (registerProviders_keyed _ _ _)) finished).registerExports done

theorem Keyed.compileImports : ∀ (imports : List (ModuleDefinition Token Value)) (moduleId : ℕ)
    (globally : Bool) {container compiled : Container Token Value}, container.Keyed →
    Container.compileImports imports moduleId globally container = .ok compiled → compiled.Keyed
  | [], _, _, _, _, keyed, done => by
      cases done
      exact keyed
  | imported :: rest, moduleId, globally, container, compiled, keyed, done => by
      rw [Container.compileImports] at done
      split at done
      · cases done
      · rename_i between finished
        have first := Keyed.compileImportedModule imported globally keyed finished
        exact Keyed.compileImports rest moduleId globally (first.addImportedExports _ _) done

end

theorem keyed_of_compile {definition : ModuleDefinition Token Value}
    (compiled : compile definition = .ok container) : container.Keyed := by
  obtain ⟨providers, listeners, imports, exports⟩ := definition
  have registered := registerProviders_keyed providers listeners 0
  have nothing : (empty : Container Token Value).Keyed := ⟨nofun, .empty, .empty⟩
  have rooted := nothing.addModule registered
  refine Keyed.compileImports imports 0 true ?_ compiled
  exact ⟨rooted.modules, registered, rooted.exports⟩

theorem Keyed.token_of_find (keyed : container.Keyed) {token : Token} {moduleId : Option ℕ}
    {registered : RegisteredProvider Token Value}
    (found : container.findRegisteredProvider token moduleId = some registered) :
    registered.provider.token = token := by
  unfold findRegisteredProvider at found
  simp only [Option.or_eq_some_iff] at found
  rcases found with own | ⟨-, root | ⟨-, exported⟩⟩
  · obtain ⟨id, -, own⟩ := Option.bind_eq_some_iff.mp own
    obtain ⟨record, atModule, own⟩ := Option.bind_eq_some_iff.mp own
    have isKeyed := keyed.modules record (List.mem_of_getElem? atModule)
    rcases Option.or_eq_some_iff.mp own with isLocal | ⟨-, isImported⟩
    · exact isKeyed.locals token registered isLocal
    · exact isKeyed.imports token registered isImported
  · exact keyed.roots token registered root
  · exact keyed.exports token registered exported

end Container

end Keyed

end ServerFoundation.Di
