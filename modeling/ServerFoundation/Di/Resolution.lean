import ServerFoundation.Di.Container
import ServerFoundation.Data.TransitionSystem

/-!
# Resolution

`Container.resolve` with its two caches. Constructors and factories are arbitrary code
that may throw; what they return may depend on everything that happened before. An
instance is kept with its origin, the tree of providers it was built from, and the
state keeps a record of what has happened.
-/

namespace ServerFoundation.Di

/-- A constructor parameter: the class that is its type, if it is one, and whether it may be
left out. -/
structure Parameter (Token : Type) where
  name : String
  classType : Option Token
  isOptional : Bool
  hasDefault : Bool

/-- The classes and the code of an application. -/
structure Environment (Token Value : Type) where
  isClass : Token → Bool
  hasPrototype : Token → Bool
  /-- The reflected parameters of a constructor; none without metadata. -/
  getParameters : Token → Option (List (Parameter Token))
  /-- What the code of a provider returns at a call, for a target and its arguments. -/
  construct : ℕ → RegisteredProvider Token Value → Option Token → List (Option Value) → Option Value

/-- What an instance was built from. -/
inductive Origin (Token Value : Type) where
  | value (provider : RegisteredProvider Token Value)
  | alias (provider : RegisteredProvider Token Value) (target : Origin Token Value)
  | built (provider : RegisteredProvider Token Value) (args : List (Origin Token Value))
  | held (instance_ : Origin Token Value)
  | placed

/-- A value with its origin. -/
structure Instance (Token Value : Type) where
  value : Value
  origin : Origin Token Value

/-- A call of `resolve`: the chain, and the token it asks for. -/
structure Request (Token : Type) where
  chain : List Token
  token : Token

/-- A call of `resolve` that returned. -/
structure Answer (Token Value : Type) where
  token : Token
  requestingModuleId : Option ℕ
  given : Instance Token Value

/-- The instantiation of a provider. -/
structure Work (Token Value : Type) where
  token : Token
  provider : RegisteredProvider Token Value
  context : Option ℕ

/-- The caches of the container and of the request contexts, and what has happened so far. -/
structure State (Token Value : Type) where
  singletons : Token → Option (Instance Token Value)
  contexts : ℕ → Token → Option (Instance Token Value)
  calls : ℕ
  requests : List (Request Token)
  answers : List (Answer Token Value)
  constructions : List (Work Token Value)
  unwound : List (Work Token Value)

/-- What a call comes to. -/
abbrev Outcome (Token Value Result : Type) := Except (Failure Token) Result × State Token Value

/-- The parameters of a call of `resolve` that its nested calls take over. -/
structure Frame (Token : Type) where
  chain : List Token
  context : Option ℕ
  singletonInChain : Bool
  injectionTarget : Option Token

section Resolution

variable {Token Value : Type} [DecidableEq Token]

/-- A dependency: none where no token can be told, and whether it may be left out. -/
structure Dependency (Token : Type) where
  token : Option Token
  optional : Bool

namespace Environment

variable (environment : Environment Token Value)

/-- `getConstructorDependencies`. -/
def getConstructorDependencies (classType : Token) :
    Except (Failure Token) (List (Dependency Token)) :=
  match environment.getParameters classType with
  | none => .error (.noMetadata classType)
  | some parameters =>
      match parameters.find? fun parameter =>
          parameter.classType.isNone && !(parameter.isOptional || parameter.hasDefault) with
      | some parameter => .error (.unresolvableParameter classType parameter.name)
      | none => .ok (parameters.map fun parameter =>
          ⟨parameter.classType, parameter.isOptional || parameter.hasDefault⟩)

/-- `getInjectionTarget`. -/
def getInjectionTarget (chain : List Token) : Option Token :=
  chain.dropLast.reverse.find? environment.hasPrototype

end Environment

namespace State

variable (state : State Token Value)

/-- Nothing is cached yet. -/
def initial : State Token Value := ⟨fun _ => none, fun _ _ => none, 0, [], [], [], []⟩

/-- The instance a context holds for a token. -/
def held (context : Option ℕ) (token : Token) : Option (Instance Token Value) :=
  context.bind fun id => state.contexts id token

/-- Puts an instance into a context. -/
def hold (context : ℕ) (token : Token) (given : Instance Token Value) : State Token Value :=
  { state with
    contexts := Function.update state.contexts context
      (Function.update (state.contexts context) token (some given)) }

/-- Stores a new instance by the scope of its provider. -/
def store (scope : Scope) (context : Option ℕ) (token : Token) (given : Instance Token Value) :
    State Token Value :=
  match scope, context with
  | .singleton, _ =>
    { state with singletons := Function.update state.singletons token (some given) }
  | .request, some context => state.hold context token given
  | _, _ => state

end State

/-- Resolves dependencies in order, until one fails. -/
def collect {Item Result : Type} (ask : Item → State Token Value → Outcome Token Value Result) :
    List Item → State Token Value → Outcome Token Value (List Result)
  | [], state => (.ok [], state)
  | item :: rest, state =>
      match ask item state with
      | (.error failure, after) => (.error failure, after)
      | (.ok result, after) =>
          match collect ask rest after with
          | (.error failure, last) => (.error failure, last)
          | (.ok results, last) => (.ok (result :: results), last)

section Instantiate

variable (environment : Environment Token Value) (container : Container Token Value)

/-- A nested call of `resolve`. -/
abbrev Ask (Token Value : Type) :=
  Frame Token → Token → Option ℕ → State Token Value → Outcome Token Value (Instance Token Value)

/-- Calls the code of a provider. -/
def construct (registered : RegisteredProvider Token Value) (token : Token) (context : Option ℕ)
    (target : Option Token) (args : List (Option (Instance Token Value)))
    (state : State Token Value) : Outcome Token Value (Instance Token Value) :=
  let called := { state with calls := state.calls + 1 }
  match environment.construct state.calls registered target
      (args.map fun arg => arg.map Instance.value) with
  | none => (.error .thrown, called)
  | some value =>
      (.ok ⟨value, .built registered ((args.filterMap id).map Instance.origin)⟩,
        { called with constructions := called.constructions ++ [⟨token, registered, context⟩] })

/-- Resolves one dependency of a provider. -/
def resolveDependency (ask : Ask Token Value) (frame : Frame Token) (moduleId : ℕ)
    (dependency : Dependency Token) (state : State Token Value) :
    Outcome Token Value (Option (Instance Token Value)) :=
  match dependency.token with
  | none => (.ok none, state)
  | some token =>
      if dependency.optional = true ∧
          container.findRegisteredProvider token (some moduleId) = none then (.ok none, state)
      else
        match ask frame token (some moduleId) state with
        | (.error failure, after) => (.error failure, after)
        | (.ok given, after) => (.ok (some given), after)

/-- Resolves the dependencies of a provider and calls its code. -/
def build (ask : Ask Token Value) (frame : Frame Token) (token : Token)
    (registered : RegisteredProvider Token Value) (deps : List (Dependency Token))
    (target : Option Token) (state : State Token Value) :
    Outcome Token Value (Instance Token Value) :=
  match collect (resolveDependency container ask frame registered.moduleId) deps state with
  | (.error failure, after) => (.error failure, after)
  | (.ok args, after) => construct environment registered token frame.context target args after

/-- `instantiateClass`. -/
def instantiateClass (ask : Ask Token Value) (frame : Frame Token) (token : Token)
    (registered : RegisteredProvider Token Value) (classType : Token) (state : State Token Value) :
    Outcome Token Value (Instance Token Value) :=
  match environment.getConstructorDependencies classType with
  | .error failure => (.error failure, state)
  | .ok deps =>
      build environment container ask { frame with injectionTarget := some classType } token
        registered deps none state

/-- The dependencies that a factory names. -/
def factoryDependencies (deps : List Token) : List (Dependency Token) :=
  deps.map fun token => ⟨some token, false⟩

/-- `instantiate`, for a frame whose chain ends with the token. -/
def instantiate (ask : Ask Token Value) (frame : Frame Token) (token : Token)
    (registered : RegisteredProvider Token Value) (state : State Token Value) :
    Outcome Token Value (Instance Token Value) :=
  match registered.provider with
  | .plain classType =>
      if environment.isClass classType then
        instantiateClass environment container ask frame token registered classType state
      else (.error (.notConstructable classType), state)
  | .useClass _ classType _ =>
      instantiateClass environment container ask frame token registered classType state
  | .useValue _ value => (.ok ⟨value, .value registered⟩, state)
  | .useExisting _ existing =>
      match ask frame existing (some registered.moduleId) state with
      | (.error failure, after) => (.error failure, after)
      | (.ok given, after) => (.ok ⟨given.value, .alias registered given.origin⟩, after)
  | .useFactory _ deps _ =>
      build environment container ask frame token registered (factoryDependencies deps) none state
  | .useTargetFactory _ deps _ =>
      build environment container ask frame token registered (factoryDependencies deps)
        (frame.injectionTarget.or (environment.getInjectionTarget frame.chain)) state

/-- Keeps an answer. -/
def State.answer (state : State Token Value) (token : Token) (requestingModuleId : Option ℕ)
    (given : Instance Token Value) : Outcome Token Value (Instance Token Value) :=
  (.ok given, { state with answers := state.answers ++ [⟨token, requestingModuleId, given⟩] })

/-- The part of `resolve` that has found a provider and no instance in the context. -/
def resolveRegistered (ask : Ask Token Value) (frame : Frame Token) (token : Token)
    (requestingModuleId : Option ℕ) (registered : RegisteredProvider Token Value)
    (state : State Token Value) : Outcome Token Value (Instance Token Value) :=
  let scope := registered.provider.scope
  match scope, state.singletons token with
  | .singleton, some given => state.answer token requestingModuleId given
  | _, _ =>
      if scope = .request ∧ frame.singletonInChain then
        (.error (.scopeMismatch token frame.chain), state)
      else if scope = .request ∧ frame.context = none then (.error (.requestScope token), state)
      else
        let nested := { frame with
          chain := frame.chain ++ [token]
          singletonInChain := frame.singletonInChain || scope = .singleton }
        match instantiate environment container ask nested token registered state with
        | (.error failure, after) =>
            (.error failure, { after with
              unwound := after.unwound ++ [⟨token, registered, frame.context⟩] })
        | (.ok given, after) =>
            (after.store scope frame.context token given).answer token requestingModuleId given

/-- `resolve`, with a bound on the depth of its recursion. -/
def resolveWithin : ℕ → Ask Token Value
  | 0, _, _, _, state => (.error .exhausted, state)
  | depth + 1, frame, token, requestingModuleId, state =>
      let asked := { state with requests := state.requests ++ [⟨frame.chain, token⟩] }
      if token ∈ frame.chain then (.error (.cyclicDependency (frame.chain ++ [token])), asked)
      else
        match asked.held frame.context token with
        | some given =>
            if frame.singletonInChain then (.error (.scopeMismatch token frame.chain), asked)
            else asked.answer token requestingModuleId ⟨given.value, .held given.origin⟩
        | none =>
            match container.findRegisteredProvider token requestingModuleId with
            | none => (.error (.providerNotFound token frame.chain), asked)
            | some registered =>
                resolveRegistered environment container (resolveWithin depth) frame token
                  requestingModuleId registered asked

/-- The depth that suffices: a chain never holds a token twice. -/
def Container.depth : ℕ := container.tokens.length + 1

/-- `resolve` as it is called from outside. -/
def Container.resolve (token : Token) (requestingModuleId context : Option ℕ)
    (injectionTarget : Option Token) :
    State Token Value → Outcome Token Value (Instance Token Value) :=
  resolveWithin environment container container.depth ⟨[], context, false, injectionTarget⟩ token
    requestingModuleId

/-- What an application does with its container. -/
inductive Label (Token Value : Type) where
  | resolve (token : Token) (requestingModuleId context : Option ℕ) (injectionTarget : Option Token)
  /-- A value is put into `RequestContext.instances`. -/
  | place (context : ℕ) (token : Token) (value : Value)

/-- One step of an application. -/
def State.step (state : State Token Value) : Label Token Value → State Token Value
  | .resolve token requestingModuleId context injectionTarget =>
      (container.resolve environment token requestingModuleId context injectionTarget state).2
  | .place context token value => state.hold context token ⟨value, .placed⟩

/-- The runs of an application. -/
def system : TransitionSystem (State Token Value) (Label Token Value) where
  Init state := state = .initial
  Step before label after := after = before.step environment container label

end Instantiate

end Resolution

end ServerFoundation.Di
