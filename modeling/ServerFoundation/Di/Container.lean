import ServerFoundation.Data.OrderedMap

/-!
# Providers and modules

The providers of a container and the modules that declare, import and export them.
Compiling the root module gives every module a record of its own, in the order in which
the imports are walked. A request from a module finds the provider of the module
first, then an imported one, and then a provider of the root or a global export.
-/

namespace ServerFoundation.Di

/-- A scope a provider may ask for; `http` is a name for the scope of a request. -/
inductive ProviderScope where
  | singleton
  | transient
  | request
  | http
deriving DecidableEq, Repr

/-- The forms of a provider. A provider that is not structured is its own token. -/
inductive Provider (Token Value : Type) where
  | plain (classType : Token)
  | useClass (provide classType : Token) (scope : Option ProviderScope)
  | useValue (provide : Token) (value : Value)
  | useExisting (provide existing : Token)
  | useFactory (provide : Token) (deps : List Token) (scope : Option ProviderScope)
  | useTargetFactory (provide : Token) (deps : List Token) (scope : Option ProviderScope)
deriving DecidableEq

/-- The scopes that are told apart. -/
inductive Scope where
  | singleton
  | transient
  | request
deriving DecidableEq, Repr

/-- The scope of a request has two names. -/
def ProviderScope.normalize : ProviderScope → Scope
  | .singleton => .singleton
  | .transient => .transient
  | .request => .request
  | .http => .request

namespace Provider

variable {Token Value : Type}

/-- `getProviderToken`. -/
def token : Provider Token Value → Token
  | .plain classType => classType
  | .useClass provide _ _ => provide
  | .useValue provide _ => provide
  | .useExisting provide _ => provide
  | .useFactory provide _ _ => provide
  | .useTargetFactory provide _ _ => provide

/-- `getProviderScope`. -/
def scope : Provider Token Value → Scope
  | .plain _ => .singleton
  | .useClass _ _ scope => (scope.getD .singleton).normalize
  | .useValue _ _ => .singleton
  | .useExisting _ _ => .transient
  | .useFactory _ _ scope => (scope.getD .singleton).normalize
  | .useTargetFactory _ _ scope => (scope.getD .transient).normalize

end Provider

/-- A provider with the module that declares it. -/
structure RegisteredProvider (Token Value : Type) where
  provider : Provider Token Value
  moduleId : ℕ
deriving DecidableEq

/-- A module definition. -/
inductive ModuleDefinition (Token Value : Type) where
  | define (providers : List (Provider Token Value)) (listeners : List Token)
      (imports : List (ModuleDefinition Token Value)) (exports : List Token)

/-- What a container knows of a module. -/
structure ModuleRecord (Token Value : Type) where
  localProviders : OrderedMap Token (RegisteredProvider Token Value)
  importedProviders : OrderedMap Token (RegisteredProvider Token Value)
  exportedProviders : OrderedMap Token (RegisteredProvider Token Value)

/-- The errors of a container. The last one stands for a recursion that is cut off. -/
inductive Failure (Token : Type) where
  | cyclicDependency (chain : List Token)
  | providerNotFound (token : Token) (chain : List Token)
  | duplicateProvider (token : Token) (scope : String)
  | requestScope (token : Token)
  | scopeMismatch (token : Token) (chain : List Token)
  | notConstructable (provider : Token)
  | unresolvableParameter (classType : Token) (parameter : String)
  | noMetadata (classType : Token)
  | thrown
  | exhausted
deriving DecidableEq, Repr

/-- A compiled container. A module is found by its position. -/
structure Container (Token Value : Type) where
  modules : List (ModuleRecord Token Value)
  rootProviders : OrderedMap Token (RegisteredProvider Token Value)
  exportedProviders : OrderedMap Token (RegisteredProvider Token Value)

section Compile

variable {Token Value : Type} [DecidableEq Token]

/-- Registers the providers and listeners of a module. -/
def registerProviders (providers : List (Provider Token Value)) (listeners : List Token)
    (moduleId : ℕ) : OrderedMap Token (RegisteredProvider Token Value) :=
  (providers ++ listeners.map Provider.plain).foldl
    (fun registered (provider : Provider Token Value) =>
      registered.set provider.token ⟨provider, moduleId⟩) .empty

namespace Container

/-- A container without modules. -/
def empty : Container Token Value := ⟨[], .empty, .empty⟩

/-- `addModule`, with the providers of the module. -/
def addModule (container : Container Token Value)
    (providers : OrderedMap Token (RegisteredProvider Token Value)) : Container Token Value :=
  { container with modules := container.modules ++ [⟨providers, .empty, .empty⟩] }

/-- `addImportedExports`: the first import of a token counts. -/
def addImportedExports (container : Container Token Value) (moduleId importedId : ℕ) :
    Container Token Value :=
  match container.modules[importedId]? with
  | some imported =>
      { container with
        modules := container.modules.modify moduleId fun record =>
          { record with
            importedProviders := imported.exportedProviders.entries.foldl
              (fun known entry => if entry.1 ∈ known.keys then known else known.set entry.1 entry.2)
              record.importedProviders } }
  | none => container

/-- Exports the tokens of a module, to everyone where it is imported by the root. -/
def registerExports (moduleId : ℕ) (exposeExportsGlobally : Bool) :
    List Token → Container Token Value → Except (Failure Token) (Container Token Value)
  | [], container => .ok container
  | token :: rest, container =>
      match container.modules[moduleId]?.bind fun record =>
          (record.localProviders.get? token).or (record.importedProviders.get? token) with
      | none => .error (.providerNotFound token [])
      | some registered =>
          if exposeExportsGlobally ∧ token ∈ container.exportedProviders.keys then
            .error (.duplicateProvider token "global exports")
          else
            registerExports moduleId exposeExportsGlobally rest
              { container with
                modules := container.modules.modify moduleId fun record =>
                  { record with exportedProviders := record.exportedProviders.set token registered }
                exportedProviders :=
                  if exposeExportsGlobally then container.exportedProviders.set token registered
                  else container.exportedProviders }

mutual

/-- `compileImportedModule`. -/
def compileImportedModule :
    ModuleDefinition Token Value → Bool → Container Token Value →
      Except (Failure Token) (Container Token Value)
  | .define providers listeners imports exports, exposeExportsGlobally, container =>
      let moduleId := container.modules.length
      match compileImports imports moduleId false
          (container.addModule (registerProviders providers listeners moduleId)) with
      | .error failure => .error failure
      | .ok imported => registerExports moduleId exposeExportsGlobally exports imported

/-- Compiles the imports of a module and takes over what they export. -/
def compileImports :
    List (ModuleDefinition Token Value) → ℕ → Bool → Container Token Value →
      Except (Failure Token) (Container Token Value)
  | [], _, _, container => .ok container
  | imported :: rest, moduleId, exposeExportsGlobally, container =>
      match compileImportedModule imported exposeExportsGlobally container with
      | .error failure => .error failure
      | .ok compiled =>
          compileImports rest moduleId exposeExportsGlobally
            (compiled.addImportedExports moduleId container.modules.length)

end

/-- `compile`. -/
def compile : ModuleDefinition Token Value → Except (Failure Token) (Container Token Value)
  | .define providers listeners imports _ =>
      let registered := registerProviders providers listeners 0
      compileImports imports 0 true
        { (empty : Container Token Value).addModule registered with rootProviders := registered }

/-- `findRegisteredProvider`. -/
def findRegisteredProvider (container : Container Token Value) (token : Token)
    (requestingModuleId : Option ℕ) : Option (RegisteredProvider Token Value) :=
  let own := requestingModuleId.bind fun moduleId =>
    container.modules[moduleId]?.bind fun record =>
      (record.localProviders.get? token).or (record.importedProviders.get? token)
  own.or ((container.rootProviders.get? token).or (container.exportedProviders.get? token))

/-- The tokens of all providers. -/
def tokens (container : Container Token Value) : List Token :=
  container.rootProviders.keys ++ container.exportedProviders.keys ++
    container.modules.flatMap fun record =>
      record.localProviders.keys ++ record.importedProviders.keys

theorem mem_tokens_of_find {container : Container Token Value} {token : Token}
    {requestingModuleId : Option ℕ} {registered : RegisteredProvider Token Value}
    (found : container.findRegisteredProvider token requestingModuleId = some registered) :
    token ∈ container.tokens := by
  have key : ∀ (map : OrderedMap Token (RegisteredProvider Token Value)),
      map.get? token = some registered → token ∈ map.keys :=
    fun map stored => (map.mem_keys_iff token).mpr (by simp [stored])
  unfold findRegisteredProvider at found
  simp only [Option.or_eq_some_iff] at found
  simp only [tokens, List.mem_append, List.mem_flatMap]
  rcases found with own | ⟨-, root | ⟨-, exported⟩⟩
  · obtain ⟨moduleId, -, own⟩ := Option.bind_eq_some_iff.mp own
    obtain ⟨record, atModule, own⟩ := Option.bind_eq_some_iff.mp own
    refine .inr ⟨record, List.mem_of_getElem? atModule, ?_⟩
    rcases Option.or_eq_some_iff.mp own with locally | ⟨-, imported⟩
    · exact .inl (key _ locally)
    · exact .inr (key _ imported)
  · exact .inl (.inl (key _ root))
  · exact .inl (.inr (key _ exported))

end Container

end Compile

end ServerFoundation.Di
