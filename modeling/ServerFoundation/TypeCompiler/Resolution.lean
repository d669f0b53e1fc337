import ServerFoundation.TypeCompiler.Modules

/-!
# Lookups against TypeScript's resolution

`Exports` is what TypeScript says a module exports: the explicit exports of a name, and where
there is none those of the `export *` targets. Only exported declarations count.

The walk of the compiler asks for less: any declaration under the name stops it, exported or
not, explicit exports of another kind do not, and of an interface that is declared several times
it takes the last declaration. `Unshadowed` and `LastDeclaresAll` say when none of this changes
the answer.
-/

namespace ServerFoundation.TypeCompiler

namespace SourceModule

/-- The module exports the name by a statement of its own. -/
def ExportsExplicitly (info : SourceModule) (name : String) : Prop :=
  (∃ declaration ∈ info.declarations, declaration.exported ∧ declaration.name = name) ∨
    (∃ item ∈ info.exportList, item.2 = name) ∨ ∃ entry ∈ info.reexports, entry.1 = name

/-- What TypeScript demands of a module: imported names are distinct and not declared again, and
its export statements name distinct exports. -/
structure WellFormed (info : SourceModule) : Prop where
  imports : (info.imports.map Prod.fst).Nodup
  apart : ∀ entry ∈ info.imports, ∀ declaration ∈ info.declarations, declaration.name ≠ entry.1
  exports : (info.reexports.map Prod.fst ++ info.exportList.map Prod.snd).Nodup

end SourceModule

namespace Registry

variable (reg : Registry)

/-- TypeScript finds, for a name exported by a module, a declaration's module and name there. -/
inductive Exports : ModuleName → ModuleName → Prop where
  | declared {key : ModuleKey} {info : SourceModule} {declaration : Declaration}
      (stored : reg.get? key = some info) (mem : declaration ∈ info.declarations)
      (exported : declaration.exported = true) :
      Exports (key, declaration.name) (key, declaration.name)
  | listed {key : ModuleKey} {info : SourceModule} {declaration : Declaration} {name : String}
      (stored : reg.get? key = some info) (item : (declaration.name, name) ∈ info.exportList)
      (mem : declaration ∈ info.declarations) : Exports (key, name) (key, declaration.name)
  | listedImport {key : ModuleKey} {info : SourceModule} {imported name : String} {ref : ImportRef}
      {target : ModuleName} (stored : reg.get? key = some info)
      (item : (imported, name) ∈ info.exportList) (isImport : (imported, ref) ∈ info.imports)
      (further : Exports (ref.source, ref.exportName) target) : Exports (key, name) target
  | reexported {key : ModuleKey} {info : SourceModule} {name : String} {ref : ImportRef}
      {target : ModuleName} (stored : reg.get? key = some info)
      (entry : (name, ref) ∈ info.reexports)
      (further : Exports (ref.source, ref.exportName) target) : Exports (key, name) target
  | star {key source : ModuleKey} {info : SourceModule} {name : String} {target : ModuleName}
      (stored : reg.get? key = some info) (implicit : ¬info.ExportsExplicitly name)
      (mem : source ∈ info.exportStar) (further : Exports (source, name) target) :
      Exports (key, name) target

/-- TypeScript resolves an imported name to one declaration only. -/
structure ResolvesImport (key : ModuleKey) (name : String) (start target : ModuleName) : Prop where
  wellFormed : ∀ key info, reg.get? key = some info → info.WellFormed
  imported : ∃ info ref, reg.get? key = some info ∧ (name, ref) ∈ info.imports ∧
    start = (ref.source, ref.exportName)
  resolves : reg.Exports start target
  unambiguous : ∀ other, reg.Exports start other → other = target

/-- A pair names a declaration of a kind. -/
def Declares (kind : DeclarationKind) (node : ModuleName) : Prop :=
  (reg.localDeclaration kind node).isSome = true

instance (kind : DeclarationKind) (node : ModuleName) : Decidable (reg.Declares kind node) :=
  inferInstanceAs (Decidable (_ = true))

/-- The pairs that a lookup visits in order, unless it stops. -/
def exportWalk (start : ModuleName) : List ModuleName :=
  DepthFirst.walk reg.exportSuccessors (reg.searchFuel start.2) [] start

/-- The lookup of each kind finds the given declaration if it has the kind, and nothing else. -/
def FindsExactly (key : ModuleKey) (name : String) (target : ModuleName) : Prop :=
  ∀ kind, (reg.resolve kind key name).map (fun resolved => (resolved.owner, resolved.ownerName)) =
    if reg.Declares kind target then some target else none

/-- An interface that a lookup finds has the heritage clauses and the properties of all its
declarations. -/
def MergesDeclarations (key : ModuleKey) (name : String) (target : ModuleName) : Prop :=
  ∀ resolved info, reg.resolveInterfaceDeclRefAt key name = some resolved →
    reg.get? target.1 = some info →
    (∀ clause, clause ∈ resolved.declaration.heritage ↔
      ∃ declaration ∈ info.declarationsOf .interface target.2, clause ∈ declaration.heritage) ∧
    ∀ property, property ∈ resolved.declaration.properties ↔
      ∃ declaration ∈ info.declarationsOf .interface target.2, property ∈ declaration.properties

/-- No pair that the walk visits earlier has a declaration of the same kind, and none on the whole
walk has one of another kind. -/
def Unshadowed (start target : ModuleName) : Prop :=
  ∀ kind, if reg.Declares kind target then
      ∀ node ∈ (reg.exportWalk start).takeWhile (· ≠ target), ¬reg.Declares kind node
    else ∀ node ∈ reg.exportWalk start, ¬reg.Declares kind node

/-- The last declaration of an interface repeats the heritage clauses and properties of others. -/
def LastDeclaresAll (target : ModuleName) : Prop :=
  ∀ info, reg.get? target.1 = some info →
    ∀ last ∈ (info.declarationsOf .interface target.2).getLast?,
      ∀ declaration ∈ info.declarationsOf .interface target.2,
        declaration.heritage ⊆ last.heritage ∧ declaration.properties ⊆ last.properties

end Registry

section Entries

variable {Value : Type} {entries : List (String × Value)}

theorem lastEntry_of_mem (nodup : (entries.map Prod.fst).Nodup) {name : String} {value : Value}
    (mem : (name, value) ∈ entries) : lastEntry entries name = some value := by
  apply (OrderedMap.lookup_eq_some_iff ?_ name value).mpr
  · exact List.mem_reverse.mpr mem
  · rw [List.map_reverse]
    exact List.nodup_reverse.mpr nodup

theorem mem_of_lastEntry {name : String} {value : Value}
    (found : lastEntry entries name = some value) : (name, value) ∈ entries := by
  rcases List.lookup_eq_some_iff.mp found with ⟨before, after, split, -⟩
  rw [← List.mem_reverse, split]
  simp

end Entries

section Lists

variable {Item : Type} [DecidableEq Item] {items : List Item} {item : Item} {test : Item → Bool}

theorem find?_eq_some_iff_takeWhile (mem : item ∈ items) (passes : test item = true) :
    items.find? test = some item ↔
      ∀ other ∈ items.takeWhile (· ≠ item), ¬test other = true := by
  induction items with
  | nil => simp at mem
  | cons first rest ih =>
      by_cases same : first = item
      · subst same
        simp [passes]
      · have inRest : item ∈ rest := by simpa [Ne.symm same] using mem
        cases firstPasses : test first with
        | true => simp [firstPasses, same]
        | false => simp [firstPasses, same, ih inRest]

end Lists

namespace SourceModule

variable {info : SourceModule} {key : ModuleKey}

theorem WellFormed.reexports_nodup (wellFormed : info.WellFormed) :
    ((info.reexportEntries key).map Prod.fst).Nodup := by
  apply List.Nodup.sublist _ wellFormed.exports
  unfold reexportEntries
  rw [List.map_append]
  apply List.Sublist.append_left
  induction info.exportList with
  | nil => simp
  | cons item rest ih =>
      rw [List.filterMap_cons]
      split
      · exact ih.cons _
      · rename_i entry written
        have sameName : entry.1 = item.2 := by
          split at written
          · cases written
            rfl
          · split_ifs at written
            cases written
            rfl
        rw [List.map_cons, List.map_cons, sameName]
        exact ih.cons_cons _

theorem WellFormed.importOf_of_mem (wellFormed : info.WellFormed) {name : String}
    {ref : ImportRef} (mem : (name, ref) ∈ info.imports) : info.importOf name = some ref :=
  lastEntry_of_mem wellFormed.imports mem

theorem WellFormed.importOf_declared (wellFormed : info.WellFormed) {declaration : Declaration}
    (mem : declaration ∈ info.declarations) : info.importOf declaration.name = none := by
  rw [Option.eq_none_iff_forall_not_mem]
  intro ref found
  exact wellFormed.apart _ (mem_of_lastEntry found) declaration mem rfl

theorem WellFormed.declared_import (wellFormed : info.WellFormed) {name : String}
    {ref : ImportRef} (mem : (name, ref) ∈ info.imports) (kind : DeclarationKind) :
    info.declared kind name = none := by
  unfold declared declarationsOf
  rw [List.getLast?_eq_none_iff, List.filter_eq_nil_iff]
  intro declaration declarationMem named
  simp only [decide_eq_true_eq] at named
  exact wellFormed.apart _ mem declaration declarationMem named.2

end SourceModule

namespace Registry

variable {reg : Registry} {start target : ModuleName}

theorem Exports.stored {node : ModuleName} (exports : reg.Exports node target) :
    (reg.get? node.1).isSome = true := by
  cases exports <;> simp [*]

theorem reexport_edge {key : ModuleKey} {info : SourceModule} {name : String} {ref : ImportRef}
    (stored : reg.get? key = some info) (wellFormed : info.WellFormed)
    (written : (name, ref) ∈ info.reexportEntries key)
    (targetStored : (reg.get? ref.source).isSome = true) :
    (ref.source, ref.exportName) ∈ reg.exportSuccessors (key, name) := by
  have found : info.reexportOf key name = some ref :=
    lastEntry_of_mem wellFormed.reexports_nodup written
  simp [exportSuccessors, stored, found, targetStored]

theorem reachable_of_exports
    (wellFormed : ∀ key info, reg.get? key = some info → info.WellFormed)
    (exports : reg.Exports start target) :
    Relation.ReflTransGen (fun before after => after ∈ reg.exportSuccessors before) start
      target := by
  induction exports with
  | declared => exact .refl
  | @listed key info declaration name stored item mem =>
      by_cases same : declaration.name = name
      · rw [same]
      · apply Relation.ReflTransGen.single
        have notImported := (wellFormed key info stored).importOf_declared mem
        apply @reexport_edge reg key info name ⟨key, declaration.name⟩ stored
          (wellFormed key info stored)
        · apply List.mem_append_right
          rw [List.mem_filterMap]
          exact ⟨_, item, by simp [notImported, Ne.symm same]⟩
        · simp [stored]
  | @listedImport key info imported name ref target stored item isImport further ih =>
      refine .head ?_ ih
      apply reexport_edge stored (wellFormed key info stored) ?_ further.stored
      apply List.mem_append_right
      rw [List.mem_filterMap]
      exact ⟨_, item, by simp [(wellFormed key info stored).importOf_of_mem isImport]⟩
  | @reexported key info name ref target stored entry further ih =>
      refine .head ?_ ih
      exact reexport_edge stored (wellFormed key info stored) (List.mem_append_left _ entry)
        further.stored
  | @star key source info name target stored implicit mem further ih =>
      refine .head ?_ ih
      have targetStored := further.stored
      simp only [exportSuccessors, stored, List.mem_append, List.mem_map, List.mem_filter]
      exact .inr ⟨source, ⟨mem, targetStored⟩, rfl⟩

theorem searchSpace_closed (name : String) : ∀ node ∈ (reg.searchSpace name).toFinset,
    ∀ next ∈ reg.exportSuccessors node, next ∈ (reg.searchSpace name).toFinset := by
  rintro ⟨key, current⟩ mem next isNext
  simp only [List.mem_toFinset, searchSpace, List.mem_product] at mem ⊢
  simp only [exportSuccessors] at isNext
  split at isNext
  · simp at isNext
  · rename_i info stored
    simp only [List.mem_append, List.mem_map, List.mem_filter] at isNext
    rcases isNext with ⟨ref, ⟨isRef, targetStored⟩, rfl⟩ | ⟨source, ⟨-, targetStored⟩, rfl⟩
    · apply List.mem_product.mpr
      refine ⟨(OrderedMap.mem_keys_iff _ _).mpr (Option.isSome_iff_exists.mp targetStored), ?_⟩
      apply List.mem_cons_of_mem
      unfold exportNames
      rw [List.mem_flatMap]
      refine ⟨(key, info), (OrderedMap.get?_eq_some_iff _ _ _).mp stored, ?_⟩
      rw [List.mem_map]
      exact ⟨_, mem_of_lastEntry (Option.mem_toList.mp isRef), rfl⟩
    · apply List.mem_product.mpr
      exact ⟨(OrderedMap.mem_keys_iff _ _).mpr (Option.isSome_iff_exists.mp targetStored), mem.2⟩

theorem start_mem_searchSpace (stored : (reg.get? start.1).isSome = true) :
    start ∈ (reg.searchSpace start.2).toFinset := by
  rw [List.mem_toFinset]
  unfold searchSpace
  rw [List.mem_product]
  exact ⟨(OrderedMap.mem_keys_iff _ _).mpr (Option.isSome_iff_exists.mp stored),
    List.mem_cons_self⟩

theorem card_searchSpace_lt (name : String) :
    (reg.searchSpace name).toFinset.card < reg.searchFuel name :=
  Nat.lt_succ_of_le (List.toFinset_card_le _)

theorem target_mem_exportWalk
    (wellFormed : ∀ key info, reg.get? key = some info → info.WellFormed)
    (exports : reg.Exports start target) : target ∈ reg.exportWalk start :=
  DepthFirst.mem_walk_of_reachable (searchSpace_closed start.2) _
    (start_mem_searchSpace exports.stored) (card_searchSpace_lt start.2)
    (reachable_of_exports wellFormed exports)

theorem resolveExported_fuel (stored : (reg.get? start.1).isSome = true) (kind : DeclarationKind)
    {fuel : ℕ} (enough : reg.searchFuel start.2 ≤ fuel) :
    reg.resolveExported kind fuel start = reg.resolveExported kind (reg.searchFuel start.2)
        start := by
  have card : (reg.searchSpace start.2).toFinset.card < reg.searchFuel start.2 :=
    card_searchSpace_lt start.2
  have unseen : DepthFirst.unseen (reg.searchSpace start.2).toFinset [] =
      (reg.searchSpace start.2).toFinset.card := by
    simp [DepthFirst.unseen]
  have sameWalk := DepthFirst.walk_fuel (searchSpace_closed start.2) fuel
    (reg.searchFuel start.2) (start_mem_searchSpace stored)
    (show DepthFirst.unseen _ [] < fuel by omega) (by omega)
  unfold resolveExported
  rw [(DepthFirst.visit_follows _ fuel [] start).1, sameWalk,
    ← (DepthFirst.visit_follows _ (reg.searchFuel start.2) [] start).1]

theorem localDeclaration_of_findSome? {kind : DeclarationKind} {nodes : List ModuleName}
    {resolved : Resolved} (found : nodes.findSome? (reg.localDeclaration kind) = some resolved) :
    reg.localDeclaration kind (resolved.owner, resolved.ownerName) = some resolved := by
  rcases List.exists_of_findSome?_eq_some found with ⟨node, -, here⟩
  have owned := here
  simp only [localDeclaration, Option.map_eq_some_iff] at owned
  rcases owned with ⟨declaration, -, rfl⟩
  exact here

theorem map_findSome?_localDeclaration (kind : DeclarationKind) (nodes : List ModuleName) :
    (nodes.findSome? (reg.localDeclaration kind)).map
        (fun resolved => (resolved.owner, resolved.ownerName)) =
      nodes.find? fun node => decide (reg.Declares kind node) := by
  induction nodes with
  | nil => rfl
  | cons node rest ih =>
      rw [List.findSome?_cons, List.find?_cons]
      cases found : reg.localDeclaration kind node with
      | none => simpa [Declares, found] using ih
      | some resolved =>
          have owned := found
          simp only [localDeclaration, Option.map_eq_some_iff] at owned
          rcases owned with ⟨declaration, -, rfl⟩
          simp [Declares, found]

variable {key : ModuleKey} {name : String}

section

variable (resolves : reg.ResolvesImport key name start target)
include resolves

theorem ResolvesImport.resolve_eq (kind : DeclarationKind) :
    reg.resolve kind key name = (reg.exportWalk start).findSome? (reg.localDeclaration kind) := by
  rcases resolves.imported with ⟨info, ref, stored, isImport, rfl⟩
  have wellFormed := resolves.wellFormed key info stored
  have notDeclared : reg.localDeclaration kind (key, name) = none := by
    simp [localDeclaration, stored, wellFormed.declared_import isImport]
  have imported : ((reg.get? key).bind fun info => info.importOf name) = some ref := by
    simp [stored, wellFormed.importOf_of_mem isImport]
  have sourceStored : (reg.get? ref.source).isSome = true := resolves.resolves.stored
  have walked := (@DepthFirst.visit_follows _ _ _ reg.exportSuccessors
    (reg.localDeclaration kind) (reg.searchFuel ref.exportName) []
    (ref.source, ref.exportName)).1
  cases kind <;>
    simp only [resolve, resolveAliasRef, resolveInterfaceDeclRefAt, resolveEnum, resolveName,
      notDeclared, imported, sourceStored, if_true] <;>
    exact walked

/-- The lookups find the declaration that TypeScript resolves to exactly when nothing on the walk
shadows it. -/
theorem ResolvesImport.findsExactly_iff :
    reg.FindsExactly key name target ↔ reg.Unshadowed start target := by
  have onWalk := target_mem_exportWalk resolves.wellFormed resolves.resolves
  apply forall_congr'
  intro kind
  rw [resolves.resolve_eq, map_findSome?_localDeclaration]
  split_ifs with declares
  · rw [find?_eq_some_iff_takeWhile onWalk (by simpa using declares)]
    simp
  · simp

theorem ResolvesImport.interface_declared (exact : reg.FindsExactly key name target)
    {info : SourceModule} (stored : reg.get? target.1 = some info) :
    info.declared .interface target.2 =
      (reg.resolveInterfaceDeclRefAt key name).map Resolved.declaration := by
  have finds := exact .interface
  have walked := resolves.resolve_eq .interface
  cases found : reg.resolve .interface key name with
  | none =>
      have undeclared : ¬reg.Declares .interface target := by
        intro declares
        simp [found, declares] at finds
      change _ = (reg.resolve .interface key name).map _
      simpa [found, Declares, localDeclaration, stored] using undeclared
  | some resolved =>
      have owned : (resolved.owner, resolved.ownerName) = target := by
        rw [found] at finds
        split_ifs at finds with declares
        · simpa using finds
        · cases finds
      have here := localDeclaration_of_findSome? (walked.symm.trans found)
      rw [owned] at here
      change _ = (reg.resolve .interface key name).map _
      simp only [localDeclaration, stored, Option.bind_some, Option.map_eq_some_iff] at here
      rcases here with ⟨declaration, declared, rfl⟩
      simpa [found] using declared

theorem ResolvesImport.mergesDeclarations_iff (exact : reg.FindsExactly key name target) :
    reg.MergesDeclarations key name target ↔ reg.LastDeclaresAll target := by
  constructor
  · intro merges info stored last isLast declaration mem
    have declared := (resolves.interface_declared exact stored).symm.trans isLast
    rcases Option.map_eq_some_iff.mp declared with ⟨resolved, found, rfl⟩
    rcases merges resolved info found stored with ⟨heritage, properties⟩
    exact ⟨fun clause listed => (heritage clause).mpr ⟨declaration, mem, listed⟩,
      fun property listed => (properties property).mpr ⟨declaration, mem, listed⟩⟩
  · intro repeats resolved info found stored
    have declared := resolves.interface_declared exact stored
    rw [found] at declared
    have all := repeats info stored _ declared
    have listed := List.mem_of_getLast? declared
    refine ⟨fun clause => ⟨fun mem => ⟨_, listed, mem⟩, ?_⟩,
      fun property => ⟨fun mem => ⟨_, listed, mem⟩, ?_⟩⟩
    · rintro ⟨declaration, mem, inherits⟩
      exact (all declaration mem).1 inherits
    · rintro ⟨declaration, mem, has⟩
      exact (all declaration mem).2 has

end

/-- The lookup of an imported name finds the declaration that TypeScript resolves to, with all that
is merged into it, exactly when nothing on the walk shadows it and the last of its declarations
repeats the others. -/
theorem ResolvesImport.findsMergedDeclaration_iff
    (resolves : reg.ResolvesImport key name start target) :
    (∀ kind fuel, reg.searchFuel start.2 ≤ fuel →
        reg.resolveExported kind fuel start =
          reg.resolveExported kind (reg.searchFuel start.2) start) ∧
      (reg.FindsExactly key name target ∧ reg.MergesDeclarations key name target ↔
        reg.Unshadowed start target ∧ reg.LastDeclaresAll target) := by
  constructor
  · intro kind fuel enough
    exact resolveExported_fuel resolves.resolves.stored kind enough
  · rw [resolves.findsExactly_iff]
    apply and_congr_right
    intro unshadowed
    exact resolves.mergesDeclarations_iff (resolves.findsExactly_iff.mpr unshadowed)

/-- `main.ts` imports `Item` from `index.ts`, which re-exports `Entry` of `entry.ts` under that
name. -/
def renamingProgram : Registry where
  entries :=
    [("main.ts", { imports := [("Item", ⟨"index.ts", "Item"⟩)] }),
      ("index.ts", { reexports := [("Item", ⟨"entry.ts", "Entry"⟩)] }),
      ("entry.ts", { declarations := [⟨.interface, "Entry", true, [], ["id"]⟩] })]
  nodupKeys := by decide

/-- `main.ts` imports `Item` from `index.ts`, which declares a private `Item` and exports all of
`entry.ts`. -/
def shadowingProgram : Registry where
  entries :=
    [("main.ts", { imports := [("Item", ⟨"index.ts", "Item"⟩)] }),
      ("index.ts",
        { exportStar := ["entry.ts"], declarations := [⟨.alias, "Item", false, [], []⟩] }),
      ("entry.ts", { declarations := [⟨.alias, "Item", true, [], []⟩] })]
  nodupKeys := by decide

/-- `main.ts` imports the interface `Item` from `entry.ts`, which declares it twice. -/
def mergingProgram : Registry where
  entries :=
    [("main.ts", { imports := [("Item", ⟨"entry.ts", "Item"⟩)] }),
      ("entry.ts",
        { declarations :=
            [⟨.interface, "Item", true, [], ["id"]⟩, ⟨.interface, "Item", true, [], ["title"]⟩] })]
  nodupKeys := by decide

theorem Exports.cases_stored {node : ModuleName} {info : SourceModule}
    (stored : reg.get? node.1 = some info) (exports : reg.Exports node target) :
    (target = node ∧ ∃ declaration ∈ info.declarations, declaration.exported ∧
        declaration.name = node.2) ∨
      (∃ item ∈ info.exportList, item.2 = node.2) ∨
      (∃ ref, (node.2, ref) ∈ info.reexports ∧
        reg.Exports (ref.source, ref.exportName) target) ∨
      (¬info.ExportsExplicitly node.2 ∧
        ∃ source ∈ info.exportStar, reg.Exports (source, node.2) target) := by
  cases exports with
  | declared other mem exported =>
      cases stored.symm.trans other
      exact .inl ⟨rfl, _, mem, exported, rfl⟩
  | listed other item mem =>
      cases stored.symm.trans other
      exact .inr (.inl ⟨_, item, rfl⟩)
  | listedImport other item isImport further =>
      cases stored.symm.trans other
      exact .inr (.inl ⟨_, item, rfl⟩)
  | reexported other entry further =>
      cases stored.symm.trans other
      exact .inr (.inr (.inl ⟨_, entry, further⟩))
  | star other implicit mem further =>
      cases stored.symm.trans other
      exact .inr (.inr (.inr ⟨implicit, _, mem, further⟩))

theorem wellFormed_of_entries
    (wellFormed : ∀ entry ∈ reg.entries, entry.2.WellFormed) (key : ModuleKey)
    (info : SourceModule) (stored : reg.get? key = some info) : info.WellFormed :=
  wellFormed (key, info) ((OrderedMap.get?_eq_some_iff _ _ _).mp stored)

theorem renamingProgram_resolves :
    renamingProgram.ResolvesImport "main.ts" "Item" ("index.ts", "Item") ("entry.ts", "Entry") where
  wellFormed := by
    apply wellFormed_of_entries
    intro entry mem
    simp only [renamingProgram, List.mem_cons, List.not_mem_nil, or_false] at mem
    rcases mem with rfl | rfl | rfl <;> constructor <;> decide
  imported := ⟨_, _, rfl, List.mem_cons_self, rfl⟩
  resolves := by
    apply @Exports.reexported renamingProgram _ _ _ ⟨"entry.ts", "Entry"⟩ _ rfl List.mem_cons_self
    exact @Exports.declared renamingProgram _ _ ⟨.interface, "Entry", true, [], ["id"]⟩ rfl
      List.mem_cons_self rfl
  unambiguous := by
    intro other exports
    have further := exports.cases_stored rfl
    simp [SourceModule.ExportsExplicitly] at further
    have owned := further.cases_stored rfl
    simpa [SourceModule.ExportsExplicitly] using owned

theorem renamingProgram_unshadowed :
    renamingProgram.Unshadowed ("index.ts", "Item") ("entry.ts", "Entry") ∧
      renamingProgram.LastDeclaresAll ("entry.ts", "Entry") := by
  constructor
  · intro kind
    cases kind <;> decide +kernel
  · intro info stored
    cases stored
    decide

theorem ResolvesImport.findsMergedDeclaration_renamingProgram :
    renamingProgram.FindsExactly "main.ts" "Item" ("entry.ts", "Entry") ∧
      renamingProgram.MergesDeclarations "main.ts" "Item" ("entry.ts", "Entry") :=
  renamingProgram_resolves.findsMergedDeclaration_iff.2.mpr renamingProgram_unshadowed

theorem shadowingProgram_resolves :
    shadowingProgram.ResolvesImport "main.ts" "Item" ("index.ts", "Item")
      ("entry.ts", "Item") where
  wellFormed := by
    apply wellFormed_of_entries
    intro entry mem
    simp only [shadowingProgram, List.mem_cons, List.not_mem_nil, or_false] at mem
    rcases mem with rfl | rfl | rfl <;> constructor <;> decide
  imported := ⟨_, _, rfl, List.mem_cons_self, rfl⟩
  resolves := by
    apply @Exports.star shadowingProgram _ "entry.ts" _ _ _ rfl ?_ List.mem_cons_self
    · exact @Exports.declared shadowingProgram _ _ ⟨.alias, "Item", true, [], []⟩ rfl
        List.mem_cons_self rfl
    · simp [SourceModule.ExportsExplicitly]
  unambiguous := by
    intro other exports
    have further := exports.cases_stored rfl
    simp [SourceModule.ExportsExplicitly] at further
    have owned := further.cases_stored rfl
    simpa [SourceModule.ExportsExplicitly] using owned

theorem mergingProgram_resolves :
    mergingProgram.ResolvesImport "main.ts" "Item" ("entry.ts", "Item") ("entry.ts", "Item") where
  wellFormed := by
    apply wellFormed_of_entries
    intro entry mem
    simp only [mergingProgram, List.mem_cons, List.not_mem_nil, or_false] at mem
    rcases mem with rfl | rfl <;> constructor <;> decide
  imported := ⟨_, _, rfl, List.mem_cons_self, rfl⟩
  resolves := @Exports.declared mergingProgram _ _ ⟨.interface, "Item", true, [], ["id"]⟩ rfl
    List.mem_cons_self rfl
  unambiguous := by
    intro other exports
    have owned := exports.cases_stored rfl
    simpa [SourceModule.ExportsExplicitly] using owned

/-- A private declaration of a barrel module is found, and an interface that is declared twice loses
the properties of its first declaration. -/
theorem private_declaration_found_and_merge_lost :
    (shadowingProgram.ResolvesImport "main.ts" "Item" ("index.ts", "Item") ("entry.ts", "Item") ∧
        ¬shadowingProgram.FindsExactly "main.ts" "Item" ("entry.ts", "Item")) ∧
      (mergingProgram.ResolvesImport "main.ts" "Item" ("entry.ts", "Item") ("entry.ts", "Item") ∧
        ¬mergingProgram.MergesDeclarations "main.ts" "Item" ("entry.ts", "Item")) := by
  constructor
  · refine ⟨shadowingProgram_resolves, fun exact => ?_⟩
    have found := exact .alias
    have wrong : (shadowingProgram.resolve .alias "main.ts" "Item").map
        (fun resolved => (resolved.owner, resolved.ownerName)) = some ("index.ts", "Item") := by
      decide +kernel
    rw [wrong] at found
    split_ifs at found
    simp at found
  · refine ⟨mergingProgram_resolves, fun merges => ?_⟩
    have found : mergingProgram.resolveInterfaceDeclRefAt "main.ts" "Item" =
        some ⟨⟨.interface, "Item", true, [], ["title"]⟩, "entry.ts", "Item"⟩ := by decide +kernel
    have merged := ((merges _ _ found rfl).2 "id").mpr
      ⟨⟨.interface, "Item", true, [], ["id"]⟩, by decide, by decide⟩
    exact absurd merged (by decide)

end Registry

end ServerFoundation.TypeCompiler
