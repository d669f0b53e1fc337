import Mathlib.Data.List.ProdSigma
import ServerFoundation.Data.DepthFirstSearch
import ServerFoundation.Data.OrderedMap

/-!
# Module graphs of the type compiler

What the Go type compiler collects of the modules of a program, and how it looks
a type name up in them. A module is given by its import, re-export and export
statements, item by item, with every specifier already resolved to a module, and
by its declarations in source order.

The three lookups walk the same edges and differ in the kind of declaration that
stops them. The name of the importing module's own declaration comes first, then
the import; from there the walk takes the named re-export of the name before the
`export *` targets, in order, with one list of visited pairs for the whole walk.
-/

namespace ServerFoundation.TypeCompiler

/-- The resolved path of a module. -/
abbrev ModuleKey := String

/-- A module and a name in it. -/
abbrev ModuleName := ModuleKey × String

/-- The kinds of declaration with a lookup of their own. -/
inductive DeclarationKind where
  | alias
  | interface
  | enum
deriving DecidableEq, Repr

/-- `aliasInfo`, `interfaceInfo` and `enumInfo`: what a declaration contributes to its type. -/
structure Declaration where
  kind : DeclarationKind
  name : String
  exported : Bool
  heritage : List String := []
  properties : List String := []
deriving DecidableEq, Repr

/-- `importRef`. -/
structure ImportRef where
  source : ModuleKey
  exportName : String
deriving DecidableEq, Repr

/-- A module: `import { exportName as local } from source`, `export { exportName as name } from
source`, `export { local as name }`, `export * from source`, and its declarations. -/
structure SourceModule where
  imports : List (String × ImportRef) := []
  reexports : List (String × ImportRef) := []
  exportList : List (String × String) := []
  exportStar : List ModuleKey := []
  declarations : List Declaration := []
deriving DecidableEq

/-- The last value written under a key. -/
def lastEntry {Value : Type} (entries : List (String × Value)) (name : String) : Option Value :=
  entries.reverse.lookup name

namespace SourceModule

variable (info : SourceModule)

/-- `info.imports[name]`. -/
def importOf (name : String) : Option ImportRef := lastEntry info.imports name

/-- The writes of `collectReexports` to `info.reexports`, in order. -/
def reexportEntries (key : ModuleKey) : List (String × ImportRef) :=
  info.reexports ++ info.exportList.filterMap fun item =>
    match info.importOf item.1 with
    | some ref => some (item.2, ref)
    | none => if item.2 ≠ item.1 then some (item.2, ⟨key, item.1⟩) else none

/-- `info.reexports[name]`. -/
def reexportOf (key : ModuleKey) (name : String) : Option ImportRef :=
  lastEntry (info.reexportEntries key) name

/-- All declarations of a kind under a name. -/
def declarationsOf (kind : DeclarationKind) (name : String) : List Declaration :=
  info.declarations.filter fun declaration => declaration.kind = kind ∧ declaration.name = name

/-- `info.aliases[name]`, `chooseInterface(info, name, 0)` and `info.enums[name]`: the last
declaration of the kind. -/
def declared (kind : DeclarationKind) (name : String) : Option Declaration :=
  (info.declarationsOf kind name).getLast?

end SourceModule

/-- `registry`: the modules of a program by their keys. -/
abbrev Registry := OrderedMap ModuleKey SourceModule

/-- What a lookup returns: the declaration, its owner and its name there. -/
structure Resolved where
  declaration : Declaration
  owner : ModuleKey
  ownerName : String
deriving DecidableEq

namespace Registry

variable (reg : Registry)

/-- The declaration of a kind that a pair names in its module. -/
def localDeclaration (kind : DeclarationKind) (node : ModuleName) : Option Resolved :=
  ((reg.get? node.1).bind fun info => info.declared kind node.2).map fun declaration =>
    ⟨declaration, node.1, node.2⟩

/-- The pairs that a lookup goes on with: the named re-export, then the `export *` targets. -/
def exportSuccessors (node : ModuleName) : List ModuleName :=
  match reg.get? node.1 with
  | none => []
  | some info =>
      ((info.reexportOf node.1 node.2).toList.filter fun ref => (reg.get? ref.source).isSome).map
          (fun ref => (ref.source, ref.exportName)) ++
        (info.exportStar.filter fun source => (reg.get? source).isSome).map fun source =>
          (source, node.2)

/-- The names that re-exports of the program can ask for. -/
def exportNames : List String :=
  reg.entries.flatMap fun entry =>
    (entry.2.reexportEntries entry.1).map fun reexport => reexport.2.exportName

/-- All pairs that a lookup of a name can visit. -/
def searchSpace (name : String) : List ModuleName := reg.keys ×ˢ (name :: reg.exportNames)

/-- A bound on the depth of a lookup. -/
def searchFuel (name : String) : ℕ := (reg.searchSpace name).length + 1

/-- The common body of the three walks, with the recursion bounded by fuel. -/
def resolveExported (kind : DeclarationKind) (fuel : ℕ) (node : ModuleName) : Option Resolved :=
  (DepthFirst.visit reg.exportSuccessors (reg.localDeclaration kind) fuel [] node).2

/-- `resolveExportedAlias`. -/
def resolveExportedAlias (node : ModuleName) : Option Resolved :=
  reg.resolveExported .alias (reg.searchFuel node.2) node

/-- `resolveExportedInterfaceDecl`. -/
def resolveExportedInterfaceDecl (node : ModuleName) : Option Resolved :=
  reg.resolveExported .interface (reg.searchFuel node.2) node

/-- `resolveExportedEnum`. -/
def resolveExportedEnum (node : ModuleName) : Option Resolved :=
  reg.resolveExported .enum (reg.searchFuel node.2) node

/-- The common body of the three lookups. -/
def resolveName (kind : DeclarationKind) (exported : ModuleName → Option Resolved)
    (key : ModuleKey) (name : String) : Option Resolved :=
  match reg.localDeclaration kind (key, name) with
  | some resolved => some resolved
  | none =>
      match (reg.get? key).bind fun info => info.importOf name with
      | none => none
      | some ref =>
          if (reg.get? ref.source).isSome then exported (ref.source, ref.exportName) else none

/-- `resolveAliasRef`. -/
def resolveAliasRef (key : ModuleKey) (name : String) : Option Resolved :=
  reg.resolveName .alias reg.resolveExportedAlias key name

/-- `resolveInterfaceDeclRefAt`, at no particular position. -/
def resolveInterfaceDeclRefAt (key : ModuleKey) (name : String) : Option Resolved :=
  reg.resolveName .interface reg.resolveExportedInterfaceDecl key name

/-- `resolveEnum`. -/
def resolveEnum (key : ModuleKey) (name : String) : Option Resolved :=
  reg.resolveName .enum reg.resolveExportedEnum key name

/-- The lookup for a kind. -/
def resolve : DeclarationKind → ModuleKey → String → Option Resolved
  | .alias => reg.resolveAliasRef
  | .interface => reg.resolveInterfaceDeclRefAt
  | .enum => reg.resolveEnum

end Registry

end ServerFoundation.TypeCompiler
