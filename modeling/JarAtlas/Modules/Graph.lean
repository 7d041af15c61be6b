import JarAtlas.Names.Table
import JarAtlas.Json

/-! Which modules depend on which. The target of a dependency need not be a module of the graph,
and no module depends on itself. -/
namespace JarAtlas

/-- The dependencies of each module. -/
structure ModuleGraph where
  dependencies : NameTable NameSet
  deriving DecidableEq

namespace ModuleGraph

def empty : ModuleGraph := ⟨.empty⟩

instance : Inhabited ModuleGraph := ⟨empty⟩

/-- A new module has no dependencies; one that is there keeps its own. -/
def addModule (g : ModuleGraph) (module : String) : ModuleGraph :=
  ⟨g.dependencies.alter module fun deps? => deps?.getD .empty⟩

/-- The source becomes a module. A dependency on itself is not recorded. -/
def addDependency (g : ModuleGraph) (source target : String) : ModuleGraph :=
  ⟨g.dependencies.alter source fun deps? =>
    if source = target then deps?.getD .empty else (deps?.getD .empty).insert target⟩

def modules (g : ModuleGraph) : List String := g.dependencies.names

def entries (g : ModuleGraph) : List (String × NameSet) := g.dependencies.entries

def dependencies? (g : ModuleGraph) (module : String) : Option NameSet :=
  g.dependencies.find? module

def contains (g : ModuleGraph) (module : String) : Bool := g.dependencies.contains module

/-- Targets that are no modules count as well. -/
def outDegree (g : ModuleGraph) (module : String) : Nat :=
  ((g.dependencies? module).map NameSet.size).getD 0

def edgeCount (g : ModuleGraph) : Nat := g.entries.foldr (fun e count => e.2.size + count) 0

def size (g : ModuleGraph) : Nat := g.dependencies.size

def isEmpty (g : ModuleGraph) : Bool := g.dependencies.isEmpty

def toJson (g : ModuleGraph) : Json :=
  .object (g.entries.map fun e => (e.1, .list (e.2.toList.map Json.text)))

theorem ext_dependencies? {g h : ModuleGraph}
    (same : ∀ x, g.dependencies? x = h.dependencies? x) : g = h :=
  congrArg ModuleGraph.mk (NameTable.ext_find? same)

theorem mem_modules_iff {g : ModuleGraph} {x : String} :
    x ∈ g.modules ↔ (g.dependencies? x).isSome := NameTable.mem_names_iff

@[simp] theorem dependencies?_empty (x : String) : empty.dependencies? x = none := rfl

@[simp] theorem dependencies?_addModule (g : ModuleGraph) (module x : String) :
    (g.addModule module).dependencies? x =
      if x = module then some ((g.dependencies? module).getD .empty) else g.dependencies? x :=
  NameTable.find?_alter ..

@[simp] theorem dependencies?_addDependency (g : ModuleGraph) (source target x : String) :
    (g.addDependency source target).dependencies? x =
      if x = source then
        some (if source = target then (g.dependencies? source).getD .empty
          else ((g.dependencies? source).getD .empty).insert target)
      else g.dependencies? x :=
  NameTable.find?_alter ..

@[simp] theorem mem_modules_addModule {g : ModuleGraph} {module x : String} :
    x ∈ (g.addModule module).modules ↔ x = module ∨ x ∈ g.modules :=
  NameTable.mem_names_alter

@[simp] theorem mem_modules_addDependency {g : ModuleGraph} {source target x : String} :
    x ∈ (g.addDependency source target).modules ↔ x = source ∨ x ∈ g.modules :=
  NameTable.mem_names_alter

end ModuleGraph
end JarAtlas
