import JarAtlas.Modules.Classification
import JarAtlas.Modules.Graph
import JarAtlas.Modules.Layering

/-! The module graph of an archive. Each class makes its module depend on what the layering says
about that module. -/
namespace JarAtlas
namespace ModuleGraph

/-- What a class is taken to depend on: nothing, if it lies outside the root namespace. -/
def estimate (root className : String) : NameSet :=
  match ClassName.moduleOf? root className with
  | none => .empty
  | some module => Layering.estimate module

def addClass (root : String) (g : ModuleGraph) (className module : String) : ModuleGraph :=
  (estimate root className).toList.foldl (fun g dep => g.addDependency module dep)
    (g.addModule module)

def ofClassification (root : String) (c : Classification) : ModuleGraph :=
  c.classes.entries.foldl (fun g e => addClass root g e.1 e.2) empty

def ofArchive (root : String) (a : Archive) : ModuleGraph :=
  ofClassification root (Classification.ofArchive root a)

end ModuleGraph
end JarAtlas
