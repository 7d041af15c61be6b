import JarAtlas.Archive.Basic
import JarAtlas.Modules.ClassName
import JarAtlas.Names.Table

/-! Sorting the classes of an archive into the modules of a root namespace. -/
namespace JarAtlas

/-- The modules that have a class, and the module of each class. -/
structure Classification where
  modules : NameSet
  classes : NameTable String
  deriving DecidableEq

namespace Classification

def empty : Classification := ⟨.empty, .empty⟩

def add (c : Classification) (className module : String) : Classification :=
  ⟨c.modules.insert module, c.classes.insert className module⟩

def addPath (root : String) (c : Classification) (path : String) : Classification :=
  match ClassName.ofPath? path with
  | none => c
  | some className => match ClassName.moduleOf? root className with
    | none => c
    | some module => c.add className module

def ofPaths (root : String) (paths : List String) : Classification :=
  paths.foldl (addPath root) empty

def ofArchive (root : String) (a : Archive) : Classification := ofPaths root a.paths

def outsiders (root : String) (a : Archive) : List String :=
  (a.paths.filterMap ClassName.ofPath?).filter fun c => (ClassName.moduleOf? root c).isNone

end Classification
end JarAtlas
