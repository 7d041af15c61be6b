import JarAtlas.Bytes

/-! A tree of directories and files, without links. A location lists the names from the root. -/
namespace JarAtlas

abbrev Location := List String

/-- What stands at a location. A file may be a tool that can be started. -/
inductive Node where
  | directory
  | file (content : Bytes) (executable : Bool)
  deriving DecidableEq, Repr

/-- The latest node of a location counts. The root is always a directory. -/
structure FileTree where
  nodes : List (Location × Node)

namespace FileTree

def empty : FileTree := ⟨[]⟩

def lookup (place : Location) : List (Location × Node) → Option Node
  | [] => none
  | (p, n) :: ns => if place = p then some n else lookup place ns

def find? (t : FileTree) (place : Location) : Option Node :=
  if place = [] then some .directory else lookup place t.nodes

def isDirectory (t : FileTree) (place : Location) : Bool := t.find? place == some .directory

def put (t : FileTree) (place : Location) (n : Node) : FileTree := ⟨(place, n) :: t.nodes⟩

/-- The content is written into a file that is there, or else into a new one that is no tool. -/
def putContent (t : FileTree) (place : Location) (content : Bytes) : FileTree :=
  match t.find? place with
  | some (.file _ executable) => t.put place (.file content executable)
  | _ => t.put place (.file content false)

def places (t : FileTree) : List Location := (t.nodes.map Prod.fst).eraseDups

/-- What a later tree shows of a node: its content, or nothing for a directory. -/
def Node.shown : Node → Option Bytes
  | .directory => none
  | .file content _ => some content

def changes (before after : FileTree) : List (Location × Node) :=
  after.places.filterMap fun place =>
    match after.find? place with
    | none => none
    | some n =>
      if (before.find? place).map Node.shown = some (Node.shown n) then none else some (place, n)

theorem lookup_cons (place p : Location) (n : Node) (ns : List (Location × Node)) :
    lookup place ((p, n) :: ns) = if place = p then some n else lookup place ns := rfl

@[simp] theorem find?_root (t : FileTree) : t.find? [] = some .directory := rfl

theorem find?_put (t : FileTree) (place p : Location) (n : Node) (inside : p ≠ []) :
    (t.put p n).find? place = if place = p then some n else t.find? place := by
  by_cases root : place = []
  · simp [find?, root, Ne.symm inside]
  · simp [find?, put, lookup_cons, root]

end FileTree
end JarAtlas
