import JarAtlas.Text.Pieces

/-! Paths as texts in which slashes part the names. Nothing is normalised when paths are put
together: dots and doubled slashes stay until a file system walks the path. -/
namespace JarAtlas
namespace Path

open Text

def parts (path : String) : List String := split '/' path

def ofParts (ps : List String) : String := join "/" ps

/-- A piece that names no step of its own. -/
def idle (piece : String) : Bool := piece == "" || piece == "."

def rooted (path : String) : Bool := path.toList.head? == some '/'

/-- A path seen from a directory. One that starts at the root replaces the directory. -/
def append (dir path : String) : String :=
  if rooted path then path
  else if dir = "" ∨ dir.toList.getLast? = some '/' then dir ++ path
  else dir ++ "/" ++ path

/-- The steps of a path: the root, and the names without idle pieces. A dot counts as a step only
at the very front. -/
def steps (path : String) : List String :=
  let names := (parts path).filter fun p => !idle p
  if rooted path then "/" :: names
  else if (parts path).head? = some "." then "." :: names
  else names

/-- The pieces up to the last one that names a step, and what follows that. -/
def splitTail (ps : List String) : List String × List String :=
  ((ps.reverse.dropWhile idle).reverse, (ps.reverse.takeWhile idle).reverse)

def fileName? (path : String) : Option String :=
  match (splitTail (parts path)).1.getLast? with
  | none => none
  | some name => if name = ".." then none else some name

/-- A file name at its last dot: stem and extension. A dot at the front belongs to the stem. -/
def splitExtension (name : String) : String × Option String :=
  match cut? '.' name.toList.reverse with
  | none => (name, none)
  | some (_, []) => (name, none)
  | some (ext, stem) => (.ofList stem.reverse, some (.ofList ext.reverse))

def fileStem? (path : String) : Option String :=
  (fileName? path).map fun name => (splitExtension name).1

def parent? (path : String) : Option String :=
  match (splitTail (parts path)).1 with
  | [] => if (parts path).head? = some "." then some "" else none
  | ps =>
    let above := (splitTail ps.dropLast).1
    if above = [] then
      if rooted path then some "/"
      else if ps.dropLast.head? = some "." then some "."
      else some ""
    else some (ofParts above)

@[simp] theorem append_empty (path : String) : append "" path = path := by
  simp [append]

end Path
end JarAtlas
