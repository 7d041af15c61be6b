import JarAtlas.Path
import JarAtlas.FileTree.Basic
import JarAtlas.Text.Utf8
import JarAtlas.Machine.Fault

/-! Reading and writing a tree by paths, which are walked from a working directory. -/
namespace JarAtlas
namespace FileTree

/-- The longest name of a directory entry, and the length from which on a whole path is too long,
both in octets. -/
def maxName : Nat := 255

def maxPath : Nat := 4096

def octets (s : String) : Nat := (Utf8.encode s).length

/-- One step from a location. Each step, also an idle one, must start at a directory. -/
def stepTo (t : FileTree) (place : Location) (piece : String) : Except Fault Location :=
  if !t.isDirectory place then .error .notDirectory
  else if Path.idle piece then .ok place
  else if piece = ".." then .ok place.dropLast
  else if maxName < octets piece then .error .nameTooLong
  else if (t.find? (place ++ [piece])).isNone then .error .notFound
  else .ok (place ++ [piece])

def walk (t : FileTree) (place : Location) (pieces : List String) : Except Fault Location :=
  pieces.foldlM (stepTo t) place

def origin (here : Location) (path : String) : Location := if Path.rooted path then [] else here

/-- A path that no walk is tried for: it is empty, too long, or holds the character zero. -/
def unfit? (path : String) : Option Fault :=
  if path.toList.contains '\x00' then some .nulInName
  else if path = "" then some .notFound
  else if maxPath ≤ octets path then some .nameTooLong
  else none

def resolve (t : FileTree) (here : Location) (path : String) : Except Fault Location :=
  match unfit? path with
  | some f => .error f
  | none => walk t (origin here path) (Path.parts path)

/-- Where the last name of a path is to be found or made, with its directory walked: the location,
or `none` when the path ends in dots or at the root, and whether a slash follows the name. -/
def target (t : FileTree) (here : Location) (path : String) :
    Except Fault (Option Location × Bool) :=
  match unfit? path with
  | some f => .error f
  | none => do
    let pieces := Path.parts path
    let named := (pieces.reverse.dropWhile (· == "")).reverse
    let dir ← walk t (origin here path) named.dropLast
    if !t.isDirectory dir then throw .notDirectory
    match named.getLast? with
    | none => return (none, true)
    | some name =>
      if name = "." ∨ name = ".." then return (none, true)
      else return (some (dir ++ [name]), named.length < pieces.length)

/-- Only what is not found is absent; any other refusal is passed on. -/
def fileExists (t : FileTree) (here : Location) (path : String) : Except Fault Bool :=
  match resolve t here path with
  | .ok _ => .ok true
  | .error .notFound => .ok false
  | .error f => .error f

def readFile (t : FileTree) (here : Location) (path : String) : Except Fault Bytes := do
  let place ← resolve t here path
  match t.find? place with
  | some (.file content _) => return content
  | some .directory => throw .isDirectory
  | none => throw .notFound

def overlong (place : Location) : Bool := maxName < octets (place.getLastD "")

def writeFile (t : FileTree) (here : Location) (path : String) (content : Bytes) :
    Except Fault FileTree := do
  match ← target t here path with
  | (none, _) => throw .isDirectory
  | (some place, slash) =>
    if slash then throw .isDirectory
    if overlong place then throw .nameTooLong
    if t.isDirectory place then throw .isDirectory
    return t.putContent place content

def appendFile (t : FileTree) (here : Location) (path : String) (content : Bytes) :
    Except Fault FileTree := do
  let before ← readFile t here path
  writeFile t here path (before ++ content)

def makeDir (t : FileTree) (here : Location) (path : String) : Except Fault FileTree := do
  match ← target t here path with
  | (none, _) => throw .alreadyExists
  | (some place, _) =>
    if overlong place then throw .nameTooLong
    if (t.find? place).isSome then throw .alreadyExists
    return t.put place .directory

def leadsToDirectory (t : FileTree) (here : Location) (path : String) : Bool :=
  match resolve t here path with
  | .ok place => t.isDirectory place
  | .error _ => false

/-- A refusal to make a directory does not matter when one is there. -/
def forgive (t : FileTree) (here : Location) (path : String) (f : Fault) :
    FileTree × Except Fault Unit :=
  if leadsToDirectory t here path then (t, .ok ()) else (t, .error f)

/-- A directory and those above it that are missing. What was made before a refusal stays. -/
def makeDirsUpTo : Nat → FileTree → Location → String → FileTree × Except Fault Unit
  | 0, t, _, _ => (t, .error .noTree)
  | depth + 1, t, here, path =>
    if path = "" then (t, .ok ())
    else match makeDir t here path with
      | .ok t => (t, .ok ())
      | .error .notFound => match Path.parent? path with
        | none => (t, .error .noTree)
        | some above => match makeDirsUpTo depth t here above with
          | (t, .error f) => (t, .error f)
          | (t, .ok ()) => match makeDir t here path with
            | .ok t => (t, .ok ())
            | .error f => forgive t here path f
      | .error f => forgive t here path f

/-- The parts of a path bound how deep its directory lies. -/
def makeDirs (t : FileTree) (here : Location) (path : String) : FileTree × Except Fault Unit :=
  makeDirsUpTo ((Path.parts path).length + 1) t here path

end FileTree
end JarAtlas
