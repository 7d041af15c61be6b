import JarAtlas.Json
import JarAtlas.Repository.Error
import JarAtlas.Text.Blank
import JarAtlas.Text.Pieces

/-! What names an artifact in a repository: its group, its own name and its version. -/
namespace JarAtlas

open Text

structure Coordinate where
  group : String
  artifact : String
  version : String
  deriving DecidableEq, Repr

namespace Coordinate

def written (group artifact version : String) : String :=
  group ++ ":" ++ artifact ++ ":" ++ version

/-- The parts are trimmed, and none of them may then be empty. -/
def ofParts (group artifact version : String) : Except Repository.Error Coordinate :=
  if trim group = "" ∨ trim artifact = "" ∨ trim version = "" then
    .error (.badCoordinate (written group artifact version))
  else .ok ⟨trim group, trim artifact, trim version⟩

def parse (s : String) : Except Repository.Error Coordinate :=
  match split ':' s with
  | [group, artifact, version] => ofParts group artifact version
  | _ => .error (.badCoordinate s)

def toString (c : Coordinate) : String := written c.group c.artifact c.version

def stem (c : Coordinate) : String := c.artifact ++ "-" ++ c.version

def fileName (c : Coordinate) : String := c.stem ++ ".jar"

/-- Where a repository keeps the artifact: the dots of the group part directories. -/
def repositoryPath (c : Coordinate) : String :=
  .ofList (replace '.' ['/'] c.group.toList) ++ "/" ++ c.artifact ++ "/" ++ c.version ++ "/" ++
    c.fileName

def toJson (c : Coordinate) : Json :=
  .object [("group", .text c.group), ("artifact", .text c.artifact), ("version", .text c.version)]

end Coordinate
end JarAtlas
