import JarAtlas.Machine.Basic
import JarAtlas.Path
import JarAtlas.Repository.Artifact
import JarAtlas.Repository.Coordinate

/-! A repository that is a directory. -/
namespace JarAtlas

structure LocalRepository where
  root : String
  deriving DecidableEq, Repr

namespace LocalRepository

def defaultWord : String := "default"

def defaultRoot (home : String) : String := Path.append (Path.append home ".m2") "repository"

/-- The directory that a text names. The usual one is not known without the user's own. -/
def resolveRoot? (home? : Option String) (value : String) : Option String :=
  if value = defaultWord then home?.map defaultRoot else some value

def artifactPath (r : LocalRepository) (c : Coordinate) : String :=
  Path.append r.root c.repositoryPath

variable {m : Type → Type} [Monad m] [Machine m]

def store (content : Bytes) (dir path : String) : m (Except Repository.Error Artifact) := do
  match ← Machine.makeDirs dir with
  | .error f => return .error (.file f)
  | .ok () => match ← Machine.writeFile path content with
    | .error f => return .error (.file f)
    | .ok () => return .ok (.ofContent path content)

/-- The artifact is read as a whole before anything is made. -/
def fetch (r : LocalRepository) (c : Coordinate) (dir : String) :
    m (Except Repository.Error Artifact) := do
  let source := r.artifactPath c
  match ← Machine.fileExists source with
  | .error f => return .error (.file f)
  | .ok false => return .error (.notFound source)
  | .ok true =>
    Machine.info ("Copying " ++ source)
    match ← Machine.readFile source with
    | .error f => return .error (.file f)
    | .ok content => store content dir (Path.append dir c.fileName)

end LocalRepository
end JarAtlas
