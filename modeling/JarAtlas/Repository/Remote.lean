import JarAtlas.Machine.Basic
import JarAtlas.Path
import JarAtlas.Repository.Artifact
import JarAtlas.Repository.Coordinate
import JarAtlas.Url.Parse

/-! A repository on the web. An artifact comes in pieces, which are written as they arrive. -/
namespace JarAtlas

structure RemoteRepository where
  base : Url
  credentials? : Option Credentials
  deriving DecidableEq, Repr

namespace RemoteRepository

/-- A slash at the end keeps the last segment when a path is joined. -/
def withSlash (base : String) : String :=
  if base.toList.getLast? = some '/' then base else base ++ "/"

variable {m : Type → Type} [Monad m] [Machine m]

def totalLine : Option Nat → String
  | some total => "Size: " ++ toString (total / 1024) ++ " KB"
  | none => "Size unknown, progress will not be reported"

/-- The percentage that a count of octets comes to, if it is to be told: the total is known, and it is
five percent more than what was told before. -/
def progress? (total? : Option Nat) (told size : Nat) : Option Nat :=
  (total?.map fun total => size * 100 / total).filter (told + 5 ≤ ·)

def endLine (size time : Nat) : String :=
  "Downloaded " ++ toString size ++ " bytes in " ++ toString (time / 100) ++ "." ++
    toString (time / 10 % 10) ++ toString (time % 10) ++ "s"

/-- The pieces go behind what was received before. What has been written stays when one is refused. -/
def receive (total? : Option Nat) (path : String) :
    (told : Nat) → (before : Bytes) → List Bytes → m (Except Repository.Error Bytes)
  | _, before, [] => return .ok before
  | told, before, piece :: pieces => do
    match ← Machine.appendFile path piece with
    | .error f => return .error (.file f)
    | .ok () => match progress? total? told (before ++ piece).length with
      | none => receive total? path told (before ++ piece) pieces
      | some percent =>
        Machine.info ("Progress: " ++ toString percent ++ "%")
        receive total? path percent (before ++ piece) pieces

def store (response : Response) (dir path : String) : m (Except Repository.Error Artifact) := do
  match ← Machine.makeDirs dir with
  | .error f => return .error (.file f)
  | .ok () => match ← Machine.writeFile path [] with
    | .error f => return .error (.file f)
    | .ok () => match ← receive response.total? path 0 [] response.pieces with
      | .error e => return .error e
      | .ok content => match response.fault? with
        | some f => return .error (.broken f)
        | none =>
          Machine.info (endLine content.length response.time)
          return .ok (.ofContent path content)

variable [Url.HostNames]

def ofBase (base : String) (credentials? : Option Credentials) :
    Except Repository.Error RemoteRepository :=
  match Url.parse (withSlash base) with
  | .error e => .error (.address e)
  | .ok url => .ok ⟨url, credentials?⟩

def artifactUrl (r : RemoteRepository) (c : Coordinate) : Except Repository.Error Url :=
  (r.base.join c.repositoryPath).mapError .address

/-- Nothing is made before the server has answered. -/
def fetch (r : RemoteRepository) (c : Coordinate) (dir : String) :
    m (Except Repository.Error Artifact) := do
  match r.artifactUrl c with
  | .error e => return .error e
  | .ok url =>
    Machine.info ("Downloading " ++ url.toString)
    match ← Machine.request ⟨url.toString, r.credentials?⟩ with
    | .error f => return .error (.broken f)
    | .ok response =>
      if response.fine then
        Machine.info (totalLine response.total?)
        store response dir (Path.append dir c.fileName)
      else return .error (.refused response.status url.toString)

end RemoteRepository
end JarAtlas
