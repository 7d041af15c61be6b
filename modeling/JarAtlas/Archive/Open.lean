import JarAtlas.Archive.Basic
import JarAtlas.Machine.Basic
import JarAtlas.Path

/-! Opening an archive that is a file: either all of it is read or nothing is known about it. -/
namespace JarAtlas
namespace Archive

/-- The file cannot be read, the archive is unsound, or the data of a manifest is. -/
inductive OpenError where
  | file (f : Fault)
  | archive (e : Zip.Error)
  | data (e : Zip.DataError)
  deriving DecidableEq, Repr

namespace OpenError

def ofMember : MemberError → OpenError
  | .refused e => .archive e
  | .broken e => .data e

def message : OpenError → String
  | .file f => "IO error: " ++ f.message
  | .archive e => "Zip error: " ++ e.message
  | .data e => "IO error: " ++ e.message

def causes : OpenError → List String
  | .file f => [f.message]
  | .archive e => e.message :: e.cause?.toList
  | .data e => [e.message]

end OpenError

/-- A directory is a file whose content breaks off, and not a missing one. -/
def refusal : Fault → OpenError
  | .isDirectory => .archive .isDirectory
  | f => .file f

def nameOf (path : String) : String := (Path.fileStem? path).getD "archive"

def ofBytes (path : String) (content : Bytes) : Except OpenError Archive :=
  match Zip.members content with
  | .error e => .error (.archive e)
  | .ok members => (ofMembers (nameOf path) members).mapError OpenError.ofMember

def skippedIn (content : Bytes) : List String :=
  match Zip.members content with
  | .error _ => []
  | .ok members => skippedLines members

variable {m : Type → Type} [Monad m] [Machine m]

def load (path : String) : m (Except OpenError Archive) := do
  match ← Machine.readFile path with
  | .error f => return .error (refusal f)
  | .ok content =>
    (skippedIn content).forM fun line =>
      Machine.debug ("Skipping malformed manifest line: " ++ line)
    match ofBytes path content with
    | .error e => return .error e
    | .ok archive =>
      Machine.debug ("Opened " ++ path ++ ": " ++ toString archive.paths.length ++ " entries")
      return .ok archive

end Archive
end JarAtlas
