import JarAtlas.Archive.EntryKind
import JarAtlas.Manifest.Parse
import JarAtlas.Zip.Member

/-! An archive as the analysis sees it: its name, the paths of its entries in their order, and its
manifest if it has one. -/
namespace JarAtlas

structure Archive where
  name : String
  paths : List String
  manifest : Option Manifest
  deriving DecidableEq, Repr

namespace Archive

def ofPaths (name : String) (paths : List String) : Archive := ⟨name, paths, none⟩

def entries (a : Archive) : List (String × EntryKind) :=
  a.paths.map fun path => (path, EntryKind.ofPath path)

def classCount (a : Archive) : Nat :=
  (a.paths.filter fun path => EntryKind.ofPath path = .classFile).length

/-- An archive without a manifest has one without attributes. -/
def manifestOrEmpty (a : Archive) : Manifest := a.manifest.getD Manifest.empty

/-- Why a member stops the reading of its archive. -/
inductive MemberError where
  | refused (e : Zip.Error)
  | broken (e : Zip.DataError)
  deriving DecidableEq, Repr

/-- A member joins the archive. Every member must open, but only a manifest has its data read, and
a later manifest takes the place of an earlier one. -/
def addMember (a : Archive) (m : Zip.Member) : Except MemberError Archive :=
  match m.refusal with
  | some e => .error (.refused e)
  | none =>
    if EntryKind.ofPath m.name = .manifest then
      match m.data with
      | .error e => .error (.broken e)
      | .ok content =>
        .ok { a with paths := a.paths ++ [m.name],
                     manifest := some (Manifest.parse (Utf8.decodeLossy content)) }
    else .ok { a with paths := a.paths ++ [m.name] }

def ofMembers (name : String) (members : List Zip.Member) : Except MemberError Archive :=
  members.foldlM addMember ⟨name, [], none⟩

/-- The lines of manifests that were skipped before a member stopped the reading, if one did. -/
def skippedLines : List Zip.Member → List String
  | [] => []
  | m :: ms =>
    if m.refusal.isSome then []
    else if EntryKind.ofPath m.name = .manifest then
      match m.data with
      | .error _ => []
      | .ok content => Manifest.skippedLines (Utf8.decodeLossy content) ++ skippedLines ms
    else skippedLines ms

@[simp] theorem paths_ofPaths (name : String) (paths : List String) :
    (ofPaths name paths).paths = paths := rfl

end Archive
end JarAtlas
