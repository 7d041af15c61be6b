import JarAtlas.Text.Case

/-! What an entry of an archive is, judged by its path alone. -/
namespace JarAtlas

open Text

inductive EntryKind where
  | directory
  | classFile
  | manifest
  | resource
  deriving DecidableEq, Repr

def classSuffix : String := ".class"

/-- Where an archive keeps its manifest. The letters may be of either kind. -/
def manifestPath : String := "META-INF/MANIFEST.MF"

namespace EntryKind

def ofPath (path : String) : EntryKind :=
  if path.toList.getLast? = some '/' then .directory
  else if sameIgnoringCase path manifestPath then .manifest
  else if classSuffix.toList.isSuffixOf path.toList then .classFile
  else .resource

def name : EntryKind → String
  | .directory => "directory"
  | .classFile => "class"
  | .manifest => "manifest"
  | .resource => "resource"

end EntryKind
end JarAtlas
