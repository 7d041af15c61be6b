import JarAtlas.Archive.EntryKind
import JarAtlas.Text.Pieces

/-! Names of classes, and the modules that they belong to under a root namespace. -/
namespace JarAtlas

open Text

def defaultRoot : String := "org.apache.commons.math3"

namespace ClassName

/-- The dotted name of the top-level class in an entry. Classes within others, which have a dollar
sign in their path, have none. -/
def ofPath? (path : String) : Option String :=
  match beforeSuffix? classSuffix.toList path.toList with
  | none => none
  | some stem =>
    if path.toList.contains '$' then none else some (.ofList (replace '/' ['.'] stem))

def rootSegments : Nat := 4

/-- The segment behind the root, if the segments before it are those of the root. -/
def moduleOf? (root className : String) : Option String :=
  let segments := split '.' className
  if join "." (segments.take rootSegments) = root then segments[rootSegments]? else none

end ClassName
end JarAtlas
