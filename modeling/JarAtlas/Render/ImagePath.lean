import JarAtlas.Path

/-! Where the image of a diagram goes: beside its description, with the format as extension. -/
namespace JarAtlas
namespace Render

open JarAtlas.Path

/-- The file name with another extension. The name `..` that is left of a name with two dots at its
front stays as it is, for it is no file name. -/
def renamed (ext name : String) (last : Bool) : String :=
  let (stem, old?) := splitExtension name
  if old?.isSome ∧ stem = "." ∧ last then ".."
  else if ext = "" then stem
  else stem ++ "." ++ ext

/-- The path with another extension. Idle pieces at its end are dropped. A path that has no file
name stays as it is. -/
def withExtension (ext path : String) : String :=
  let (named, tail) := splitTail (parts path)
  match named.getLast? with
  | none => path
  | some name =>
    if name = ".." then path else ofParts (named.dropLast ++ [renamed ext name tail.isEmpty])

def isExtension (format : String) : Bool := !format.toList.contains '/'

/-- The image of a description. Where that would be the description itself, a word is put in front
of the format. -/
def besideDescription (format description : String) : String :=
  let image := withExtension format description
  if steps image = steps description then withExtension ("rendered." ++ format) description
  else image

def imagePath? (format description : String) : Option String :=
  if isExtension format then some (besideDescription format description) else none

theorem imagePath?_of_slash {format : String} (slash : '/' ∈ format.toList)
    (description : String) : imagePath? format description = none := by
  simp [imagePath?, isExtension, slash]

theorem imagePath?_of_no_slash {format : String} (plain : '/' ∉ format.toList)
    (description : String) :
    imagePath? format description = some (besideDescription format description) := by
  simp [imagePath?, isExtension, plain]

end Render
end JarAtlas
