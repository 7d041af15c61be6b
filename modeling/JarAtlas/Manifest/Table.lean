import JarAtlas.Text.Lines
import JarAtlas.Manifest.Basic

/-! The attributes as rows of a table in which all colons stand in one column. -/
namespace JarAtlas
namespace Manifest

open Text

/-- The name column is two wider than the longest name, or than ten if there is no attribute. -/
def nameWidth (m : Manifest) : Nat :=
  ((m.attributes.map fun a => a.name.length).max?).getD 10 + 2

/-- Blanks fill a text up to a width, counted in code points. -/
def padded (width : Nat) (s : String) : String :=
  s ++ .ofList (List.replicate (width - s.length) ' ')

def row (width : Nat) (a : Attribute) : String := padded width a.name ++ " : " ++ a.value

def totalLine (m : Manifest) : String :=
  "=== Total attributes: " ++ toString m.size ++ " ==="

def table (m : Manifest) : String :=
  unlines (m.attributes.map (row m.nameWidth) ++ [m.totalLine])

end Manifest
end JarAtlas
