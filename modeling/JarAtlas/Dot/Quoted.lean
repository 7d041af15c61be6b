import JarAtlas.Text.Pieces

/-! Texts between quotes in diagrams. -/
namespace JarAtlas
namespace Dot

open Text

/-- The characters that are marked, each with its mark, in the order in which they are replaced.
The backslash comes first, for the marks of the others begin with one. -/
def marks : List (Char × Char) :=
  [('\\', '\\'), ('"', '"'), ('\n', 'n'), ('\r', 'r'), ('\t', 't')]

def escapeChars (cs : List Char) : List Char :=
  marks.foldl (fun cs m => replace m.1 ['\\', m.2] cs) cs

def escape (s : String) : String := .ofList (escapeChars s.toList)

def nodeId (name : String) : String := "\"" ++ escape name ++ "\""

@[simp] theorem toList_escape (s : String) : (escape s).toList = escapeChars s.toList := by
  simp [escape]

end Dot
end JarAtlas
