import JarAtlas.Text.Blank
import JarAtlas.Text.Pieces

/-! Lists of packages in attributes, and short forms of names for labels. -/
namespace JarAtlas
namespace Dot

open Text

/-- The clauses between the commas that stand outside quotes. The flag says whether the text
starts within quotes. -/
def clausesFrom : Bool → List Char → List (List Char)
  | _, [] => [[]]
  | quoted, c :: cs =>
    if c = ',' ∧ quoted = false then [] :: clausesFrom false cs
    else match clausesFrom (if c = '"' then !quoted else quoted) cs with
      | [] => [[c]]
      | p :: ps => (c :: p) :: ps

def clauses (value : List Char) : List (List Char) := clausesFrom false value

/-- The name at the front of a clause. What follows a semicolon does not count. -/
def packageName (clause : List Char) : List Char := trimChars ((pieces ';' clause).headD [])

def packages (value : String) : List String :=
  (((clauses value.toList).map packageName).filter fun p => !p.isEmpty).map .ofList

def ellipsis : String := "..."

def firstChars (count : Nat) (s : String) : String := .ofList (s.toList.take count)

/-- The last two segments of a long name, the last one of a shorter name, and of a name with one or
two segments what fits. -/
def shortPackage (full : String) : String :=
  let segments := split '.' full
  if 4 < segments.length then join "." (segments.drop (segments.length - 2))
  else if 2 < segments.length then segments.getLastD ""
  else if 20 < full.length then firstChars 17 full ++ ellipsis
  else full

/-- At most so many characters, of which the last three say that there were more. -/
def shorten (limit : Nat) (s : String) : String :=
  if s.length ≤ limit then s else firstChars (limit - 3) s ++ ellipsis

theorem length_shorten {limit : Nat} (s : String) (h : 3 ≤ limit) :
    (shorten limit s).length ≤ limit := by
  unfold shorten
  split
  · assumption
  · have dots : ellipsis.length = 3 := rfl
    simp only [String.length_append, firstChars, String.length_ofList, List.length_take, dots]
    omega

end Dot
end JarAtlas
