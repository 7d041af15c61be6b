import JarAtlas.Url.Percent

/-! The segments of a path. Segments of dots are steps within it, also when the dots are written
with percent signs. -/
namespace JarAtlas
namespace Url

def isSlash (special : Bool) (c : Char) : Bool := c == '/' || (special && c == '\\')

def cutAtSlashes (special : Bool) : List Char → List (List Char)
  | [] => [[]]
  | c :: cs =>
    if isSlash special c then [] :: cutAtSlashes special cs
    else match cutAtSlashes special cs with
      | [] => [[c]]
      | p :: ps => (c :: p) :: ps

/-- The percent form of a dot is a dot. -/
def plainDots : List Char → List Char
  | '%' :: '2' :: 'e' :: cs | '%' :: '2' :: 'E' :: cs => '.' :: plainDots cs
  | c :: cs => c :: plainDots cs
  | [] => []

def isStay (segment : List Char) : Bool := plainDots segment == ['.']

def isUp (segment : List Char) : Bool := plainDots segment == ['.', '.']

/-- A letter and a colon or a bar, as a disk is named. -/
def isDrive : List Char → Bool
  | [c, d] => c.isAlpha && (d == ':' || d == '|')
  | _ => false

def isPlainDrive : List Char → Bool
  | [c, ':'] => c.isAlpha
  | _ => false

/-- The last segment goes, but no path of a file goes above its disk. -/
def goUp (file : Bool) (done : List String) : List String :=
  if file ∧ (done.getLast?.map fun s => isPlainDrive s.toList) = some true then done
  else done.dropLast

/-- A segment as it is kept. The first one of a file's path may name a disk. -/
def keptSegment (file : Bool) (done : List String) (segment : List Char) : String :=
  if file ∧ isDrive segment ∧ done.all (· == "") then .ofList (segment.take 1 ++ [':'])
  else .ofList (percentEncode inPath segment)

/-- The segments that follow others. After a step in the last place, the path ends in a slash. -/
def walkSegments (file : Bool) (done : List String) : List (List Char) → List String
  | [] => done
  | [last] =>
    if isUp last then goUp file done ++ [""]
    else if isStay last then done ++ [""]
    else done ++ [keptSegment file done last]
  | s :: ss =>
    if isUp s then walkSegments file (goUp file done) ss
    else if isStay s then walkSegments file done ss
    else walkSegments file (done ++ [keptSegment file done s]) ss

def dropEmptyFront : List String → List String
  | "" :: s :: ss => dropEmptyFront (s :: ss)
  | ss => ss

def segmentsAfter (special file : Bool) (done : List String) (path : List Char) : List String :=
  let names := walkSegments file done (cutAtSlashes special path)
  if file then dropEmptyFront names else names

theorem cutAtSlashes_ne_nil (special : Bool) (cs : List Char) : cutAtSlashes special cs ≠ [] := by
  cases cs with
  | nil => simp [cutAtSlashes]
  | cons c cs =>
    simp only [cutAtSlashes]
    split
    · simp
    · split <;> simp

end Url
end JarAtlas
