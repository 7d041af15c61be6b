import JarAtlas.Zip.Error

/-! Codes of different lengths, told apart by their first bits. The lengths alone make the code:
shorter codes come first, and among codes of one length those of smaller symbols. -/
namespace JarAtlas
namespace Zip

abbrev Bits := List Bool

/-- A symbol stands where a code ends. -/
inductive CodeTree where
  | unused
  | symbol (s : Nat)
  | branch (zero one : CodeTree)
  deriving DecidableEq, Repr

namespace CodeTree

def children : CodeTree → CodeTree × CodeTree
  | .branch zero one => (zero, one)
  | _ => (.unused, .unused)

def insert (s : Nat) : Bits → CodeTree → CodeTree
  | [], _ => .symbol s
  | false :: code, t => .branch (insert s code t.children.1) t.children.2
  | true :: code, t => .branch t.children.1 (insert s code t.children.2)

def decode : CodeTree → Bits → Except DataError (Nat × Bits)
  | .symbol s, bits => .ok (s, bits)
  | .unused, _ => .error .corrupt
  | .branch _ _, [] => .error .incomplete
  | .branch zero one, bit :: bits => if bit then one.decode bits else zero.decode bits

end CodeTree

/-- A number in a given count of bits, the most significant first. -/
def bitsOf : Nat → Nat → Bits
  | 0, _ => []
  | k + 1, n => n.testBit k :: bitsOf k n

def longest : Nat := 15

/-- The first code of a length: behind those that shorter codes take up. -/
def firstCode (lengths : List Nat) : Nat → Nat
  | 0 => 0
  | 1 => 0
  | l + 2 => 2 * (firstCode lengths (l + 1) + lengths.count (l + 1))

def fullCount : Nat := 1 <<< longest

/-- How many of them these lengths take up. A length of zero is no code. -/
def takenUp : List Nat → Nat
  | [] => 0
  | l :: ls => (if l = 0 then 0 else 1 <<< (longest - l)) + takenUp ls

def insertFrom (lengths : List Nat) : Nat → List Nat → List Nat → CodeTree → CodeTree
  | _, _, [], t => t
  | s, before, l :: rest, t =>
    let code := firstCode lengths l + before.count l
    insertFrom lengths (s + 1) (l :: before) rest
      (if l = 0 then t else t.insert s (bitsOf l code))

/-- The code of these lengths. Without any code, one bit is read before it is found unused. -/
def codeTree (lengths : List Nat) : CodeTree :=
  insertFrom lengths 0 [] lengths (.branch .unused .unused)

/-- The lengths use every code, or they use none at all, or just one code of a single bit. -/
def usable (lengths : List Nat) : Bool :=
  takenUp lengths == fullCount || lengths.all (· == 0) || lengths.filter (0 < ·) == [1]

def fullOrEmpty (lengths : List Nat) : Bool :=
  takenUp lengths == fullCount || lengths.all (· == 0)

namespace CodeTree

theorem decode_insert (s : Nat) (code rest : Bits) (t : CodeTree) :
    (t.insert s code).decode (code ++ rest) = .ok (s, rest) := by
  induction code generalizing t with
  | nil => rfl
  | cons bit code ih => cases bit <;> simp [insert, decode, ih]

end CodeTree

end Zip
end JarAtlas
