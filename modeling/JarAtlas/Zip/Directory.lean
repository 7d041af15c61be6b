import JarAtlas.Text.Utf8
import JarAtlas.Text.CodePage437
import JarAtlas.Zip.Error

/-! The central directory of an archive, and the end record that says where it is. Octets may
stand in front of the archive and behind its end record, so that the record is searched for from
the end of the file, and all places count from where the directory turns out to be. -/
namespace JarAtlas
namespace Zip

open Bytes

def endMark : Bytes := [0x50, 0x4B, 0x05, 0x06]

def directoryMark : Bytes := [0x50, 0x4B, 0x01, 0x02]

def localMark : Bytes := [0x50, 0x4B, 0x03, 0x04]

def placesFrom (mark : Bytes) : Nat → Bytes → List Nat
  | _, [] => []
  | i, b :: bs =>
    if mark.isPrefixOf (b :: bs) then i :: placesFrom mark (i + 1) bs
    else placesFrom mark (i + 1) bs

def places (mark bs : Bytes) : List Nat := placesFrom mark 0 bs

/-- What the end record says. The directory's place is counted from the archive's front. -/
structure EndRecord where
  disk : Nat
  directoryDisk : Nat
  entriesHere : Nat
  entries : Nat
  directoryStart : Nat
  deriving DecidableEq, Repr

/-- The end record at the front of these octets, with a comment that does not pass their end. -/
def EndRecord.read (bs : Bytes) : Except Error EndRecord :=
  if bs.length < 22 then .error .truncated
  else if bs.length < 22 + field bs 20 2 then .error .commentPastEnd
  else .ok ⟨field bs 4 2, field bs 6 2, field bs 8 2, field bs 10 2, field bs 16 4⟩

structure Header where
  name : String
  encrypted : Bool
  method : Nat
  checksum : Nat
  compressedSize : Nat
  localStart : Nat
  deriving DecidableEq, Repr

/-- A name is in UTF-8 if its flag says so, else in code page 437. -/
def decodeName (flags : Nat) (bs : Bytes) : String :=
  if flags.testBit 11 then Utf8.decodeLossy bs else CodePage437.decode bs

def aesMethod : Nat := 99

/-- The entry at the front of these octets, in an archive that starts at a place of the file, and
the octets after it. -/
def Header.read? (archiveStart : Nat) (bs : Bytes) : Option (Header × Bytes) :=
  let nameLength := field bs 28 2
  let rest := nameLength + field bs 30 2 + field bs 32 2
  if bs.length < 46 + rest ∨ ¬ directoryMark.isPrefixOf bs ∨ field bs 10 2 = aesMethod then none
  else
    let flags := field bs 8 2
    some ({ name := decodeName flags ((bs.drop 46).take nameLength)
            encrypted := flags.testBit 0
            method := field bs 10 2
            checksum := field bs 16 4
            compressedSize := field bs 20 4
            localStart := archiveStart + field bs 42 4 },
      bs.drop (46 + rest))

def readHeaders? (archiveStart : Nat) : Nat → Bytes → Option (List Header)
  | 0, _ => some []
  | k + 1, bs => do
    let (h, rest) ← Header.read? archiveStart bs
    let hs ← readHeaders? archiveStart k rest
    return h :: hs

/-- Where the archive starts, given its end record and the place of that. Where there are entries,
the directory is the first mark at or behind the place that the record names. -/
def archiveStart (bs : Bytes) (place : Nat) (r : EndRecord) : Except Error Nat :=
  if r.entries = 0 then .ok (place - r.directoryStart)
  else if place ≤ r.directoryStart then .error .directoryPastEnd
  else match placesFrom directoryMark 0 ((bs.take place).drop r.directoryStart) with
    | [] => .error .noDirectory
    | found :: _ => .ok found

def directoryAt? (bs : Bytes) (start : Nat) (r : EndRecord) : Option (List Header) :=
  if r.disk ≠ r.directoryDisk then none
  else readHeaders? start r.entriesHere (bs.drop (start + r.directoryStart))

/-- The first of the places whose end record leads to a directory. If there is none, the answer is
the first broken record, or the last misplaced directory after that, among those tried since an
end record last led to a directory that cannot be read. -/
def searchDirectory (bs : Bytes) : Option Error → List Nat → Except Error (List Header)
  | problem, [] => .error (problem.getD .noEndRecord)
  | problem, place :: more =>
    match EndRecord.read (bs.drop place) with
    | .error e => searchDirectory bs (some (problem.getD e)) more
    | .ok r => match archiveStart bs place r with
      | .error e => searchDirectory bs (some e) more
      | .ok start => match directoryAt? bs start r with
        | none => searchDirectory bs none more
        | some headers => .ok headers

/-- A later entry of the same name takes the place of the earlier one. -/
def replaceNamesake (h : Header) : List Header → List Header
  | [] => [h]
  | g :: gs => if g.name = h.name then h :: gs else g :: replaceNamesake h gs

def directory (bs : Bytes) : Except Error (List Header) :=
  (searchDirectory bs none (places endMark bs).reverse).map fun headers =>
    headers.foldl (fun hs h => replaceNamesake h hs) []

end Zip
end JarAtlas
