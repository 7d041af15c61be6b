import JarAtlas.Proofs.Bytes
import JarAtlas.Proofs.Text.Utf8
import JarAtlas.Zip.Member

/-! Archives as they are plainly written: the members one after the other, each with its header and
its content as it is, then the directory, then the end record without a comment. Each header reads
back as what was written into it. -/
namespace JarAtlas
namespace Zip

open Bytes

/-- A member to be written as it is, with what its headers say besides. -/
structure Plain where
  name : String
  content : Bytes
  madeBy : Nat := 20
  needed : Nat := 20
  time : Nat := 0
  date : Nat := 0x21
  internal : Nat := 0
  external : Nat := 0
  deriving DecidableEq, Repr

def utf8Flag : Nat := 1 <<< 11

namespace Plain

def description (m : Plain) : List (Nat × Nat) :=
  [(2, m.needed), (2, utf8Flag), (2, storedMethod), (2, m.time), (2, m.date),
   (4, (Crc32.checksum m.content).toNat), (4, m.content.length), (4, m.content.length),
   (2, (Utf8.encode m.name).length), (2, 0)]

def localHeader (m : Plain) : Bytes :=
  localMark ++ (fields m.description ++ Utf8.encode m.name)

def entry (m : Plain) : Bytes := m.localHeader ++ m.content

/-- The directory's header of a member whose local header is at a place of the archive. -/
def directoryHeader (m : Plain) (place : Nat) : Bytes :=
  directoryMark ++ (fields ((2, m.madeBy) :: m.description ++
    [(2, 0), (2, 0), (2, m.internal), (4, m.external), (4, place)]) ++ Utf8.encode m.name)

def header (m : Plain) (place : Nat) : Header where
  name := m.name
  encrypted := false
  method := storedMethod
  checksum := (Crc32.checksum m.content).toNat
  compressedSize := m.content.length
  localStart := place

def member (m : Plain) : Member := ⟨m.name, none, .ok m.content⟩

/-- The name and the content are short enough for the fields that tell their lengths. -/
structure Fits (m : Plain) : Prop where
  name : (Utf8.encode m.name).length < 0xFFFF
  content : m.content.length < 0xFFFFFFFF

end Plain

def entries (ms : List Plain) : Bytes := ms.flatMap Plain.entry

/-- The directory of members whose entries stand one after the other from a place on. -/
def directoryFrom : Nat → List Plain → Bytes
  | _, [] => []
  | place, m :: ms => m.directoryHeader place ++ directoryFrom (place + m.entry.length) ms

def endRecord (count size start : Nat) : Bytes :=
  endMark ++ fields [(2, 0), (2, 0), (2, count), (2, count), (4, size), (4, start), (2, 0)]

def image (ms : List Plain) : Bytes :=
  entries ms ++ (directoryFrom 0 ms ++
    endRecord ms.length (directoryFrom 0 ms).length (entries ms).length)

/-- All lengths, places and counts are less than the greatest numbers of their fields. -/
structure Fits (ms : List Plain) : Prop where
  each : ∀ m ∈ ms, m.Fits
  count : ms.length < 0xFFFF
  directory : (directoryFrom 0 ms).length < 0xFFFFFFFF
  entries : (entries ms).length < 0xFFFFFFFF

theorem isPrefixOf_append (mark bs : Bytes) : mark.isPrefixOf (mark ++ bs) = true :=
  List.isPrefixOf_iff_prefix.2 (List.prefix_append mark bs)

theorem field_behind_mark {mark bs : Bytes} {start width : Nat} (four : mark.length = 4)
    (far : 4 ≤ start) : field (mark ++ bs) start width = field bs (start - 4) width := by
  rw [field_append (four ▸ far), four]

namespace Plain

variable {m : Plain} {place : Nat}

theorem length_localHeader (m : Plain) :
    m.localHeader.length = 30 + (Utf8.encode m.name).length := by
  simp [localHeader, description, localMark]
  omega

theorem length_directoryHeader (m : Plain) (place : Nat) :
    (m.directoryHeader place).length = 46 + (Utf8.encode m.name).length := by
  simp [directoryHeader, description, directoryMark]
  omega

theorem checksum_lt (bs : Bytes) : (Crc32.checksum bs).toNat < 256 ^ 4 :=
  (Crc32.checksum bs).toNat_lt

theorem decodeName_encode (name : String) : decodeName utf8Flag (Utf8.encode name) = name := by
  have flagged : utf8Flag.testBit 11 = true := by decide
  rw [decodeName, if_pos flagged, Utf8.decodeLossy_encode]

/-- What stands in the fields of a header of the directory. -/
structure Tells (bs : Bytes) (m : Plain) (place : Nat) : Prop where
  flags : field bs 8 2 = utf8Flag
  method : field bs 10 2 = storedMethod
  checksum : field bs 16 4 = (Crc32.checksum m.content).toNat
  size : field bs 20 4 = m.content.length
  nameLength : field bs 28 2 = (Utf8.encode m.name).length
  extraLength : field bs 30 2 = 0
  commentLength : field bs 32 2 = 0
  place : field bs 42 4 = place

theorem directoryHeader_append (m : Plain) (place : Nat) (rest : Bytes) :
    m.directoryHeader place ++ rest = directoryMark ++ (fields
      [(2, m.madeBy), (2, m.needed), (2, utf8Flag), (2, storedMethod), (2, m.time), (2, m.date),
       (4, (Crc32.checksum m.content).toNat), (4, m.content.length), (4, m.content.length),
       (2, (Utf8.encode m.name).length), (2, 0), (2, 0), (2, 0), (2, m.internal), (4, m.external),
       (4, place)] ++ (Utf8.encode m.name ++ rest)) := by
  simp [directoryHeader, description]

theorem tells_directoryHeader (fits : m.Fits) (short : place < 0xFFFFFFFF) (rest : Bytes) :
    Tells (m.directoryHeader place ++ rest) m place := by
  have checksum := checksum_lt m.content
  obtain ⟨name, content⟩ := fits
  rw [directoryHeader_append]
  constructor <;>
    simp (disch := first | decide | omega) only
      [field_behind_mark, field_fields_skip, field_fields_here, Nat.reduceSub]

theorem drop_directoryHeader (m : Plain) (place : Nat) (rest : Bytes) :
    (m.directoryHeader place ++ rest).drop 46 = Utf8.encode m.name ++ rest := by
  rw [directoryHeader_append, ← List.append_assoc]
  exact List.drop_left' (by simp [directoryMark])

theorem read?_directoryHeader (fits : m.Fits) (short : place < 0xFFFFFFFF) (rest : Bytes) :
    Header.read? 0 (m.directoryHeader place ++ rest) = some (m.header place, rest) := by
  have tells := tells_directoryHeader fits short rest
  have length := m.length_directoryHeader place
  have marked : directoryMark.isPrefixOf (m.directoryHeader place ++ rest) = true := by
    rw [directoryHeader_append]
    exact isPrefixOf_append _ _
  have whole : ¬ (m.directoryHeader place ++ rest).length < 46 + (Utf8.encode m.name).length := by
    rw [List.length_append]
    omega
  have plain : storedMethod ≠ aesMethod := by decide
  have unlocked : utf8Flag.testBit 0 = false := by decide
  have name : (Utf8.encode m.name ++ rest).take (Utf8.encode m.name).length =
      Utf8.encode m.name := List.take_left' rfl
  have behind : (m.directoryHeader place ++ rest).drop (46 + (Utf8.encode m.name).length) = rest :=
    List.drop_left' length
  simp only [Header.read?, tells.flags, tells.method, tells.checksum, tells.size, tells.nameLength,
    tells.extraLength, tells.commentLength, tells.place, Nat.add_zero, Nat.zero_add, whole, marked,
    plain, not_true_eq_false, or_self, if_false, drop_directoryHeader, name, behind,
    decodeName_encode, unlocked]
  rfl

end Plain

end Zip
end JarAtlas
