import JarAtlas.Checksum.Crc32
import JarAtlas.Zip.Directory
import JarAtlas.Zip.Inflate

/-! The members of an archive: each has a name, may refuse to be opened, and has data that may be
broken without any harm to its neighbours. -/
namespace JarAtlas
namespace Zip

open Bytes

structure Member where
  name : String
  refusal : Option Error
  data : Except DataError Bytes

def storedMethod : Nat := 0

def deflateMethod : Nat := 8

/-- Why a member cannot be opened: what its entry says, then its local header, then its method. -/
def Header.refusal? (bs : Bytes) (h : Header) : Option Error :=
  if h.encrypted then some .encrypted
  else if (bs.drop h.localStart).length < 30 then some .truncated
  else if ¬ localMark.isPrefixOf (bs.drop h.localStart) then some .noLocalHeader
  else if h.method ≠ storedMethod ∧ h.method ≠ deflateMethod then some .unknownMethod
  else none

/-- The octets behind the local header, as many as the entry says or as the file has. -/
def Header.rawData (bs : Bytes) (h : Header) : Bytes :=
  let here := bs.drop h.localStart
  (here.drop (30 + field here 26 2 + field here 28 2)).take h.compressedSize

def Header.data (bs : Bytes) (h : Header) : Except DataError Bytes := do
  let content ← if h.method = deflateMethod then inflate (h.rawData bs) else .ok (h.rawData bs)
  if (Crc32.checksum content).toNat = h.checksum then return content else throw .wrongChecksum

def Header.member (bs : Bytes) (h : Header) : Member := ⟨h.name, h.refusal? bs, h.data bs⟩

def members (bs : Bytes) : Except Error (List Member) :=
  (directory bs).map fun hs => hs.map (Header.member bs)

end Zip
end JarAtlas
