import JarAtlas.Bytes

/-! The cyclic redundancy check of archives: 32 bits, the least significant first. -/
namespace JarAtlas
namespace Crc32

/-- The generator polynomial, with the coefficient of the highest power in the lowest bit. -/
def generator : UInt32 := 0xEDB88320

def shiftBit (r : UInt32) : UInt32 := if r &&& 1 = 1 then (r >>> 1) ^^^ generator else r >>> 1

def feed (r : UInt32) (b : UInt8) : UInt32 :=
  Nat.repeat shiftBit 8 (r ^^^ b.toUInt32)

/-- The remainder starts with all bits set and is inverted at the end. -/
def checksum (bs : Bytes) : UInt32 := bs.foldl feed 0xFFFFFFFF ^^^ 0xFFFFFFFF

end Crc32
end JarAtlas
