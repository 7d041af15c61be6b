import JarAtlas.Bytes
import JarAtlas.Zip.Huffman

/-! Compressed data: blocks that are stored or written in codes, fixed ones or ones that the block
itself describes. Octets after the last block are ignored. -/
namespace JarAtlas
namespace Zip

/-- The bits of octets, from the least significant of each. -/
def bitsOfBytes (bs : Bytes) : Bits :=
  bs.flatMap fun b => (List.range 8).map b.toNat.testBit

/-- The number in so many bits, the least significant first, and the bits after it. -/
def takeNumber : Nat → Bits → Except DataError (Nat × Bits)
  | 0, bits => .ok (0, bits)
  | _ + 1, [] => .error .incomplete
  | k + 1, bit :: bits => do
    let (n, bits) ← takeNumber k bits
    return (bit.toNat + 2 * n, bits)

def takeOctets : Nat → Bits → Array UInt8 → Except DataError (Bits × Array UInt8)
  | 0, bits, out => .ok (bits, out)
  | k + 1, bits, out => do
    let (n, bits) ← takeNumber 8 bits
    takeOctets k bits (out.push (UInt8.ofNat n))

/-- A stored block starts at an octet. Its length is followed by the complement of its length. -/
def storedBlock (bits : Bits) (out : Array UInt8) : Except DataError (Bits × Array UInt8) := do
  let (length, bits) ← takeNumber 16 (bits.drop (bits.length % 8))
  let (complement, bits) ← takeNumber 16 bits
  if length + complement ≠ 0xFFFF then throw .corrupt
  takeOctets length bits out

/-- The least length of each length symbol from 257 on, and its count of further bits. -/
def lengthSymbols : List (Nat × Nat) :=
  [(3, 0), (4, 0), (5, 0), (6, 0), (7, 0), (8, 0), (9, 0), (10, 0), (11, 1), (13, 1), (15, 1),
   (17, 1), (19, 2), (23, 2), (27, 2), (31, 2), (35, 3), (43, 3), (51, 3), (59, 3), (67, 4),
   (83, 4), (99, 4), (115, 4), (131, 5), (163, 5), (195, 5), (227, 5), (258, 0)]

def distanceSymbols : List (Nat × Nat) :=
  [(1, 0), (2, 0), (3, 0), (4, 0), (5, 1), (7, 1), (9, 2), (13, 2), (17, 3), (25, 3), (33, 4),
   (49, 4), (65, 5), (97, 5), (129, 6), (193, 6), (257, 7), (385, 7), (513, 8), (769, 8),
   (1025, 9), (1537, 9), (2049, 10), (3073, 10), (4097, 11), (6145, 11), (8193, 12), (12289, 12),
   (16385, 13), (24577, 13)]

def takeExtra (table : List (Nat × Nat)) (s : Nat) (bits : Bits) :
    Except DataError (Nat × Bits) :=
  match table[s]? with
  | none => .error .corrupt
  | some (least, width) => do
    let (n, bits) ← takeNumber width bits
    return (least + n, bits)

def copyBack (distance : Nat) : Nat → Array UInt8 → Array UInt8
  | 0, out => out
  | k + 1, out => copyBack distance k (out.push (out.getD (out.size - distance) 0))

/-- The symbols of a block up to the one that ends it: octets, or a length with a distance. Each
symbol takes a bit at least, so that the count of bits bounds the steps. -/
def codedSymbols (literals distances : CodeTree) :
    Nat → Bits → Array UInt8 → Except DataError (Bits × Array UInt8)
  | 0, _, _ => .error .incomplete
  | steps + 1, bits, out => do
    let (s, bits) ← literals.decode bits
    if s < 256 then codedSymbols literals distances steps bits (out.push (UInt8.ofNat s))
    else if s = 256 then return (bits, out)
    else
      let (length, bits) ← takeExtra lengthSymbols (s - 257) bits
      let (d, bits) ← distances.decode bits
      let (distance, bits) ← takeExtra distanceSymbols d bits
      if out.size < distance then throw .corrupt
      codedSymbols literals distances steps bits (copyBack distance length out)

def fixedLengths : List Nat :=
  List.replicate 144 8 ++ List.replicate 112 9 ++ List.replicate 24 7 ++ List.replicate 8 8

/-- The order in which the lengths of the code for lengths are written. -/
def lengthOrder : List Nat :=
  [16, 17, 18, 0, 8, 7, 9, 6, 10, 5, 11, 4, 12, 3, 13, 2, 14, 1, 15]

def takeNumbers (width : Nat) : Nat → Bits → Except DataError (List Nat × Bits)
  | 0, bits => .ok ([], bits)
  | k + 1, bits => do
    let (n, bits) ← takeNumber width bits
    let (ns, bits) ← takeNumbers width k bits
    return (n :: ns, bits)

/-- A symbol of the code for lengths. Where that code is empty, each bit is read as a zero. -/
def takeLengthSymbol (lengths : List Nat) (tree : CodeTree) (bits : Bits) :
    Except DataError (Nat × Bits) :=
  if lengths.all (· == 0) then do
    let (_, bits) ← takeNumber 1 bits
    return (0, bits)
  else tree.decode bits

def repeated (s : Nat) (last? : Option Nat) (bits : Bits) :
    Except DataError (List Nat × Bits) :=
  if s < 16 then .ok ([s], bits)
  else if s = 16 then do
    let (n, bits) ← takeNumber 2 bits
    match last? with
    | none => throw .corrupt
    | some l => return (List.replicate (3 + n) l, bits)
  else if s = 17 then do
    let (n, bits) ← takeNumber 3 bits
    return (List.replicate (3 + n) 0, bits)
  else do
    let (n, bits) ← takeNumber 7 bits
    return (List.replicate (11 + n) 0, bits)

/-- The lengths up to a count, the latest first. Each symbol gives one length at least. -/
def takeLengths (lengths : List Nat) (tree : CodeTree) (count : Nat) :
    Nat → List Nat → Bits → Except DataError (List Nat × Bits)
  | 0, done, bits => .ok (done, bits)
  | steps + 1, done, bits =>
    if count ≤ done.length then .ok (done, bits)
    else do
      let (s, bits) ← takeLengthSymbol lengths tree bits
      let (ls, bits) ← repeated s done.head? bits
      if count < done.length + ls.length then throw .corrupt
      takeLengths lengths tree count steps (ls ++ done) bits

def describedBlock (bits : Bits) (out : Array UInt8) : Except DataError (Bits × Array UInt8) := do
  let (literalCount, bits) ← takeNumber 5 bits
  let (distanceCount, bits) ← takeNumber 5 bits
  let (lengthCount, bits) ← takeNumber 4 bits
  if 286 < literalCount + 257 ∨ 30 < distanceCount + 1 then throw .corrupt
  let (written, bits) ← takeNumbers 3 (lengthCount + 4) bits
  let lengths := (List.range 19).map fun s => (((lengthOrder.zip written).lookup s).getD 0)
  if !fullOrEmpty lengths then throw .corrupt
  let count := literalCount + 257 + (distanceCount + 1)
  let (latestFirst, bits) ← takeLengths lengths (codeTree lengths) count count [] bits
  let all := latestFirst.reverse
  let literals := all.take (literalCount + 257)
  let distances := all.drop (literalCount + 257)
  if literals.getD 256 0 = 0 then throw .corrupt
  if !usable literals then throw .corrupt
  if !usable distances then throw .corrupt
  codedSymbols (codeTree literals) (codeTree distances) (bits.length + 1) bits out

def fixedBlock (bits : Bits) (out : Array UInt8) : Except DataError (Bits × Array UInt8) :=
  codedSymbols (codeTree fixedLengths) (codeTree (List.replicate 32 5)) (bits.length + 1) bits out

/-- The blocks up to the one that is marked as the last. Each takes three bits at least. -/
def blocks : Nat → Bits → Array UInt8 → Except DataError (Array UInt8)
  | 0, _, _ => .error .incomplete
  | steps + 1, bits, out => do
    let (last, bits) ← takeNumber 1 bits
    let (kind, bits) ← takeNumber 2 bits
    let (bits, out) ← match kind with
      | 0 => storedBlock bits out
      | 1 => fixedBlock bits out
      | 2 => describedBlock bits out
      | _ => throw .corrupt
    if last = 1 then return out else blocks steps bits out

def inflate (bs : Bytes) : Except DataError Bytes :=
  (blocks (8 * bs.length + 1) (bitsOfBytes bs) #[]).map Array.toList

end Zip
end JarAtlas
