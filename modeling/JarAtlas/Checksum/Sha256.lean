import JarAtlas.Bytes

/-! The digest SHA-256: blocks of sixteen words, each stirred into a state of eight words. -/
namespace JarAtlas
namespace Sha256

abbrev Word := UInt32

/-- The first 32 bits of the fractional parts of the cube roots of the first 64 primes. -/
def roundConstants : List Word :=
  [0x428a2f98, 0x71374491, 0xb5c0fbcf, 0xe9b5dba5, 0x3956c25b, 0x59f111f1, 0x923f82a4, 0xab1c5ed5,
   0xd807aa98, 0x12835b01, 0x243185be, 0x550c7dc3, 0x72be5d74, 0x80deb1fe, 0x9bdc06a7, 0xc19bf174,
   0xe49b69c1, 0xefbe4786, 0x0fc19dc6, 0x240ca1cc, 0x2de92c6f, 0x4a7484aa, 0x5cb0a9dc, 0x76f988da,
   0x983e5152, 0xa831c66d, 0xb00327c8, 0xbf597fc7, 0xc6e00bf3, 0xd5a79147, 0x06ca6351, 0x14292967,
   0x27b70a85, 0x2e1b2138, 0x4d2c6dfc, 0x53380d13, 0x650a7354, 0x766a0abb, 0x81c2c92e, 0x92722c85,
   0xa2bfe8a1, 0xa81a664b, 0xc24b8b70, 0xc76c51a3, 0xd192e819, 0xd6990624, 0xf40e3585, 0x106aa070,
   0x19a4c116, 0x1e376c08, 0x2748774c, 0x34b0bcb5, 0x391c0cb3, 0x4ed8aa4a, 0x5b9cca4f, 0x682e6ff3,
   0x748f82ee, 0x78a5636f, 0x84c87814, 0x8cc70208, 0x90befffa, 0xa4506ceb, 0xbef9a3f7, 0xc67178f2]

structure State where
  (a b c d e f g h : Word)
  deriving DecidableEq

/-- The first 32 bits of the fractional parts of the square roots of the first eight primes. -/
def initial : State :=
  ⟨0x6a09e667, 0xbb67ae85, 0x3c6ef372, 0xa54ff53a, 0x510e527f, 0x9b05688c, 0x1f83d9ab, 0x5be0cd19⟩

def rotate (x : Word) (k : Word) : Word := (x >>> k) ||| (x <<< (32 - k))

def round (s : State) (constant word : Word) : State :=
  let mixE := rotate s.e 6 ^^^ rotate s.e 11 ^^^ rotate s.e 25
  let choice := (s.e &&& s.f) ^^^ (~~~s.e &&& s.g)
  let t := s.h + mixE + choice + constant + word
  let mixA := rotate s.a 2 ^^^ rotate s.a 13 ^^^ rotate s.a 22
  let majority := (s.a &&& s.b) ^^^ (s.a &&& s.c) ^^^ (s.b &&& s.c)
  ⟨t + mixA + majority, s.a, s.b, s.c, s.d + t, s.e, s.f, s.g⟩

/-- The next word of the schedule, from the words before it, the latest first. -/
def nextWord (ws : List Word) : Word :=
  let word k := ws.getD k 0
  let low x := rotate x 7 ^^^ rotate x 18 ^^^ (x >>> 3)
  let high x := rotate x 17 ^^^ rotate x 19 ^^^ (x >>> 10)
  high (word 1) + word 6 + low (word 14) + word 15

def schedule (block : List Word) : List Word :=
  (Nat.repeat (fun ws => nextWord ws :: ws) 48 block.reverse).reverse

def compress (s : State) (block : List Word) : State :=
  let r := (roundConstants.zip (schedule block)).foldl (fun r kw => round r kw.1 kw.2) s
  ⟨s.a + r.a, s.b + r.b, s.c + r.c, s.d + r.d, s.e + r.e, s.f + r.f, s.g + r.g, s.h + r.h⟩

/-- The message, one set bit, and zeros up to the count of the message's bits in the last eight
octets of a block. -/
def pad (message : Bytes) : Bytes :=
  message ++ 0x80 :: List.replicate ((119 - message.length % 64) % 64) 0 ++
    (Bytes.ofNumber 8 (8 * message.length)).reverse

def wordOf (bs : Bytes) : Word := UInt32.ofNat (Bytes.number bs.reverse)

def wordsOf : Nat → Bytes → List Word
  | 0, _ => []
  | k + 1, bs => wordOf (bs.take 4) :: wordsOf k (bs.drop 4)

def absorb : Nat → State → Bytes → State
  | 0, s, _ => s
  | k + 1, s, bs => absorb k (compress s (wordsOf 16 (bs.take 64))) (bs.drop 64)

def State.octets (s : State) : Bytes :=
  [s.a, s.b, s.c, s.d, s.e, s.f, s.g, s.h].flatMap fun w => (Bytes.ofNumber 4 w.toNat).reverse

def digest (message : Bytes) : Bytes :=
  (absorb ((pad message).length / 64) initial (pad message)).octets

def hexDigest (message : Bytes) : String := Bytes.hex (digest message)

theorem length_pad (message : Bytes) : (pad message).length % 64 = 0 := by
  simp [pad]; omega

theorem length_digest (message : Bytes) : (digest message).length = 32 := by
  simp [digest, State.octets]

theorem hexDigest_digits (message : Bytes) : (hexDigest message).toList.length = 64 ∧
    ∀ c ∈ (hexDigest message).toList, c ∈ Bytes.hexDigits := by
  have length := Bytes.length_hex (digest message)
  rw [length_digest] at length
  exact ⟨length, fun c => Bytes.mem_hexDigits_of_mem_hex⟩

example : hexDigest [97, 98, 99] =
    "ba7816bf8f01cfea414140de5dae2223b00361a396177a9cb410ff61f20015ad" := by decide +kernel

end Sha256
end JarAtlas
