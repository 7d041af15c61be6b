import JarAtlas.Bytes

/-! The octets of a text, and the text of octets. Where octets make no character, each longest
start of a character that they do make counts as one fault, and so does each octet that starts
none. -/
namespace JarAtlas
namespace Utf8

def encode (s : String) : Bytes := s.toList.flatMap String.utf8EncodeChar

/-- Where a reader stands: between two characters, or within one whose further octets are owed,
the next of them between two bounds. -/
inductive Place where
  | between
  | within (value owed : Nat) (low high : UInt8)
  deriving Repr, DecidableEq

/-- What the first octet of a character leads to. The bounds of the second octet rule out
needlessly long forms, surrogates and numbers past the last code point. -/
def lead? (b : UInt8) : Option Place :=
  if b < 0xC2 then none
  else if b < 0xE0 then some (.within (b.toNat - 0xC0) 1 0x80 0xBF)
  else if b = 0xE0 then some (.within 0 2 0xA0 0xBF)
  else if b = 0xED then some (.within 0xD 2 0x80 0x9F)
  else if b < 0xF0 then some (.within (b.toNat - 0xE0) 2 0x80 0xBF)
  else if b = 0xF0 then some (.within 0 3 0x90 0xBF)
  else if b < 0xF4 then some (.within (b.toNat - 0xF0) 3 0x80 0xBF)
  else if b = 0xF4 then some (.within 4 3 0x80 0x8F)
  else none

def start (b : UInt8) : List (Option Char) × Place :=
  if b < 0x80 then ([some (Char.ofNat b.toNat)], .between)
  else match lead? b with
    | some place => ([], place)
    | none => ([none], .between)

/-- An octet anywhere. One that cannot go on with a character ends it as a fault and is then read
as the first octet of the next. -/
def step : Place → UInt8 → List (Option Char) × Place
  | .between, b => start b
  | .within value owed low high, b =>
    if low ≤ b ∧ b ≤ high then
      let value := value * 64 + (b.toNat - 0x80)
      if owed ≤ 1 then ([some (Char.ofNat value)], .between)
      else ([], .within value (owed - 1) 0x80 0xBF)
    else (none :: (start b).1, (start b).2)

/-- The characters of octets, with `none` for each fault. -/
def readFrom : Place → Bytes → List (Option Char)
  | .between, [] => []
  | .within .., [] => [none]
  | place, b :: bs => (step place b).1 ++ readFrom (step place b).2 bs

def read (bs : Bytes) : List (Option Char) := readFrom .between bs

def decodeLossy (bs : Bytes) : String := .ofList ((read bs).map fun c => c.getD '\uFFFD')

def decode? (bs : Bytes) : Option String := ((read bs).mapM id).map .ofList

@[simp] theorem encode_append (s t : String) : encode (s ++ t) = encode s ++ encode t := by
  simp [encode]

@[simp] theorem decodeLossy_nil : decodeLossy [] = "" := rfl

end Utf8
end JarAtlas
