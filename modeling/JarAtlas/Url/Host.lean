import JarAtlas.Text.Case
import JarAtlas.Url.Basic
import JarAtlas.Url.Percent

/-! Hosts: names, and numbers in the two forms of the internet protocol. -/
namespace JarAtlas
namespace Url

open Text

def numberOf? (base : Nat) (cs : List Char) : Option Nat :=
  cs.foldlM (fun n c => do
    let d ← hexValue? c
    if d < base then some (n * base + d) else none) 0

/-- A number in the base that its first characters tell. Nothing after them stands for zero. -/
def ipv4Number? (cs : List Char) : Option Nat :=
  match cs with
  | [] => none
  | '0' :: 'x' :: ds | '0' :: 'X' :: ds => numberOf? 16 ds
  | '0' :: d :: ds => numberOf? 8 (d :: ds)
  | ds => numberOf? 10 ds

def labels (cs : List Char) : List (List Char) :=
  let ps := pieces '.' cs
  if ps.getLast? = some [] then ps.dropLast else ps

/-- The last label is a number, so that the whole must be one. -/
def endsInNumber (cs : List Char) : Bool :=
  match (labels cs).getLast? with
  | none => false
  | some l => (!l.isEmpty && l.all Char.isDigit) || (ipv4Number? l).isSome

/-- One octet for each number but the last, which fills what is left. -/
def ipv4Value? (numbers : List Nat) : Option Nat :=
  match numbers.getLast? with
  | none => none
  | some last =>
    let high := numbers.dropLast
    let low := 8 * (4 - high.length)
    if 4 < numbers.length ∨ high.any (255 < ·) ∨ 1 <<< low ≤ last then none
    else some (high.foldl (fun n d => n * 256 + d) 0 <<< low + last)

def ipv4Text (n : Nat) : String :=
  join "." ([24, 16, 8, 0].map fun k => ToString.toString (n >>> k % 256))

def ipv4? (cs : List Char) : Option String :=
  ((labels cs).mapM ipv4Number?).bind fun ns => (ipv4Value? ns).map ipv4Text

def cutPair? : List Char → Option (List Char × List Char)
  | [] => none
  | ':' :: ':' :: cs => some ([], cs)
  | c :: cs => (cutPair? cs).map fun (before, after) => (c :: before, after)

def octet? (cs : List Char) : Option Nat :=
  if cs.isEmpty ∨ (cs.head? = some '0' ∧ 1 < cs.length) then none
  else (numberOf? 10 cs).filter (· ≤ 255)

def group? (cs : List Char) : Option (List Nat) :=
  if cs.isEmpty ∨ 4 < cs.length then none else (numberOf? 16 cs).map fun n => [n]

/-- The last two groups may be written as four octets. -/
def lastGroups? (cs : List Char) : Option (List Nat) :=
  if cs.contains '.' then
    match (pieces '.' cs).mapM octet? with
    | some [a, b, c, d] => some [a * 256 + b, c * 256 + d]
    | _ => none
  else group? cs

def groups? (cs : List Char) : Option (List Nat) :=
  if cs.isEmpty then some []
  else
    let ps := pieces ':' cs
    do
      let front ← ps.dropLast.mapM group?
      let back ← lastGroups? (ps.getLastD [])
      return front.flatten ++ back

/-- Eight groups, of which a pair of colons may leave out zeros. -/
def ipv6Groups? (cs : List Char) : Option (List Nat) :=
  match cutPair? cs with
  | none => (groups? cs).filter fun gs => gs.length = 8
  | some (before, after) => do
    if before.contains '.' then none
    let front ← groups? before
    let back ← groups? after
    if 7 < front.length + back.length then none
    else some (front ++ List.replicate (8 - front.length - back.length) 0 ++ back)

def zerosAt (gs : List Nat) (k : Nat) : Nat := ((gs.drop k).takeWhile (· == 0)).length

def longestZeros (gs : List Nat) : Nat :=
  (List.range gs.length).foldl (fun best k => if zerosAt gs best < zerosAt gs k then k else best) 0

def groupsText (gs : List Nat) : String :=
  join ":" (gs.map fun n => String.ofList (Nat.toDigits 16 n))

/-- The longest run of two zeros or more is left out. -/
def ipv6Text (gs : List Nat) : String :=
  let start := longestZeros gs
  let count := zerosAt gs start
  if count < 2 then groupsText gs
  else groupsText (gs.take start) ++ "::" ++ groupsText (gs.drop (start + count))

def bracketed? (cs : List Char) : Option (List Char) :=
  match cs with
  | '[' :: cs => if cs.getLast? = some ']' then some cs.dropLast else none
  | _ => none

def ipv6 (cs : List Char) : Except Error String :=
  match (bracketed? cs).bind ipv6Groups? with
  | some gs => .ok ("[" ++ ipv6Text gs ++ "]")
  | none => .error .badIpv6

def forbiddenInHost (c : Char) : Bool :=
  ['\x00', '\t', '\n', '\r', ' ', '#', '/', ':', '<', '>', '?', '@', '[', '\\', ']', '^',
   '|'].contains c

def forbiddenInDomain (c : Char) : Bool := forbiddenInHost c || isControl c || c == '%'

def plainHost (cs : List Char) : Except Error String :=
  if cs.head? = some '[' then ipv6 cs
  else if cs.any forbiddenInHost then .error .badHostCharacter
  else .ok (.ofList (percentEncode isControl cs))

/-- How the names of hosts are spelled in ASCII that are more than plain letters, if they can be. -/
class HostNames where
  spell? : Bytes → Option (List Char)

/-- Names beyond ASCII have no spelling, and the others are taken as they are spelled already. -/
instance asciiNames : HostNames where
  spell? name :=
    if name.all (· < 0x80) then some (name.map fun b => (Char.ofNat b.toNat).toLower) else none

def isSpelled (label : List Char) : Bool := ['x', 'n', '-', '-'].isPrefixOf label

/-- A plain name is written in small letters, and any other one as it is spelled. -/
def domain? [HostNames] (name : Bytes) : Option (List Char) :=
  let small := name.map fun b => (Char.ofNat b.toNat).toLower
  if name.all (· < 0x80) ∧ !(pieces '.' small).any isSpelled then some small
  else HostNames.spell? name

def specialHost [HostNames] (cs : List Char) : Except Error String :=
  if cs.head? = some '[' then ipv6 cs
  else match domain? (percentDecode cs) with
    | none => .error .badDomain
    | some name =>
      if name.any forbiddenInDomain then .error .badDomain
      else if name.isEmpty then .error .emptyHost
      else if endsInNumber name then
        match ipv4? name with
        | some t => .ok t
        | none => .error .badIpv4
      else .ok (.ofList name)

end Url
end JarAtlas
