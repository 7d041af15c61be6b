import JarAtlas.Url.Host
import JarAtlas.Url.Segments

/-! Reading an address, by itself or as a reference from another one. A reference may replace the
path, the host, or everything. -/
namespace JarAtlas
namespace Url

open Text

def isOuter (c : Char) : Bool := decide (c.toNat ≤ 0x20)

def isIgnored (c : Char) : Bool := c == '\t' || c == '\n' || c == '\r'

/-- Blanks and control characters at both ends are dropped, and so are tabs and line ends. -/
def tidy (s : String) : List Char :=
  ((s.toList.dropWhile isOuter).reverse.dropWhile isOuter).reverse.filter fun c => !isIgnored c

def isSchemeChar (c : Char) : Bool := c.isAlphanum || ['+', '-', '.'].contains c

def scheme? (cs : List Char) : Option (String × List Char) :=
  match cs with
  | [] => none
  | c :: _ =>
    if !c.isAlpha then none
    else match cs.dropWhile isSchemeChar with
      | ':' :: rest => some (lower (.ofList (cs.takeWhile isSchemeChar)), rest)
      | _ => none

def endsPath (c : Char) : Bool := c == '?' || c == '#'

def tail (special : Bool) : List Char → Option String × Option String
  | '?' :: cs =>
    (some (.ofList (percentEncode (inQuery special) (cs.takeWhile (· != '#')))),
      match cs.dropWhile (· != '#') with
      | '#' :: ds => some (.ofList (percentEncode inFragment ds))
      | _ => none)
  | '#' :: cs => (none, some (.ofList (percentEncode inFragment cs)))
  | _ => (none, none)

/-- What of an address comes before its path. -/
structure Front where
  scheme : String
  authority? : Option Authority

def Front.special (f : Front) : Bool := isSpecial f.scheme

def Front.file (f : Front) : Bool := f.scheme == fileScheme

def Front.withPath (f : Front) (done : List String) (cs : List Char) : Url :=
  let names := segmentsAfter f.special f.file done (cs.takeWhile fun c => !endsPath c)
  let (query?, fragment?) := tail f.special (cs.dropWhile fun c => !endsPath c)
  ⟨f.scheme, f.authority?, .segments names, query?, fragment?⟩

def ofFront (u : Url) : Front := ⟨u.scheme, u.authority?⟩

def names (u : Url) : List String :=
  match u.route with
  | .segments ns => ns
  | .text _ => []

def endsAuthority (special : Bool) (c : Char) : Bool :=
  isSlash special c || endsPath c

/-- What stands before the last at sign, and what stands after it. -/
def cutUserInfo (cs : List Char) : Option (List Char × List Char) :=
  (cut? '@' cs.reverse).map fun (after, before) => (before.reverse, after.reverse)

def userInfo (cs : List Char) : String × String :=
  let encode ds := String.ofList (percentEncode inUserInfo ds)
  match cut? ':' cs with
  | none => (encode cs, "")
  | some (user, password) => (encode user, encode password)

/-- The characters of a host: up to a colon that is not between brackets. -/
def hostChars : Bool → List Char → List Char × List Char
  | _, [] => ([], [])
  | inside, c :: cs =>
    if c = ':' ∧ inside = false then ([], c :: cs)
    else
      let (host, rest) := hostChars (if c = '[' then true else if c = ']' then false else inside) cs
      (c :: host, rest)

/-- A port of at most sixteen bits, and what follows it. The usual port is left out. -/
def port (scheme : String) (cs : List Char) : Except Error (Option Nat × List Char) :=
  let digits := cs.takeWhile Char.isDigit
  let rest := cs.dropWhile Char.isDigit
  let n := (numberOf? 10 digits).getD 0
  if 0xFFFF < n ∨ (rest.head?.any fun c => !isSlash true c && !endsPath c) then .error .badPort
  else .ok (if digits.isEmpty ∨ some n = usualPort? scheme then none else some n, rest)

def noHost : Authority := ⟨"", "", "", none⟩

def fileFront (a : Authority) : Front := ⟨fileScheme, some a⟩

def startsWithDrive (cs : List Char) : Bool :=
  isDrive (cs.take 2) && (cs.drop 2).head?.all fun c => isSlash true c || endsPath c

/-- A path that starts with a disk's name leaves out the host. -/
def dropHostOfDrive (u : Url) : Url :=
  match u.names with
  | s :: _ => if isPlainDrive s.toList then { u with authority? := some noHost } else u
  | [] => u

/-- A file by its absolute path, on the disk or the host of the address it is seen from. -/
def fileFromRoot (base? : Option Url) (cs : List Char) : Url :=
  match base? with
  | none => (fileFront noHost).withPath [] cs
  | some b =>
    if startsWithDrive cs then (fileFront noHost).withPath [] cs
    else match b.names with
      | s :: _ =>
        if isPlainDrive s.toList then (fileFront noHost).withPath [s] cs
        else b.ofFront.withPath [] cs
      | [] => b.ofFront.withPath [] cs

def fileFromHere (base? : Option Url) (cs : List Char) : Url :=
  match base? with
  | none => (fileFront noHost).withPath [] cs
  | some b => match cs with
    | [] => { b with fragment? := none }
    | '?' :: _ =>
      let (query?, fragment?) := tail true cs
      { b with query?, fragment? }
    | '#' :: _ => { b with fragment? := (tail true cs).2 }
    | _ =>
      if startsWithDrive cs then (fileFront noHost).withPath [] cs
      else b.ofFront.withPath (goUp true b.names) cs

variable [HostNames]

def hostAndPort (scheme : String) (user password : String) (cs : List Char) :
    Except Error (Authority × List Char) := do
  let special := isSpecial scheme
  let here := cs.takeWhile fun c => !endsAuthority special c
  let beyond := cs.dropWhile fun c => !endsAuthority special c
  let (hostText, rest) := hostChars false here
  if hostText.isEmpty ∧ (special ∨ !rest.isEmpty ∨ user ≠ "" ∨ password ≠ "") then
    throw .emptyHost
  let host ← if special then specialHost hostText else plainHost hostText
  match rest with
  | ':' :: rest => do
    let (port?, rest) ← port scheme (rest ++ beyond)
    return (⟨user, password, host, port?⟩, rest)
  | _ => return (⟨user, password, host, none⟩, beyond)

def authority (scheme : String) (cs : List Char) : Except Error (Authority × List Char) :=
  let special := isSpecial scheme
  let here := cs.takeWhile fun c => !endsAuthority special c
  let beyond := cs.dropWhile fun c => !endsAuthority special c
  match cutUserInfo here with
  | none => hostAndPort scheme "" "" cs
  | some ([], rest) =>
    if rest.isEmpty ∧ !beyond.isEmpty then .error .emptyHost
    else hostAndPort scheme "" "" (rest ++ beyond)
  | some (info, rest) =>
    let (user, password) := userInfo info
    hostAndPort scheme user password (rest ++ beyond)

/-- An address from its host on. Without a path, only special schemes have a slash. -/
def afterSlashes (scheme : String) (cs : List Char) : Except Error Url := do
  let (a, rest) ← authority scheme cs
  let front : Front := ⟨scheme, some a⟩
  match rest with
  | [] => return if front.special then front.withPath [] []
      else ⟨scheme, some a, .segments [], none, none⟩
  | c :: cs =>
    if isSlash front.special c then return front.withPath [] cs
    else if front.special ∨ !endsPath c then return front.withPath [] (c :: cs)
    else
      let (query?, fragment?) := tail false (c :: cs)
      return ⟨scheme, some a, .segments [], query?, fragment?⟩

/-- The host of a file. A disk's name is none, and neither is the name of this very machine. -/
def fileHost (cs : List Char) : Except Error (Authority × List Char) :=
  let here := cs.takeWhile fun c => !endsAuthority true c
  let beyond := cs.dropWhile fun c => !endsAuthority true c
  if isDrive here then .ok (noHost, cs)
  else if here.isEmpty then .ok (noHost, beyond)
  else do
    let host ← specialHost here
    return (if host = "localhost" then noHost else { noHost with host }, beyond)

def parseFile (base? : Option Url) (cs : List Char) : Except Error Url :=
  match cs with
  | c :: d :: rest =>
    if isSlash true c ∧ isSlash true d then do
      let (a, rest) ← fileHost rest
      let path := match rest with
        | e :: es => if isSlash true e then es else e :: es
        | [] => []
      return dropHostOfDrive ((fileFront a).withPath [] path)
    else if isSlash true c then return fileFromRoot base? (d :: rest)
    else return fileFromHere base? cs
  | [c] => return if isSlash true c then fileFromRoot base? [] else fileFromHere base? cs
  | [] => return fileFromHere base? cs

def parseRelative (base : Url) (cs : List Char) : Except Error Url :=
  match cs with
  | [] => .ok { base with fragment? := none }
  | '?' :: _ =>
    let (query?, fragment?) := tail (isSpecial base.scheme) cs
    .ok { base with query?, fragment? }
  | '#' :: _ => .ok { base with fragment? := (tail true cs).2 }
  | c :: rest =>
    if isSlash true c then
      if rest.head?.any (isSlash true) then
        match cs with
        | '/' :: '/' :: after => afterSlashes base.scheme after
        | _ => afterSlashes base.scheme (cs.dropWhile (isSlash true))
      else .ok (base.ofFront.withPath [] rest)
    else .ok (base.ofFront.withPath base.names.dropLast cs)

def parsePlain (scheme : String) (cs : List Char) : Except Error Url :=
  match cs with
  | '/' :: '/' :: rest => afterSlashes scheme rest
  | '/' :: rest => .ok ((⟨scheme, none⟩ : Front).withPath [] rest)
  | _ =>
    let text := cs.takeWhile fun c => !endsPath c
    let (query?, fragment?) := tail false (cs.dropWhile fun c => !endsPath c)
    .ok ⟨scheme, none, .text (.ofList (percentEncode isControl text)), query?, fragment?⟩

/-- An address that names its scheme. With the scheme of the one it is seen from, it may still be
a reference. -/
def parseAbsolute (base? : Option Url) (scheme : String) (cs : List Char) : Except Error Url :=
  let kin? := base?.filter fun b => b.scheme = scheme
  if scheme = fileScheme then parseFile kin? cs
  else if isSpecial scheme then
    match kin? with
    | none => afterSlashes scheme (cs.dropWhile (isSlash true))
    | some b =>
      if (cs.takeWhile (isSlash true)).length < 2 then parseRelative b cs
      else afterSlashes scheme (cs.dropWhile (isSlash true))
  else parsePlain scheme cs

def parseFrom (base? : Option Url) (s : String) : Except Error Url :=
  let cs := tidy s
  match scheme? cs with
  | some (scheme, rest) => parseAbsolute base? scheme rest
  | none => match base? with
    | none => .error .noBase
    | some b => match b.route with
      | .text _ =>
        if cs.head? = some '#' then .ok { b with fragment? := (tail true cs).2 }
        else .error .fixedBase
      | .segments _ => if b.scheme = fileScheme then parseFile (some b) cs else parseRelative b cs

def parse (s : String) : Except Error Url := parseFrom none s

def join (base : Url) (reference : String) : Except Error Url := parseFrom (some base) reference

end Url
end JarAtlas
