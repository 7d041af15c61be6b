import JarAtlas.Text.Pieces

/-! Addresses: a scheme, then perhaps a host, a path, a query and a fragment. All parts are kept as
they are written. -/
namespace JarAtlas
namespace Url

structure Authority where
  user : String
  password : String
  host : String
  port? : Option Nat
  deriving DecidableEq, Repr

/-- A path of segments, each after a slash, or one text that has no structure. -/
inductive Route where
  | segments (names : List String)
  | text (t : String)
  deriving DecidableEq, Repr

inductive Error where
  | noBase
  | fixedBase
  | emptyHost
  | badPort
  | badIpv4
  | badIpv6
  | badDomain
  | badHostCharacter
  deriving DecidableEq, Repr

def Error.message : Error → String
  | .noBase => "relative URL without a base"
  | .fixedBase => "relative URL with a cannot-be-a-base base"
  | .emptyHost => "empty host"
  | .badPort => "invalid port number"
  | .badIpv4 => "invalid IPv4 address"
  | .badIpv6 => "invalid IPv6 address"
  | .badDomain => "invalid international domain name"
  | .badHostCharacter => "invalid domain character"

/-- The schemes whose addresses always have a host and a path, with their usual ports. -/
def specialPorts : List (String × Option Nat) :=
  [("http", some 80), ("https", some 443), ("ws", some 80), ("wss", some 443), ("ftp", some 21),
   ("file", none)]

def isSpecial (scheme : String) : Bool := (specialPorts.lookup scheme).isSome

def usualPort? (scheme : String) : Option Nat := (specialPorts.lookup scheme).join

def fileScheme : String := "file"

def Authority.userInfo (a : Authority) : String :=
  if a.user = "" ∧ a.password = "" then ""
  else a.user ++ (if a.password = "" then "" else ":" ++ a.password) ++ "@"

def Authority.toString (a : Authority) : String :=
  a.userInfo ++ a.host ++ match a.port? with
    | none => ""
    | some port => ":" ++ ToString.toString port

def Route.toString : Route → String
  | .text t => t
  | .segments names => String.join (names.map ("/" ++ ·))

/-- Without a host, a path must not start as a host does. -/
def Route.guard : Route → String
  | .segments ("" :: _ :: _) => "/."
  | _ => ""

end Url

open Url in
structure Url where
  scheme : String
  authority? : Option Authority
  route : Route
  query? : Option String
  fragment? : Option String
  deriving DecidableEq, Repr

namespace Url

def optional (mark : String) : Option String → String
  | none => ""
  | some t => mark ++ t

def place (u : Url) : String :=
  match u.authority? with
  | some a => "//" ++ a.toString
  | none => u.route.guard

def toString (u : Url) : String :=
  u.scheme ++ ":" ++ u.place ++ u.route.toString ++ optional "?" u.query? ++
    optional "#" u.fragment?

end Url
end JarAtlas
