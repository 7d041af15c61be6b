/-! Documents of texts, numbers, lists and objects, and their two written forms: the compact one,
without any white space, and the indented one, an item a line. -/
namespace JarAtlas

/-- The members of an object are in the order in which they are written. -/
inductive Json where
  | text (s : String)
  | number (n : Nat)
  | list (items : List Json)
  | object (members : List (String × Json))

namespace Json

def escapeControl (c : Char) : List Char :=
  ['\\', 'u', '0', '0', Nat.digitChar (c.toNat / 16), Nat.digitChar (c.toNat % 16)]

/-- Quotes, backslashes and control characters are marked, all else is written as it stands. -/
def escapeChar (c : Char) : List Char :=
  match c with
  | '"' => ['\\', '"']
  | '\\' => ['\\', '\\']
  | '\x08' => ['\\', 'b']
  | '\x0C' => ['\\', 'f']
  | '\n' => ['\\', 'n']
  | '\r' => ['\\', 'r']
  | '\t' => ['\\', 't']
  | c => if c.toNat < 0x20 then escapeControl c else [c]

def quoted (s : String) : List Char := '"' :: s.toList.flatMap escapeChar ++ ['"']

def digits (n : Nat) : List Char := Nat.toDigits 10 n

mutual

def compactChars : Json → List Char
  | .text s => quoted s
  | .number n => digits n
  | .list items => '[' :: compactItems items ++ [']']
  | .object members => '\x7b' :: compactMembers members ++ ['\x7d']

def compactItems : List Json → List Char
  | [] => []
  | [j] => compactChars j
  | j :: k :: js => compactChars j ++ ',' :: compactItems (k :: js)

def compactMembers : List (String × Json) → List Char
  | [] => []
  | [(name, j)] => quoted name ++ ':' :: compactChars j
  | (name, j) :: m :: ms => quoted name ++ ':' :: compactChars j ++ ',' :: compactMembers (m :: ms)

end

def newLine (level : Nat) : List Char := '\n' :: List.replicate (2 * level) ' '

mutual

/-- An empty list and an empty object stay on one line. -/
def indentedChars (level : Nat) : Json → List Char
  | .text s => quoted s
  | .number n => digits n
  | .list [] => ['[', ']']
  | .list (j :: js) =>
    '[' :: newLine (level + 1) ++ indentedChars (level + 1) j ++ indentedItems (level + 1) js ++
      newLine level ++ [']']
  | .object [] => ['\x7b', '\x7d']
  | .object ((name, j) :: ms) =>
    '\x7b' :: newLine (level + 1) ++ quoted name ++ ':' :: ' ' :: indentedChars (level + 1) j ++
      indentedMembers (level + 1) ms ++ newLine level ++ ['\x7d']

def indentedItems (level : Nat) : List Json → List Char
  | [] => []
  | j :: js => ',' :: newLine level ++ indentedChars level j ++ indentedItems level js

def indentedMembers (level : Nat) : List (String × Json) → List Char
  | [] => []
  | (name, j) :: ms =>
    ',' :: newLine level ++ quoted name ++ ':' :: ' ' :: indentedChars level j ++
      indentedMembers level ms

end

def compact (j : Json) : String := .ofList j.compactChars

def indented (j : Json) : String := .ofList (j.indentedChars 0)

@[simp] theorem toList_compact (j : Json) : j.compact.toList = j.compactChars := by
  simp [compact]

@[simp] theorem toList_indented (j : Json) : j.indented.toList = j.indentedChars 0 := by
  simp [indented]

end Json
end JarAtlas
