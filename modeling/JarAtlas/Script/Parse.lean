import JarAtlas.Script.Basic

/-! Reading a script. A number sign at the start of a word hides the rest of its line. -/
namespace JarAtlas
namespace Script

inductive Token where
  | word (w : Word)
  | finish
  | orMark
  | andMark
  | appendMark
  deriving DecidableEq, Repr

inductive Mode where
  | plain
  | quoted
  | literal
  | hidden
  deriving DecidableEq, Repr

/-- A word that is not complete yet, its latest piece first. -/
abbrev Draft := Option Word

def Draft.pieces (d : Draft) : Word := d.getD []

def Draft.addChar (d : Draft) (c : Char) : Draft :=
  match d.pieces with
  | .chars s :: ps => some (.chars (s.push c) :: ps)
  | ps => some (.chars (String.singleton c) :: ps)

def Draft.add (d : Draft) (p : Piece) : Draft := some (p :: d.pieces)

def Draft.tokens : Draft → List Token
  | none => []
  | some ps => [.word ps.reverse]

def piece? (c : Char) : Option Piece :=
  if c = '#' then some .argumentCount
  else if c = '*' then some .allArguments
  else if c = '$' then some .processId
  else if c.isDigit then some (.argument (c.toNat - '0'.toNat))
  else none

def tokensFrom : Mode → Draft → List Char → List Token
  | _, d, [] => d.tokens
  | .hidden, d, c :: cs =>
    if c = '\n' then .finish :: tokensFrom .plain none cs else tokensFrom .hidden d cs
  | .literal, d, c :: cs =>
    if c = '\'' then tokensFrom .plain d cs else tokensFrom .literal (d.addChar c) cs
  | mode, d, '$' :: c :: cs =>
    match piece? c with
    | some p => tokensFrom mode (d.add p) cs
    | none => tokensFrom mode ((d.addChar '$').addChar c) cs
  | .quoted, d, '\\' :: c :: cs =>
    if c = '"' ∨ c = '\\' ∨ c = '$' then tokensFrom .quoted (d.addChar c) cs
    else tokensFrom .quoted ((d.addChar '\\').addChar c) cs
  | .quoted, d, c :: cs =>
    if c = '"' then tokensFrom .plain d cs else tokensFrom .quoted (d.addChar c) cs
  | .plain, d, '|' :: '|' :: cs => d.tokens ++ .orMark :: tokensFrom .plain none cs
  | .plain, d, '&' :: '&' :: cs => d.tokens ++ .andMark :: tokensFrom .plain none cs
  | .plain, d, '>' :: '>' :: cs => d.tokens ++ .appendMark :: tokensFrom .plain none cs
  | .plain, d, '\\' :: c :: cs => tokensFrom .plain (d.addChar c) cs
  | .plain, d, c :: cs =>
    if c = ' ' ∨ c = '\t' then d.tokens ++ tokensFrom .plain none cs
    else if c = '\n' ∨ c = ';' then d.tokens ++ .finish :: tokensFrom .plain none cs
    else if c = '"' then tokensFrom .quoted (some d.pieces) cs
    else if c = '\'' then tokensFrom .literal (some d.pieces) cs
    else if c = '#' ∧ d = none then tokensFrom .hidden none cs
    else tokensFrom .plain (d.addChar c) cs

def tokens (text : String) : List Token := tokensFrom .plain none text.toList

def keyword (s : String) : Token := .word [.chars s]

def simpleWords : List Token → List Word × Option Word × List Token
  | .appendMark :: .word w :: ts =>
    let (ws, _, rest) := simpleWords ts
    (ws, some w, rest)
  | .word w :: ts =>
    let (ws, log?, rest) := simpleWords ts
    (w :: ws, log?, rest)
  | ts => ([], none, ts)

/-- Commands up to the end, or to a word that ends a part of a condition. -/
def commandList : Nat → List Token → Option (Command × List Token)
  | 0, _ => none
  | depth + 1, ts =>
    match ts with
    | [] => some (.nothing, [])
    | .finish :: ts => commandList depth ts
    | .word w :: rest =>
      if .word w = keyword "then" ∨ .word w = keyword "fi" then some (.nothing, .word w :: rest)
      else do
        let (c, ts) ← chain depth (.word w :: rest)
        let (d, ts) ← commandList depth ts
        return (.sequence c d, ts)
    | _ => none
where
  /-- Commands that are tied together by how each of them ends. -/
  chain (depth : Nat) (ts : List Token) : Option (Command × List Token) := do
    let (c, ts) ← single depth ts
    links depth c ts
  links (depth : Nat) (c : Command) (ts : List Token) : Option (Command × List Token) :=
    match depth, ts with
    | depth + 1, .orMark :: ts => do
      let (d, ts) ← single depth ts
      links depth (.orElse c d) ts
    | depth + 1, .andMark :: ts => do
      let (d, ts) ← single depth ts
      links depth (.andThen c d) ts
    | _, ts => some (c, ts)
  single (depth : Nat) (ts : List Token) : Option (Command × List Token) :=
    match depth with
    | 0 => none
    | depth + 1 =>
      if ts.head? = some (keyword "if") then do
        let (condition, ts) ← commandList depth (ts.drop 1)
        if ts.head? ≠ some (keyword "then") then none
        let (body, ts) ← commandList depth (ts.drop 1)
        if ts.head? ≠ some (keyword "fi") then none
        return (.whenever condition body, ts.drop 1)
      else
        let (words, log?, ts) := simpleWords ts
        if words = [] then none else some (.simple words log?, ts)

def parse? (text : String) : Option Command :=
  let ts := tokens text
  match commandList (4 * ts.length + 4) ts with
  | some (c, []) => some c
  | _ => none

end Script
end JarAtlas
