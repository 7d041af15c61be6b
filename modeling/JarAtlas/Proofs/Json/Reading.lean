import JarAtlas.Json
import Mathlib.Data.Nat.Init

/-! Reading the compact form of documents. A reader takes what it can at the front of a text and hands
on the rest, which is shorter, so that documents within documents are read in turn. Every document
reads back from what is written of it, and so no two are written alike. -/
namespace JarAtlas
namespace Json

/-- What was read at the front of a text, and the rest of the text, which is shorter. -/
structure Front (α : Type) (cs : List Char) where
  value : α
  rest : List Char
  shorter : rest.length < cs.length

namespace Front

variable {α β : Type} {cs : List Char}

def map (f : α → β) (r : Front α cs) : Front β cs := { r with value := f r.value }

def behind (c : Char) (r : Front α cs) : Front α (c :: cs) :=
  { r with shorter := Nat.lt_succ_of_lt r.shorter }

end Front

def unescaped? : Char → Option Char
  | '"' => some '"'
  | '\\' => some '\\'
  | '/' => some '/'
  | 'b' => some '\x08'
  | 'f' => some '\x0C'
  | 'n' => some '\n'
  | 'r' => some '\r'
  | 't' => some '\t'
  | _ => none

def hexDigit? (c : Char) : Option Nat :=
  if c.isDigit then some (c.toNat - '0'.toNat)
  else if 'a' ≤ c ∧ c ≤ 'f' then some (c.toNat - 'a'.toNat + 10)
  else if 'A' ≤ c ∧ c ≤ 'F' then some (c.toNat - 'A'.toNat + 10)
  else none

/-- The character of a code point. Half of a pair of surrogates is none. -/
def codePoint? (a b c d : Char) : Option Char := do
  let n := 0x1000 * (← hexDigit? a) + 0x100 * (← hexDigit? b) + 0x10 * (← hexDigit? c) +
    (← hexDigit? d)
  if n.isValidChar then some (.ofNat n) else none

def characters? : (cs : List Char) → Option (Front (List Char) cs)
  | [] => none
  | '"' :: cs => some ⟨[], cs, by simp⟩
  | '\\' :: 'u' :: a :: b :: c :: d :: cs =>
    match codePoint? a b c d, characters? cs with
    | some x, some r => some ⟨x :: r.value, r.rest, by have := r.shorter; simp; omega⟩
    | _, _ => none
  | '\\' :: c :: cs =>
    match unescaped? c, characters? cs with
    | some x, some r => some ⟨x :: r.value, r.rest, by have := r.shorter; simp; omega⟩
    | _, _ => none
  | c :: cs =>
    if c.toNat < 0x20 then none
    else (characters? cs).map fun r => (r.map (c :: ·)).behind c

def text? : (cs : List Char) → Option (Front String cs)
  | '"' :: cs => (characters? cs).map fun r => (r.map String.ofList).behind '"'
  | _ => none

def name? (cs : List Char) : Option (Front String cs) :=
  match text? cs with
  | some ⟨name, ':' :: rest, shorter⟩ => some ⟨name, rest, Nat.lt_of_succ_lt shorter⟩
  | _ => none

def number? (cs : List Char) : Option (Front Nat cs) :=
  if shorter : (cs.dropWhile Char.isDigit).length < cs.length then
    some ⟨Nat.ofDigitChars 10 (cs.takeWhile Char.isDigit) 0, cs.dropWhile Char.isDigit, shorter⟩
  else none

mutual

-- Each call is on a shorter text, or on the same one for a smaller part of the grammar.
def document? (cs : List Char) : Option (Front Json cs) :=
  match cs with
  | '[' :: cs => (items? cs).map fun r => (r.map .list).behind '['
  | '\x7b' :: cs => (members? cs).map fun r => (r.map .object).behind '\x7b'
  | '"' :: cs => (text? ('"' :: cs)).map (Front.map .text)
  | cs => (number? cs).map (Front.map .number)
termination_by (cs.length, 0)

/-- The items of a list behind its bracket, up to the other one. -/
def items? (cs : List Char) : Option (Front (List Json) cs) :=
  match cs with
  | ']' :: cs => some ⟨[], cs, by simp⟩
  | cs => someItems? cs
termination_by (cs.length, 2)

def someItems? (cs : List Char) : Option (Front (List Json) cs) :=
  match document? cs with
  | some ⟨j, ']' :: rest, shorter⟩ => some ⟨[j], rest, Nat.lt_of_succ_lt shorter⟩
  | some ⟨j, ',' :: rest, shorter⟩ =>
    have : rest.length < cs.length := Nat.lt_of_succ_lt shorter
    (someItems? rest).map fun r => ⟨j :: r.value, r.rest, Nat.lt_trans r.shorter this⟩
  | _ => none
termination_by (cs.length, 1)

def members? (cs : List Char) : Option (Front (List (String × Json)) cs) :=
  match cs with
  | '\x7d' :: cs => some ⟨[], cs, by simp⟩
  | cs => someMembers? cs
termination_by (cs.length, 2)

def someMembers? (cs : List Char) : Option (Front (List (String × Json)) cs) :=
  match name? cs with
  | none => none
  | some ⟨name, behind, shorter⟩ =>
    match document? behind with
    | some ⟨j, '\x7d' :: rest, less⟩ =>
      some ⟨[(name, j)], rest, Nat.lt_trans (Nat.lt_of_succ_lt less) shorter⟩
    | some ⟨j, ',' :: rest, less⟩ =>
      have : rest.length < cs.length := Nat.lt_trans (Nat.lt_of_succ_lt less) shorter
      (someMembers? rest).map fun r => ⟨(name, j) :: r.value, r.rest, Nat.lt_trans r.shorter this⟩
    | _ => none
termination_by (cs.length, 1)

end

def decode? (text : String) : Option Json :=
  match document? text.toList with
  | some ⟨j, [], _⟩ => some j
  | _ => none

/-- A reading succeeds with a value and leaves the rest. -/
def Gives {α : Type} {cs : List Char} (r : Option (Front α cs)) (value : α) (rest : List Char) :
    Prop :=
  ∃ shorter, r = some ⟨value, rest, shorter⟩

section Gives

variable {α β : Type} {cs rest : List Char} {r : Option (Front α cs)} {value : α}

theorem Gives.map (f : α → β) (h : Gives r value rest) :
    Gives (r.map (Front.map f)) (f value) rest := by
  obtain ⟨shorter, rfl⟩ := h
  exact ⟨shorter, rfl⟩

theorem Gives.behind (f : α → β) (c : Char) (h : Gives r value rest) :
    Gives (r.map fun r => (r.map f).behind c) (f value) rest := by
  obtain ⟨shorter, rfl⟩ := h
  exact ⟨Nat.lt_succ_of_lt shorter, rfl⟩

end Gives

theorem hexDigit?_digitChar : ∀ n < 16, hexDigit? (Nat.digitChar n) = some n := by decide

theorem codePoint?_escapeControl {c : Char} (control : c.toNat < 0x20) :
    codePoint? '0' '0' (Nat.digitChar (c.toNat / 16)) (Nat.digitChar (c.toNat % 16)) = some c := by
  have zero : hexDigit? '0' = some 0 := by decide
  have high := hexDigit?_digitChar (c.toNat / 16) (by omega)
  have low := hexDigit?_digitChar (c.toNat % 16) (by omega)
  have whole : 0x1000 * 0 + 0x100 * 0 + 0x10 * (c.toNat / 16) + c.toNat % 16 = c.toNat := by omega
  have valid : c.toNat.isValidChar := .inl (by omega)
  simp only [codePoint?, zero, high, low, bind, Option.bind, whole, valid, if_true, Char.ofNat_toNat]

theorem escapeChar_cases (c : Char) :
    (∃ mark, unescaped? mark = some c ∧ escapeChar c = ['\\', mark]) ∨
      c.toNat < 0x20 ∧ escapeChar c = escapeControl c ∨
      c ≠ '"' ∧ c ≠ '\\' ∧ ¬ c.toNat < 0x20 ∧ escapeChar c = [c] := by
  fun_cases escapeChar c with
  | case8 c quote backslash _ _ _ _ _ control => exact .inr (.inl ⟨control, rfl⟩)
  | case9 c quote backslash _ _ _ _ _ control => exact .inr (.inr ⟨quote, backslash, control, rfl⟩)
  | _ => exact .inl ⟨_, rfl, rfl⟩

section Characters

variable {c m x : Char} {cs t rest : List Char}

theorem characters?_plain (quote : c ≠ '"') (backslash : c ≠ '\\') (control : ¬ c.toNat < 0x20)
    (h : Gives (characters? cs) t rest) : Gives (characters? (c :: cs)) (c :: t) rest := by
  rw [characters?, if_neg control]
  · exact h.behind (c :: ·) c
  · simp [quote]
  · simp [backslash]
  · simp [backslash]

theorem characters?_mark (mark : unescaped? m = some x) (h : Gives (characters? cs) t rest) :
    Gives (characters? ('\\' :: m :: cs)) (x :: t) rest := by
  obtain ⟨shorter, h⟩ := h
  have noPoint : m ≠ 'u' := by
    rintro rfl
    cases mark
  refine ⟨Nat.lt_succ_of_lt (Nat.lt_succ_of_lt shorter), ?_⟩
  rw [characters?, mark, h]
  simp [noPoint]

theorem characters?_point {a b d : Char} (point : codePoint? a b c d = some x)
    (h : Gives (characters? cs) t rest) :
    Gives (characters? ('\\' :: 'u' :: a :: b :: c :: d :: cs)) (x :: t) rest := by
  obtain ⟨shorter, h⟩ := h
  refine ⟨by simp; omega, ?_⟩
  rw [characters?, point, h]

theorem characters?_escapeChar_append (c : Char) (h : Gives (characters? cs) t rest) :
    Gives (characters? (escapeChar c ++ cs)) (c :: t) rest := by
  obtain ⟨mark, own, e⟩ | ⟨control, e⟩ | ⟨quote, backslash, printed, e⟩ := escapeChar_cases c
  · rw [e]
    exact characters?_mark own h
  · rw [e]
    exact characters?_point (codePoint?_escapeControl control) h
  · rw [e]
    exact characters?_plain quote backslash printed h

end Characters

theorem characters?_quoted (s rest : List Char) :
    Gives (characters? (s.flatMap escapeChar ++ '"' :: rest)) s rest := by
  induction s with
  | nil => exact ⟨by simp, rfl⟩
  | cons c s ih =>
    rw [List.flatMap_cons, List.append_assoc]
    exact characters?_escapeChar_append c ih

theorem quoted_append (s : String) (rest : List Char) :
    quoted s ++ rest = '"' :: (s.toList.flatMap escapeChar ++ '"' :: rest) := by
  simp [quoted]

theorem text?_quoted_append (s : String) (rest : List Char) :
    Gives (text? (quoted s ++ rest)) s rest := by
  have body := (characters?_quoted s.toList rest).behind String.ofList '"'
  rw [quoted_append, text?]
  rwa [String.ofList_toList] at body

theorem name?_quoted_append (s : String) (rest : List Char) :
    Gives (name? (quoted s ++ ':' :: rest)) s rest := by
  obtain ⟨shorter, h⟩ := text?_quoted_append s (':' :: rest)
  rw [name?, h]
  exact ⟨_, rfl⟩

theorem isDigit_of_mem_digits {n : Nat} {c : Char} (mem : c ∈ digits n) : c.isDigit = true :=
  Nat.isDigit_of_mem_toDigits (by decide) (by decide) mem

theorem number?_digits_append (n : Nat) {rest : List Char}
    (ends : ∀ c, rest.head? = some c → c.isDigit = false) :
    Gives (number? (digits n ++ rest)) n rest := by
  have all : ∀ c ∈ digits n, c.isDigit = true := fun _ => isDigit_of_mem_digits
  have taken : rest.takeWhile Char.isDigit = [] ∧ rest.dropWhile Char.isDigit = rest := by
    cases rest with
    | nil => exact ⟨rfl, rfl⟩
    | cons c rest => simp [ends c rfl]
  have filled : 0 < (digits n).length := List.length_pos_iff.2 Nat.toDigits_ne_nil
  have left : (digits n ++ rest).dropWhile Char.isDigit = rest := by
    rw [List.dropWhile_append_of_pos all, taken.2]
  have read : (digits n ++ rest).takeWhile Char.isDigit = digits n := by
    rw [List.takeWhile_append_of_pos all, taken.1, List.append_nil]
  have shorter : ((digits n ++ rest).dropWhile Char.isDigit).length < (digits n ++ rest).length := by
    rw [left, List.length_append]
    omega
  have value : Nat.ofDigitChars 10 (digits n) 0 = n :=
    Nat.ofDigitChars_toDigits (by decide) (by decide)
  refine ⟨by rwa [left] at shorter, ?_⟩
  rw [number?, dif_pos shorter]
  simp only [read, left, value]

section Steps

variable {cs behind rest tail : List Char} {name : String} {j : Json} {js : List Json}
  {ms : List (String × Json)}

theorem document?_quoted_append (s : String) (rest : List Char) :
    Gives (document? (quoted s ++ rest)) (.text s) rest := by
  have read := (text?_quoted_append s rest).map Json.text
  rw [quoted_append] at read ⊢
  rwa [document?]

/-- No bracket, brace or quote is a digit, so that a number is read as one. -/
theorem document?_digits_append (n : Nat) (ends : ∀ c, rest.head? = some c → c.isDigit = false) :
    Gives (document? (digits n ++ rest)) (.number n) rest := by
  have read := (number?_digits_append n ends).map Json.number
  obtain ⟨c, cs, e⟩ : ∃ c cs, digits n = c :: cs :=
    List.exists_cons_of_ne_nil (Nat.toDigits_ne_nil : Nat.toDigits 10 n ≠ [])
  have digit : c.isDigit = true := isDigit_of_mem_digits (e ▸ List.mem_cons_self : c ∈ digits n)
  rw [e, List.cons_append] at read ⊢
  rw [document?]
  · exact read
  all_goals
    rintro cs ⟨⟩
    exact absurd digit (by decide)

theorem document?_list (read : Gives (items? cs) js rest) :
    Gives (document? ('[' :: cs)) (.list js) rest := by
  rw [document?]
  exact read.behind Json.list '['

theorem document?_object (read : Gives (members? cs) ms rest) :
    Gives (document? ('\x7b' :: cs)) (.object ms) rest := by
  rw [document?]
  exact read.behind Json.object '\x7b'

theorem items?_none (rest : List Char) : Gives (items? (']' :: rest)) [] rest := by
  rw [items?]
  exact ⟨_, rfl⟩

theorem members?_none (rest : List Char) : Gives (members? ('\x7d' :: rest)) [] rest := by
  rw [members?]
  exact ⟨_, rfl⟩

theorem someItems?_last (read : Gives (document? cs) j (']' :: rest)) :
    Gives (someItems? cs) [j] rest := by
  obtain ⟨shorter, read⟩ := read
  rw [someItems?, read]
  exact ⟨_, rfl⟩

theorem someItems?_more (read : Gives (document? cs) j (',' :: rest))
    (others : Gives (someItems? rest) js tail) : Gives (someItems? cs) (j :: js) tail := by
  obtain ⟨shorter, read⟩ := read
  obtain ⟨less, others⟩ := others
  refine ⟨Nat.lt_trans less (Nat.lt_of_succ_lt shorter), ?_⟩
  rw [someItems?, read]
  simp [others]

theorem someMembers?_last (named : Gives (name? cs) name behind)
    (read : Gives (document? behind) j ('\x7d' :: rest)) :
    Gives (someMembers? cs) [(name, j)] rest := by
  obtain ⟨shorter, named⟩ := named
  obtain ⟨less, read⟩ := read
  refine ⟨Nat.lt_trans (Nat.lt_of_succ_lt less) shorter, ?_⟩
  rw [someMembers?, named]
  simp [read]

theorem someMembers?_more (named : Gives (name? cs) name behind)
    (read : Gives (document? behind) j (',' :: rest)) (others : Gives (someMembers? rest) ms tail) :
    Gives (someMembers? cs) ((name, j) :: ms) tail := by
  obtain ⟨shorter, named⟩ := named
  obtain ⟨less, read⟩ := read
  obtain ⟨lesser, others⟩ := others
  refine ⟨Nat.lt_trans lesser (Nat.lt_trans (Nat.lt_of_succ_lt less) shorter), ?_⟩
  rw [someMembers?, named]
  simp [read, others]

/-- A text that starts with an item does not start with the end of a list. -/
theorem items?_some (read : Gives (someItems? cs) js rest) : Gives (items? cs) js rest := by
  by_cases closed : ∃ tail, cs = ']' :: tail
  · obtain ⟨tail, rfl⟩ := closed
    obtain ⟨_, read⟩ := read
    -- a bracket starts no list, no object and no text, and it is no digit
    have noItem : document? (']' :: tail) = none := by
      rw [document?] <;> simp [number?]
    rw [someItems?, noItem] at read
    cases read
  · rw [items?]
    · exact read
    · exact fun tail e => closed ⟨tail, e⟩

theorem members?_some (read : Gives (someMembers? cs) ms rest) : Gives (members? cs) ms rest := by
  by_cases closed : ∃ tail, cs = '\x7d' :: tail
  · obtain ⟨tail, rfl⟩ := closed
    obtain ⟨_, read⟩ := read
    have noName : name? ('\x7d' :: tail) = none := by simp [name?, text?]
    rw [someMembers?, noName] at read
    cases read
  · rw [members?]
    · exact read
    · exact fun tail e => closed ⟨tail, e⟩

end Steps

mutual

/-- The compact form of a document is read to its end, whatever follows it, except that no digit may
follow a number. -/
theorem document?_compactChars_append (j : Json) (rest : List Char)
    (ends : ∀ c, rest.head? = some c → c.isDigit = false) :
    Gives (document? (compactChars j ++ rest)) j rest := by
  match j with
  | .text s => exact document?_quoted_append s rest
  | .number n => exact document?_digits_append n ends
  | .list [] => exact document?_list (items?_none rest)
  | .list (j :: js) =>
    have front : compactChars (.list (j :: js)) ++ rest =
        '[' :: (compactItems (j :: js) ++ ']' :: rest) := by
      simp [compactChars]
    rw [front]
    exact document?_list (items?_some (someItems?_compactItems_append j js rest))
  | .object [] => exact document?_object (members?_none rest)
  | .object (m :: ms) =>
    have front : compactChars (.object (m :: ms)) ++ rest =
        '\x7b' :: (compactMembers (m :: ms) ++ '\x7d' :: rest) := by
      simp [compactChars]
    rw [front]
    exact document?_object (members?_some (someMembers?_compactMembers_append m ms rest))
termination_by sizeOf j

theorem someItems?_compactItems_append (j : Json) (js : List Json) (rest : List Char) :
    Gives (someItems? (compactItems (j :: js) ++ ']' :: rest)) (j :: js) rest := by
  match js with
  | [] => exact someItems?_last (document?_compactChars_append j (']' :: rest) (by simp))
  | k :: js =>
    have front : compactItems (j :: k :: js) ++ ']' :: rest =
        compactChars j ++ ',' :: (compactItems (k :: js) ++ ']' :: rest) := by
      simp [compactItems]
    rw [front]
    exact someItems?_more (document?_compactChars_append j _ (by simp))
      (someItems?_compactItems_append k js rest)
termination_by sizeOf (j :: js)

theorem someMembers?_compactMembers_append (m : String × Json) (ms : List (String × Json))
    (rest : List Char) :
    Gives (someMembers? (compactMembers (m :: ms) ++ '\x7d' :: rest)) (m :: ms) rest := by
  match m, ms with
  | (name, j), [] =>
    have front : compactMembers [(name, j)] ++ '\x7d' :: rest =
        quoted name ++ ':' :: (compactChars j ++ '\x7d' :: rest) := by
      simp [compactMembers]
    rw [front]
    exact someMembers?_last (name?_quoted_append name _)
      (document?_compactChars_append j _ (by simp))
  | (name, j), m :: ms =>
    have front : compactMembers ((name, j) :: m :: ms) ++ '\x7d' :: rest =
        quoted name ++
          ':' :: (compactChars j ++ ',' :: (compactMembers (m :: ms) ++ '\x7d' :: rest)) := by
      simp [compactMembers]
    rw [front]
    exact someMembers?_more (name?_quoted_append name _)
      (document?_compactChars_append j _ (by simp))
      (someMembers?_compactMembers_append m ms rest)
termination_by sizeOf (m :: ms)

end

theorem decode?_compact (j : Json) : decode? j.compact = some j := by
  have whole := document?_compactChars_append j [] (by simp)
  rw [List.append_nil, ← toList_compact] at whole
  obtain ⟨_, read⟩ := whole
  rw [decode?, read]

theorem compact_inj {j k : Json} (same : j.compact = k.compact) : j = k := by
  have read := congrArg decode? same
  rwa [decode?_compact, decode?_compact, Option.some.injEq] at read

end Json
end JarAtlas
