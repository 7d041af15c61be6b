import JarAtlas.Dot.Quoted
import Mathlib.Data.List.Basic

/-! Escaped texts character by character, and how they are read: a scanner that finds the quote at
the end, and the way back from the marks to the characters. -/
namespace JarAtlas
namespace Dot

open Text

def escapeChar (c : Char) : List Char :=
  match marks.lookup c with
  | some mark => ['\\', mark]
  | none => [c]

/-- The character that a mark stands for. What is no mark stands for itself. -/
def unmark (mark : Char) : Char := ((marks.find? fun m => m.2 == mark).map Prod.fst).getD mark

def unescape : List Char → List Char
  | [] => []
  | '\\' :: c :: cs => unmark c :: unescape cs
  | c :: cs => c :: unescape cs

/-- What stands before the first quote that no backslash protects, and what follows that. -/
def closing? : List Char → Option (List Char × List Char)
  | [] => none
  | '"' :: cs => some ([], cs)
  | '\\' :: c :: cs => (closing? cs).map fun p => ('\\' :: c :: p.1, p.2)
  | c :: cs => (closing? cs).map fun p => (c :: p.1, p.2)

def readName? : List Char → Option (String × List Char)
  | '"' :: cs => (closing? cs).map fun p => (.ofList (unescape p.1), p.2)
  | _ => none

theorem escapeChar_cases (c : Char) :
    (∃ m ∈ marks, c = m.1 ∧ escapeChar c = ['\\', m.2]) ∨
      (∀ m ∈ marks, c ≠ m.1) ∧ escapeChar c = [c] := by
  have own : ∀ m ∈ marks, escapeChar m.1 = ['\\', m.2] := by decide
  by_cases h : ∃ m ∈ marks, c = m.1
  · obtain ⟨m, hm, rfl⟩ := h
    exact .inl ⟨m, hm, rfl, own m hm⟩
  · have plain : ∀ m ∈ marks, c ≠ m.1 := fun m hm e => h ⟨m, hm, e⟩
    have unmarked : marks.lookup c = none :=
      List.lookup_eq_none_iff.2 fun m hm => by simp [plain m hm]
    exact .inr ⟨plain, by rw [escapeChar, unmarked]⟩

theorem unmark_mark : ∀ m ∈ marks, unmark m.2 = m.1 := by decide

theorem foldl_replace_of_plain {c : Char} {ms : List (Char × Char)} (plain : ∀ m ∈ ms, c ≠ m.1) :
    ms.foldl (fun cs m => replace m.1 ['\\', m.2] cs) [c] = [c] := by
  induction ms with
  | nil => rfl
  | cons m ms ih =>
    have kept : replace m.1 ['\\', m.2] [c] = [c] := by
      simp [replace, plain m List.mem_cons_self]
    rw [List.foldl_cons, kept]
    exact ih fun k hk => plain k (List.mem_cons_of_mem _ hk)

theorem escapeChars_append (cs ds : List Char) :
    escapeChars (cs ++ ds) = escapeChars cs ++ escapeChars ds := by
  simp [escapeChars, marks, replace]

theorem escape_append (s t : String) : escape (s ++ t) = escape s ++ escape t := by
  simp [escape, escapeChars_append]

theorem escapeChars_singleton (c : Char) : escapeChars [c] = escapeChar c := by
  have own : ∀ m ∈ marks, escapeChars [m.1] = ['\\', m.2] := by decide
  obtain ⟨m, hm, rfl, e⟩ | ⟨plain, e⟩ := escapeChar_cases c
  · rw [e, own m hm]
  · rw [e, escapeChars, foldl_replace_of_plain plain]

/-- The replacements one after the other do the same as all of them at once. No later one touches
a mark of an earlier one, since the backslash has its turn first. -/
theorem escapeChars_eq_flatMap (cs : List Char) : escapeChars cs = cs.flatMap escapeChar := by
  induction cs with
  | nil => rfl
  | cons c cs ih =>
    rw [List.flatMap_cons, ← ih, ← escapeChars_singleton, ← escapeChars_append]
    rfl

theorem escape_of_plain {s : String} (plain : ∀ c ∈ s.toList, ∀ m ∈ marks, c ≠ m.1) :
    escape s = s := by
  have kept : ∀ c ∈ s.toList, escapeChar c = [c] := by
    intro c hc
    obtain ⟨m, hm, own, -⟩ | ⟨-, kept⟩ := escapeChar_cases c
    · exact absurd own (plain c hc m hm)
    · exact kept
  have same : s.toList.flatMap escapeChar = s.toList.flatMap fun c => [c] :=
    List.flatMap_congr kept
  apply String.toList_inj.1
  rw [toList_escape, escapeChars_eq_flatMap, same, List.flatMap_singleton']

theorem unescape_escapeChar_append (c : Char) (ds : List Char) :
    unescape (escapeChar c ++ ds) = c :: unescape ds := by
  obtain ⟨m, hm, rfl, e⟩ | ⟨plain, e⟩ := escapeChar_cases c
  · simp [e, unescape, unmark_mark m hm]
  · have noBackslash : c ≠ '\\' := plain ('\\', '\\') (by decide)
    simp [e, unescape, noBackslash]

theorem unescape_escapeChars (cs : List Char) : unescape (escapeChars cs) = cs := by
  rw [escapeChars_eq_flatMap]
  induction cs with
  | nil => rfl
  | cons c cs ih => rw [List.flatMap_cons, unescape_escapeChar_append, ih]

/-- The scanner passes over an escaped character as a whole. -/
theorem closing?_escapeChar_append (c : Char) (ds : List Char) :
    closing? (escapeChar c ++ ds) = (closing? ds).map fun p => (escapeChar c ++ p.1, p.2) := by
  obtain ⟨m, hm, rfl, e⟩ | ⟨plain, e⟩ := escapeChar_cases c
  · simp [e, closing?]
  · have noBackslash : c ≠ '\\' := plain ('\\', '\\') (by decide)
    have noQuote : c ≠ '"' := plain ('"', '"') (by decide)
    rw [e]
    simp [closing?, noBackslash]

theorem closing?_escapeChars (cs rest : List Char) :
    closing? (escapeChars cs ++ '"' :: rest) = some (escapeChars cs, rest) := by
  rw [escapeChars_eq_flatMap]
  induction cs with
  | nil => rfl
  | cons c cs ih =>
    rw [List.flatMap_cons, List.append_assoc, closing?_escapeChar_append, ih]
    rfl

theorem not_mem_escapeChars {c : Char} (h : c ∈ ['\n', '\r', '\t']) (cs : List Char) :
    c ∉ escapeChars cs := by
  have marked : ∀ c ∈ ['\n', '\r', '\t'], ∃ m ∈ marks, c = m.1 := by simp [marks]
  have noMark : ∀ c ∈ ['\n', '\r', '\t'], ∀ m ∈ marks, c ∉ ['\\', m.2] := by simp [marks]
  rw [escapeChars_eq_flatMap]
  intro mem
  obtain ⟨d, -, hd⟩ := List.mem_flatMap.1 mem
  obtain ⟨m, hm, rfl, e⟩ | ⟨plain, e⟩ := escapeChar_cases d
  · exact noMark c h m hm (e ▸ hd)
  · obtain rfl : c = d := by simpa [e] using hd
    obtain ⟨m, hm, own⟩ := marked c h
    exact plain m hm own

theorem toList_nodeId (name : String) :
    (nodeId name).toList = '"' :: escapeChars name.toList ++ ['"'] := by
  simp [nodeId]

theorem readName?_nodeId_append (name : String) (rest : List Char) :
    readName? ((nodeId name).toList ++ rest) = some (name, rest) := by
  have quoted : (nodeId name).toList ++ rest = '"' :: (escapeChars name.toList ++ '"' :: rest) := by
    simp [toList_nodeId]
  rw [quoted, readName?, closing?_escapeChars]
  simp [unescape_escapeChars]

def OneLine (s : String) : Prop := '\n' ∉ s.toList ∧ '\r' ∉ s.toList

instance (s : String) : Decidable (OneLine s) := inferInstanceAs (Decidable (_ ∧ _))

theorem oneLine_ofList {cs : List Char} (h : '\n' ∉ cs ∧ '\r' ∉ cs) : OneLine (.ofList cs) := by
  simpa [OneLine] using h

theorem OneLine.append {s t : String} (h : OneLine s) (k : OneLine t) : OneLine (s ++ t) := by
  simp_all [OneLine]

theorem oneLine_escape (s : String) : OneLine (escape s) := by
  simp [OneLine, not_mem_escapeChars]

theorem oneLine_nodeId (name : String) : OneLine (nodeId name) :=
  ((by decide : OneLine "\"").append (oneLine_escape name)).append (by decide)

end Dot
end JarAtlas
