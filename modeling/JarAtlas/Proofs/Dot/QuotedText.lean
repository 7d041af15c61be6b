import JarAtlas.Proofs.Dot.Escaping

/-! Texts between quotes. A text is escaped as if every character were replaced at once, so that it
can be read back, and a quoted one ends where it is meant to, whatever follows it. -/
namespace JarAtlas
namespace Dot

def quotedForm : Char → List Char
  | '\\' => ['\\', '\\']
  | '"' => ['\\', '"']
  | '\n' => ['\\', 'n']
  | '\r' => ['\\', 'r']
  | '\t' => ['\\', 't']
  | c => [c]

theorem escapeChar_eq_quotedForm (c : Char) : escapeChar c = quotedForm c := by
  have own : ∀ m ∈ marks, quotedForm m.1 = ['\\', m.2] := by decide
  obtain ⟨m, hm, rfl, e⟩ | ⟨plain, e⟩ := escapeChar_cases c
  · rw [e, own m hm]
  · have others : c ≠ '\\' ∧ c ≠ '"' ∧ c ≠ '\n' ∧ c ≠ '\r' ∧ c ≠ '\t' := by
      simpa [marks] using plain
    simp [e, quotedForm, others]

def unescaped (s : String) : String := .ofList (unescape s.toList)

theorem unescaped_escape (s : String) : unescaped (escape s) = s := by
  rw [unescaped, toList_escape, unescape_escapeChars, String.ofList_toList]

theorem escape_injective : Function.Injective escape :=
  Function.LeftInverse.injective unescaped_escape

theorem nodeId_injective : Function.Injective nodeId := by
  intro s t same
  have read := readName?_nodeId_append t []
  rw [← same, readName?_nodeId_append] at read
  exact congrArg Prod.fst (Option.some.inj read)

/-- What may stand between two quotes: a backslash protects the character behind it, and there is
no quote but protected ones. -/
inductive Quotable : List Char → Prop
  | nil : Quotable []
  | plain {c : Char} {cs : List Char} : c ≠ '\\' → c ≠ '"' → Quotable cs → Quotable (c :: cs)
  | guarded {c : Char} {cs : List Char} : Quotable cs → Quotable ('\\' :: c :: cs)

theorem Quotable.closing?_append {body : List Char} (quotable : Quotable body)
    (rest : List Char) : closing? (body ++ '"' :: rest) = some (body, rest) := by
  induction quotable with
  | nil => rfl
  | plain noBackslash noQuote _ ih => simp [closing?, noBackslash, ih]
  | guarded _ ih => simp [closing?, ih]

theorem quotable_of_closing? {cs body rest : List Char} (h : closing? cs = some (body, rest)) :
    Quotable body ∧ cs = body ++ '"' :: rest := by
  fun_induction closing? cs generalizing body with
  | case1 => cases h
  | case2 cs =>
    obtain ⟨rfl, rfl⟩ := Prod.mk.inj (Option.some.inj h)
    exact ⟨.nil, rfl⟩
  | case3 c cs ih =>
    obtain ⟨⟨inner, behind⟩, found, e⟩ := Option.map_eq_some_iff.1 h
    obtain ⟨rfl, rfl⟩ := Prod.mk.inj e
    obtain ⟨quotable, whole⟩ := ih found
    exact ⟨.guarded quotable, by rw [whole]; rfl⟩
  | case4 c cs noQuote noPair ih =>
    obtain ⟨⟨inner, behind⟩, found, e⟩ := Option.map_eq_some_iff.1 h
    obtain ⟨rfl, rfl⟩ := Prod.mk.inj e
    obtain ⟨quotable, whole⟩ := ih found
    have noBackslash : c ≠ '\\' := by
      -- A last backslash protects nothing, but then there is no quote behind it.
      rintro rfl
      cases inner <;> exact noPair _ _ rfl whole
    exact ⟨.plain noBackslash noQuote quotable, by rw [whole]; rfl⟩

def quotedText? : List Char → Option (List Char × List Char)
  | '"' :: cs => (closing? cs).map fun p => ('"' :: p.1 ++ ['"'], p.2)
  | _ => none

theorem quotedText?_eq_some_iff {cs text rest : List Char} :
    quotedText? cs = some (text, rest) ↔
      ∃ body, Quotable body ∧ text = '"' :: body ++ ['"'] ∧ cs = text ++ rest := by
  constructor
  · intro h
    unfold quotedText? at h
    split at h
    · obtain ⟨⟨body, behind⟩, found, e⟩ := Option.map_eq_some_iff.1 h
      obtain ⟨rfl, rfl⟩ := Prod.mk.inj e
      obtain ⟨quotable, whole⟩ := quotable_of_closing? found
      exact ⟨body, quotable, rfl, by simp [whole]⟩
    · cases h
  · rintro ⟨body, quotable, rfl, rfl⟩
    simp [quotedText?, quotable.closing?_append]

theorem quotable_escapeChars (cs : List Char) : Quotable (escapeChars cs) :=
  (quotable_of_closing? (closing?_escapeChars cs [])).1

theorem quotedText?_nodeId_append (name : String) (rest : List Char) :
    quotedText? ((nodeId name).toList ++ rest) = some ((nodeId name).toList, rest) :=
  quotedText?_eq_some_iff.2
    ⟨escapeChars name.toList, quotable_escapeChars _, toList_nodeId name, rfl⟩

/-- Escaping is faithful: the replacements one after the other come to all of them at once, part by
part, and leave no line end and no tab; texts and node names can be told apart and read back; and a
scanner for quoted texts that starts at a node's name takes this name and nothing else. -/
theorem escape_faithful (s t : String) (rest : List Char) :
    (escape s).toList = s.toList.flatMap quotedForm ∧
    escape (s ++ t) = escape s ++ escape t ∧
    ('\n' ∉ (escape s).toList ∧ '\r' ∉ (escape s).toList ∧ '\t' ∉ (escape s).toList) ∧
    unescaped (escape s) = s ∧
    (escape s = escape t ↔ s = t) ∧ (nodeId s = nodeId t ↔ s = t) ∧
    (∀ cs text behind, quotedText? cs = some (text, behind) ↔
      ∃ body, Quotable body ∧ text = '"' :: body ++ ['"'] ∧ cs = text ++ behind) ∧
    quotedText? ((nodeId s).toList ++ rest) = some ((nodeId s).toList, rest) := by
  have forms : escapeChar = quotedForm := funext escapeChar_eq_quotedForm
  have gone {c : Char} (h : c ∈ ['\n', '\r', '\t']) : c ∉ (escape s).toList := by
    rw [toList_escape]
    exact not_mem_escapeChars h s.toList
  refine ⟨?_, escape_append s t, ⟨gone (by decide), gone (by decide), gone (by decide)⟩,
    unescaped_escape s, escape_injective.eq_iff, nodeId_injective.eq_iff,
    fun _ _ _ => quotedText?_eq_some_iff, quotedText?_nodeId_append s rest⟩
  rw [toList_escape, escapeChars_eq_flatMap, forms]

end Dot
end JarAtlas
