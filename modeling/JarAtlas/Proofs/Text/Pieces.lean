import JarAtlas.Text.Pieces
import Mathlib.Data.List.Basic

/-! How many pieces a text has, and what its first pieces say about how it starts. -/
namespace JarAtlas
namespace Text

theorem length_pieces (sep : Char) (cs : List Char) :
    (pieces sep cs).length = cs.count sep + 1 := by
  induction cs with
  | nil => rfl
  | cons c cs ih =>
    cases e : pieces sep cs with
    | nil => exact absurd e (pieces_ne_nil sep cs)
    | cons p ps =>
      rw [e, List.length_cons] at ih
      by_cases same : c = sep
      · simp [pieces, same, e, ih]
      · simp [pieces, same, e, ih]

theorem joinChars_append (sep : List Char) {ps qs : List (List Char)} (left : ps ≠ [])
    (right : qs ≠ []) : joinChars sep (ps ++ qs) = joinChars sep ps ++ sep ++ joinChars sep qs := by
  induction ps with
  | nil => exact absurd rfl left
  | cons p ps ih =>
    cases ps with
    | nil =>
      obtain ⟨q, qs, rfl⟩ := List.exists_cons_of_ne_nil right
      rfl
    | cons r ps =>
      have rest := ih (by simp)
      simp only [List.cons_append, joinChars] at rest ⊢
      simp only [rest, List.append_assoc]

theorem head?_pieces_eq_some_iff {sep : Char} {cs p : List Char} :
    (pieces sep cs).head? = some p ↔ sep ∉ p ∧ (cs = p ∨ ∃ rest, cs = p ++ sep :: rest) := by
  constructor
  · intro first
    obtain ⟨ps, e⟩ := List.head?_eq_some_iff.1 first
    have clean : sep ∉ p := not_mem_of_mem_pieces (e ▸ List.mem_cons_self)
    have whole := joinChars_pieces sep cs
    rw [e] at whole
    cases ps with
    | nil => exact ⟨clean, .inl whole.symm⟩
    | cons q qs => exact ⟨clean, .inr ⟨joinChars [sep] (q :: qs), by simp [← whole, joinChars]⟩⟩
  · rintro ⟨clean, rfl | ⟨rest, rfl⟩⟩
    · rw [pieces_of_not_mem clean]; rfl
    · rw [pieces_append_cons, pieces_of_not_mem clean]; rfl

/-- A text starts with so many pieces and one more if and only if it goes on, behind their join, with
a separator and that piece. -/
theorem take_pieces_iff {sep : Char} {n : Nat} {cs front p : List Char} :
    joinChars [sep] ((pieces sep cs).take (n + 1)) = front ∧ (pieces sep cs)[n + 1]? = some p ↔
      front.count sep = n ∧ ∃ tail, cs = front ++ sep :: tail ∧
        (pieces sep tail).head? = some p := by
  constructor
  · rintro ⟨rfl, next⟩
    obtain ⟨bound, -⟩ := List.getElem?_eq_some_iff.1 next
    have clean (ps : List (List Char)) (sub : ps ⊆ pieces sep cs) : ∀ q ∈ ps, sep ∉ q :=
      fun q hq => not_mem_of_mem_pieces (sub hq)
    have filled : (pieces sep cs).take (n + 1) ≠ [] := by simp [pieces_ne_nil]
    have more : (pieces sep cs).drop (n + 1) ≠ [] := by simpa using bound
    have before := pieces_joinChars filled (clean _ (List.take_subset _ _))
    have behind := pieces_joinChars more (clean _ (List.drop_subset _ _))
    refine ⟨?_, joinChars [sep] ((pieces sep cs).drop (n + 1)), ?_, ?_⟩
    · have count := length_pieces sep (joinChars [sep] ((pieces sep cs).take (n + 1)))
      rw [before, List.length_take] at count
      omega
    · have whole := joinChars_append [sep] filled more
      rw [List.take_append_drop, joinChars_pieces, List.append_assoc] at whole
      exact whole
    · rw [behind, List.head?_drop, next]
  · rintro ⟨rfl, tail, rfl, first⟩
    have count : (pieces sep front).length = front.count sep + 1 := length_pieces sep front
    rw [pieces_append_cons, List.take_left' count, joinChars_pieces]
    refine ⟨rfl, ?_⟩
    rw [List.getElem?_append_right (by omega), count, Nat.sub_self, ← List.head?_eq_getElem?, first]

theorem replace_eq_map (old new : Char) (cs : List Char) :
    replace old [new] cs = cs.map fun c => if c = old then new else c := by
  rw [replace, List.map_eq_flatMap]
  refine List.flatMap_congr fun c _ => ?_
  by_cases same : c = old
  · simp [same]
  · simp [same]

end Text
end JarAtlas
