/-! Cutting a text at a separator, putting pieces together again, and searching a text. -/
namespace JarAtlas
namespace Text

/-- The pieces between the separators: one more than there are separators. -/
def pieces (sep : Char) : List Char → List (List Char)
  | [] => [[]]
  | c :: cs =>
    if c = sep then [] :: pieces sep cs
    else match pieces sep cs with
      | [] => [[c]]
      | p :: ps => (c :: p) :: ps

def split (sep : Char) (s : String) : List String := (pieces sep s.toList).map .ofList

def joinChars (sep : List Char) : List (List Char) → List Char
  | [] => []
  | [p] => p
  | p :: ps => p ++ sep ++ joinChars sep ps

def join (sep : String) (parts : List String) : String :=
  .ofList (joinChars sep.toList (parts.map String.toList))

def cut? (sep : Char) : List Char → Option (List Char × List Char)
  | [] => none
  | c :: cs =>
    if c = sep then some ([], cs)
    else (cut? sep cs).map fun (before, after) => (c :: before, after)

def afterPrefix? : List Char → List Char → Option (List Char)
  | [], cs => some cs
  | _ :: _, [] => none
  | p :: ps, c :: cs => if p = c then afterPrefix? ps cs else none

def beforeSuffix? (suffix cs : List Char) : Option (List Char) :=
  (afterPrefix? suffix.reverse cs.reverse).map List.reverse

def occurs (needle : List Char) : List Char → Bool
  | [] => needle.isEmpty
  | c :: cs => needle.isPrefixOf (c :: cs) || occurs needle cs

def replace (c : Char) (text : List Char) (cs : List Char) : List Char :=
  cs.flatMap fun x => if x = c then text else [x]

theorem pieces_ne_nil (sep : Char) (cs : List Char) : pieces sep cs ≠ [] := by
  cases cs with
  | nil => simp [pieces]
  | cons c cs =>
    simp only [pieces]
    split
    · simp
    · split <;> simp

theorem pieces_of_not_mem {sep : Char} {p : List Char} (h : sep ∉ p) : pieces sep p = [p] := by
  induction p with
  | nil => rfl
  | cons c p ih =>
    rw [List.mem_cons, not_or] at h
    simp [pieces, Ne.symm h.1, ih h.2]

theorem pieces_append_cons (sep : Char) (cs ds : List Char) :
    pieces sep (cs ++ sep :: ds) = pieces sep cs ++ pieces sep ds := by
  induction cs with
  | nil => simp [pieces]
  | cons c cs ih =>
    simp only [List.cons_append, pieces]
    split
    · rw [ih, List.cons_append]
    · cases e : pieces sep cs with
      | nil => exact absurd e (pieces_ne_nil sep cs)
      | cons p ps => simp [ih, e]

/-- What has no separator only makes the last piece longer. -/
theorem exists_pieces_append (sep : Char) (cs : List Char) :
    ∃ ps p, ∀ ds, sep ∉ ds → pieces sep (cs ++ ds) = ps ++ [p ++ ds] := by
  induction cs with
  | nil => exact ⟨[], [], fun ds h => pieces_of_not_mem h⟩
  | cons c cs ih =>
    obtain ⟨ps, p, h⟩ := ih
    by_cases e : c = sep
    · exact ⟨[] :: ps, p, fun ds clean => by simp [pieces, e, h ds clean]⟩
    · cases ps with
      | nil => exact ⟨[], c :: p, fun ds clean => by simp [pieces, e, h ds clean]⟩
      | cons q ps => exact ⟨(c :: q) :: ps, p, fun ds clean => by simp [pieces, e, h ds clean]⟩

theorem not_mem_of_mem_pieces {sep : Char} {p cs : List Char} (h : p ∈ pieces sep cs) :
    sep ∉ p := by
  induction cs generalizing p with
  | nil => simp_all [pieces]
  | cons c cs ih =>
    simp only [pieces] at h
    split at h
    · rcases List.mem_cons.1 h with rfl | h
      · simp
      · exact ih h
    · next ne =>
      split at h
      · next e => exact absurd e (pieces_ne_nil sep cs)
      · next q qs e =>
        rcases List.mem_cons.1 h with rfl | h
        · have clean : sep ∉ q := ih (e ▸ List.mem_cons_self)
          simp [Ne.symm ne, clean]
        · exact ih (e ▸ List.mem_cons_of_mem _ h)

theorem mem_of_mem_pieces {sep c : Char} {p cs : List Char} (hp : p ∈ pieces sep cs)
    (hc : c ∈ p) : c ∈ cs := by
  induction cs generalizing p with
  | nil =>
    obtain rfl : p = [] := by simpa [pieces] using hp
    exact hc
  | cons d cs ih =>
    simp only [pieces] at hp
    split at hp
    · rcases List.mem_cons.1 hp with rfl | hp
      · simp at hc
      · exact List.mem_cons_of_mem _ (ih hp hc)
    · split at hp
      · next none => exact absurd none (pieces_ne_nil sep cs)
      · next q qs e =>
        rcases List.mem_cons.1 hp with rfl | hp
        · rcases List.mem_cons.1 hc with rfl | hc
          · exact List.mem_cons_self
          · exact List.mem_cons_of_mem _ (ih (e ▸ List.mem_cons_self) hc)
        · exact List.mem_cons_of_mem _ (ih (e ▸ List.mem_cons_of_mem _ hp) hc)

theorem mem_joinChars {c : Char} {sep : List Char} {ps : List (List Char)}
    (h : c ∈ joinChars sep ps) : c ∈ sep ∨ ∃ p ∈ ps, c ∈ p := by
  induction ps with
  | nil => simp [joinChars] at h
  | cons p ps ih =>
    cases ps with
    | nil => exact .inr ⟨p, List.mem_cons_self, h⟩
    | cons q ps =>
      simp only [joinChars, List.mem_append] at h
      rcases h with (first | between) | rest
      · exact .inr ⟨p, List.mem_cons_self, first⟩
      · exact .inl between
      · rcases ih rest with between | ⟨r, hr, inside⟩
        · exact .inl between
        · exact .inr ⟨r, List.mem_cons_of_mem _ hr, inside⟩

/-- Joining undoes cutting where no piece has a separator of its own. -/
theorem pieces_joinChars {sep : Char} {ps : List (List Char)} (filled : ps ≠ [])
    (clean : ∀ p ∈ ps, sep ∉ p) : pieces sep (joinChars [sep] ps) = ps := by
  induction ps with
  | nil => exact absurd rfl filled
  | cons p ps ih =>
    obtain ⟨first, rest⟩ := List.forall_mem_cons.1 clean
    cases ps with
    | nil => exact pieces_of_not_mem first
    | cons q qs =>
      rw [joinChars, List.append_assoc, List.singleton_append, pieces_append_cons,
        pieces_of_not_mem first, ih (by simp) rest, List.singleton_append]
      simp

theorem joinChars_pieces (sep : Char) (cs : List Char) : joinChars [sep] (pieces sep cs) = cs := by
  induction cs with
  | nil => rfl
  | cons c cs ih =>
    simp only [pieces]
    cases e : pieces sep cs with
    | nil => exact absurd e (pieces_ne_nil sep cs)
    | cons p ps =>
      rw [e] at ih
      split
      · next same => simp [joinChars, ih, same]
      · cases ps with
        | nil => simpa [joinChars] using ih
        | cons q ps => simpa [joinChars] using ih

@[simp] theorem join_singleton (sep p : String) : join sep [p] = p := by
  simp [join, joinChars]

theorem join_cons_cons (sep p q : String) (ps : List String) :
    join sep (p :: q :: ps) = p ++ sep ++ join sep (q :: ps) := by
  apply String.toList_inj.1
  simp [join, joinChars]

theorem cut?_append {sep : Char} {before : List Char} (h : sep ∉ before) (after : List Char) :
    cut? sep (before ++ sep :: after) = some (before, after) := by
  induction before with
  | nil => simp [cut?]
  | cons c before ih =>
    rw [List.mem_cons, not_or] at h
    simp [cut?, Ne.symm h.1, ih h.2]

theorem eq_append_of_cut? {sep : Char} {cs before after : List Char}
    (h : cut? sep cs = some (before, after)) : cs = before ++ sep :: after ∧ sep ∉ before := by
  induction cs generalizing before with
  | nil => simp [cut?] at h
  | cons c cs ih =>
    simp only [cut?] at h
    split at h
    · next e =>
      obtain ⟨rfl, rfl⟩ : [] = before ∧ cs = after := by simpa using h
      simp [e]
    · next ne =>
      obtain ⟨⟨b, a⟩, hb, e⟩ := Option.map_eq_some_iff.1 h
      obtain ⟨rfl, rfl⟩ : c :: b = before ∧ a = after := by simpa using e
      obtain ⟨parts, clean⟩ := ih hb
      simp [parts, Ne.symm ne, clean]

@[simp] theorem afterPrefix?_append (p cs : List Char) : afterPrefix? p (p ++ cs) = some cs := by
  induction p with
  | nil => rfl
  | cons c p ih => simp [afterPrefix?, ih]

theorem eq_append_of_afterPrefix? {p cs rest : List Char} (h : afterPrefix? p cs = some rest) :
    cs = p ++ rest := by
  induction p generalizing cs with
  | nil => simpa [afterPrefix?] using h
  | cons c p ih =>
    cases cs with
    | nil => simp [afterPrefix?] at h
    | cons d cs =>
      simp only [afterPrefix?] at h
      split at h
      · next e => rw [e, ih h]; rfl
      · simp at h

theorem afterPrefix?_eq_some_iff {p cs rest : List Char} :
    afterPrefix? p cs = some rest ↔ cs = p ++ rest :=
  ⟨eq_append_of_afterPrefix?, fun h => h ▸ afterPrefix?_append p rest⟩

theorem beforeSuffix?_eq_some_iff {suffix cs stem : List Char} :
    beforeSuffix? suffix cs = some stem ↔ cs = stem ++ suffix := by
  simp only [beforeSuffix?, Option.map_eq_some_iff, afterPrefix?_eq_some_iff]
  constructor
  · rintro ⟨rest, h, rfl⟩
    have k := congrArg List.reverse h
    simpa using k
  · rintro rfl
    exact ⟨stem.reverse, by simp, by simp⟩

end Text
end JarAtlas
