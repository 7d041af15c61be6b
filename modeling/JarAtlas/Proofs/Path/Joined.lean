import JarAtlas.Proofs.Path

/-! Paths seen from a directory: what stands in front of their pieces, and, for a file name, that
the directory is the parent. -/
namespace JarAtlas
namespace Path

open Text

variable {dir path name : String}

/-- The pieces of a directory that come before those of a path seen from it. -/
def front (dir : String) : List String :=
  if dir = "" ∨ dir.toList.getLast? = some '/' then (parts dir).dropLast else parts dir

theorem append_eq_of_relative (relative : rooted path = false) (dir : String) :
    append dir path =
      if dir = "" ∨ dir.toList.getLast? = some '/' then dir ++ path else dir ++ "/" ++ path := by
  simp [append, relative]

theorem parts_append_slash (dir path : String) :
    parts (dir ++ "/" ++ path) = parts dir ++ parts path := by
  have slash : (dir ++ "/" ++ path).toList = dir.toList ++ '/' :: path.toList := by simp
  rw [parts, split, slash, pieces_append_cons, List.map_append]
  rfl

theorem parts_eq_front (dir : String) : parts dir = front dir ∨ parts dir = front dir ++ [""] := by
  unfold front
  split
  · next ended =>
    right
    rcases ended with rfl | slash
    · rfl
    · obtain ⟨cs, whole⟩ := List.getLast?_eq_some_iff.1 slash
      have text : dir = String.ofList cs ++ "/" ++ "" := by
        rw [← String.toList_inj, whole]
        simp
      have empty : parts "" = [""] := rfl
      rw [text, parts_append_slash, empty, List.dropLast_concat]
  · exact .inl rfl

theorem parts_append (relative : rooted path = false) :
    parts (append dir path) = front dir ++ parts path := by
  unfold append front
  rw [if_neg (by simp [relative])]
  split
  · next ended =>
    rcases ended with rfl | slash
    · simp [parts, split, pieces]
    · obtain ⟨cs, whole⟩ := List.getLast?_eq_some_iff.1 slash
      have text : dir = String.ofList cs ++ "/" := by
        rw [← String.toList_inj, whole]
        simp
      have ended : parts dir = parts (String.ofList cs) ++ [""] := by
        have empty := parts_append_slash (String.ofList cs) ""
        rwa [String.append_empty, ← text] at empty
      rw [ended, List.dropLast_concat, text, parts_append_slash]
  · exact parts_append_slash dir path

theorem rooted_append_dir (relative : rooted path = false) :
    rooted (append dir path) = rooted dir := by
  by_cases empty : dir = ""
  · subst empty
    rw [append_empty, relative]
    rfl
  · unfold append
    rw [if_neg (by simp [relative])]
    split
    · exact rooted_append empty path
    · rw [String.append_assoc]
      exact rooted_append empty _

theorem splitTail_append (ps : List String) : (splitTail ps).1 ++ (splitTail ps).2 = ps := by
  rw [splitTail, ← List.reverse_append, List.takeWhile_append_dropWhile, List.reverse_reverse]

theorem splitTail_concat (ps : List String) (named : idle name = false) :
    splitTail (ps ++ [name]) = (ps ++ [name], []) := by
  simp [splitTail, named]

theorem filter_splitTail (ps : List String) :
    (splitTail ps).1.filter (fun p => !idle p) = ps.filter fun p => !idle p := by
  have dropped : (splitTail ps).2.filter (fun p => !idle p) = [] := by
    rw [List.filter_eq_nil_iff]
    intro p hp
    have idle := List.all_eq_true.1 List.all_takeWhile p (List.mem_reverse.1 hp)
    simpa using idle
  conv_rhs => rw [← splitTail_append ps, List.filter_append, dropped, List.append_nil]

theorem steps_congr {a b : String} (start : rooted a = rooted b)
    (names : (parts a).filter (fun p => !idle p) = (parts b).filter fun p => !idle p)
    (dot : (parts a).head? = some "." ↔ (parts b).head? = some ".") : steps a = steps b := by
  simp only [steps, start, names, dot]

/-- A name without a slash that is no step up, as files have it. -/
structure IsName (name : String) : Prop where
  whole : '/' ∉ name.toList
  named : idle name = false
  notUp : name ≠ ".."

theorem isName_of_length (whole : '/' ∉ name.toList) (long : 2 < name.toList.length) :
    IsName name where
  whole := whole
  named := by
    rw [Bool.eq_false_iff]
    intro stays
    simp only [idle, Bool.or_eq_true, beq_iff_eq] at stays
    rcases stays with rfl | rfl <;> exact absurd long (by decide)
  notUp := by
    rintro rfl
    exact absurd long (by decide)

namespace IsName

theorem parts_eq (h : IsName name) : parts name = [name] := by
  rw [parts, split, pieces_of_not_mem h.whole]
  simp

theorem relative (h : IsName name) : rooted name = false := by
  by_contra root
  obtain ⟨p, ps, two⟩ := rooted_iff.1 (by simpa using root)
  rw [h.parts_eq] at two
  simp at two

theorem parts_append (h : IsName name) (dir : String) :
    parts (append dir name) = front dir ++ [name] := by
  rw [Path.parts_append h.relative, h.parts_eq]

theorem fileName?_append (h : IsName name) (dir : String) :
    fileName? (append dir name) = some name := by
  unfold fileName?
  rw [h.parts_append, splitTail_concat _ h.named]
  simp [h.notUp]

theorem parent?_append (h : IsName name) (dir : String) :
    ∃ above, parent? (append dir name) = some above ∧ steps above = steps dir := by
  have ends := parts_eq_front dir
  have names : (splitTail (front dir)).1.filter (fun p => !idle p) =
      (parts dir).filter fun p => !idle p := by
    rw [filter_splitTail]
    rcases ends with same | slash
    · rw [same]
    · rw [slash]
      simp [idle]
  have dot : (front dir).head? = some "." ↔ (parts dir).head? = some "." := by
    rcases ends with same | slash
    · rw [same]
    · rw [slash]
      cases front dir <;> simp
  unfold parent?
  rw [h.parts_append, splitTail_concat _ h.named, rooted_append_dir h.relative]
  split
  · next none => simp at none
  · simp only [List.dropLast_concat]
    by_cases top : (splitTail (front dir)).1 = []
    · -- Nothing in front of the name is a step, so that only the start of the path is left.
      rw [top, List.filter_nil] at names
      have steps_dir : steps dir = if rooted dir then ["/"]
          else if (parts dir).head? = some "." then ["."] else [] := by
        simp only [steps, ← names]
      rw [if_pos top, steps_dir]
      by_cases root : rooted dir = true
      · exact ⟨"/", by rw [if_pos root], by rw [if_pos root]; rfl⟩
      · by_cases here : (front dir).head? = some "."
        · exact ⟨".", by rw [if_neg root, if_pos here],
            by rw [if_neg root, if_pos (dot.1 here)]; rfl⟩
        · exact ⟨"", by rw [if_neg root, if_neg here],
            by rw [if_neg root, if_neg fun first => here (dot.2 first)]; rfl⟩
    · have ahead : (splitTail (front dir)).1 <+: parts dir := by
        refine (splitTail_isPrefix _).trans ?_
        rcases ends with same | slash
        · simp only [same, List.prefix_rfl]
        · rw [slash]
          exact List.prefix_append ..
      obtain ⟨pieces, start⟩ := ofParts_of_front ahead top fun p => eq_false_of_getLast?
      refine ⟨_, if_neg top, steps_congr start (by rw [pieces, names]) ?_⟩
      rw [pieces]
      obtain ⟨rest, all⟩ := ahead
      rw [← all]
      cases first : (splitTail (front dir)).1 with
      | nil => exact absurd first top
      | cons p ps => simp

end IsName

end Path
end JarAtlas
