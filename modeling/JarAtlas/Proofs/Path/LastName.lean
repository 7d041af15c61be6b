import JarAtlas.Proofs.Path.Joined

/-! The last name of a path: what it says about the steps and the parent, and how it is cut into a
stem and an extension. -/
namespace JarAtlas
namespace Path

open Text

variable {path other name last : String} {before behind rest : List String}

theorem exists_splitTail (h : fileName? path = some name) :
    name ≠ ".." ∧ ∃ before behind, splitTail (parts path) = (before ++ [name], behind) := by
  unfold fileName? at h
  split at h
  · cases h
  · next found =>
    obtain ⟨before, all⟩ := List.getLast?_eq_some_iff.1 found
    split at h
    · cases h
    · next notUp =>
      obtain rfl := Option.some.inj h
      exact ⟨notUp, before, _, Prod.ext all rfl⟩

theorem named_of_splitTail (h : splitTail (parts path) = (before ++ [name], behind)) :
    idle name = false := by
  have front : ((parts path).reverse.dropWhile idle).reverse = before ++ [name] :=
    congrArg Prod.fst h
  have found : ((parts path).reverse.dropWhile idle).reverse.getLast? = some name := by
    rw [front, List.getLast?_concat]
  exact eq_false_of_getLast? found

theorem parts_of_splitTail (h : splitTail (parts path) = (before ++ [name], behind)) :
    parts path = before ++ name :: behind := by
  have all := splitTail_append (parts path)
  rw [h] at all
  simpa using all.symm

theorem whole_of_splitTail (h : splitTail (parts path) = (before ++ [name], behind)) :
    '/' ∉ name.toList := by
  have mem : name ∈ parts path := by simp [parts_of_splitTail h]
  exact slash_not_mem_of_mem_parts mem

theorem before_of_splitTail (h : splitTail (parts path) = (before ++ [name], behind)) :
    ∀ p ∈ before, '/' ∉ p.toList := fun _ hp =>
  slash_not_mem_of_mem_parts (parts_of_splitTail h ▸ List.mem_append_left _ hp)

theorem filled_of_splitTail (h : splitTail (parts path) = (before ++ [name], behind)) :
    name ≠ "" := fun empty => by simpa [empty, idle] using named_of_splitTail h

/-- The last piece of a path is its last name, if no idle pieces follow that. -/
theorem getLast?_parts_iff (h : splitTail (parts path) = (before ++ [name], behind))
    {piece : String} (named : idle piece = false) :
    (parts path).getLast? = some piece ↔ name = piece ∧ behind.isEmpty = true := by
  rw [parts_of_splitTail h, List.getLast?_append_cons]
  cases behind with
  | nil => simp
  | cons p ps =>
    have tail : ((parts path).reverse.takeWhile idle).reverse = p :: ps := congrArg Prod.snd h
    simp only [List.getLast?_cons_cons, List.isEmpty_cons, Bool.false_eq_true, and_false, iff_false]
    intro found
    have inTail : piece ∈ (parts path).reverse.takeWhile idle := by
      rw [← List.mem_reverse, tail]
      exact List.mem_of_getLast? found
    have isIdle : idle piece = true := List.all_eq_true.1 List.all_takeWhile piece inTail
    simp [named] at isIdle

theorem fileName?_of_splitTail (h : splitTail (parts path) = (before ++ [name], behind)) :
    fileName? path = if name = ".." then none else some name := by
  simp [fileName?, h]

theorem getLast?_steps (h : splitTail (parts path) = (before ++ [name], behind)) :
    (steps path).getLast? = some name := by
  have kept : [name].filter (fun p => !idle p) = [name] := by simp [named_of_splitTail h]
  have names := filter_splitTail (parts path)
  rw [h, List.filter_append, kept] at names
  simp only [steps, ← names]
  split
  · rw [← List.cons_append, List.getLast?_concat]
  · split
    · rw [← List.cons_append, List.getLast?_concat]
    · exact List.getLast?_concat

theorem steps_ne_of_last (h : splitTail (parts path) = (before ++ [name], behind))
    (k : (steps other).getLast? = some last) (apart : last ≠ name) :
    steps other ≠ steps path := by
  intro same
  rw [same, getLast?_steps h] at k
  exact apart (Option.some.inj k).symm

theorem steps_ne_of_fileName?_ne (h : fileName? path = some name) (k : fileName? other = some last)
    (apart : last ≠ name) : steps other ≠ steps path := by
  obtain ⟨-, before, behind, front⟩ := exists_splitTail h
  obtain ⟨-, before', behind', front'⟩ := exists_splitTail k
  exact steps_ne_of_last front (getLast?_steps front') apart

/-- What stands in front of the last name says whether the path starts at the root. -/
theorem rooted_iff_of_splitTail (h : splitTail (parts path) = (before ++ [name], behind)) :
    rooted path = true ↔ before.head? = some "" := by
  rw [rooted_iff, parts_of_splitTail h]
  cases before with
  | nil =>
    simp [filled_of_splitTail h]
  | cons first more => cases more <;> simp

theorem parent?_congr (h : splitTail (parts path) = (before ++ [name], behind))
    (k : splitTail (parts other) = (before ++ [last], rest)) : parent? path = parent? other := by
  have start : rooted path = rooted other := by
    rw [Bool.eq_iff_iff, rooted_iff_of_splitTail h, rooted_iff_of_splitTail k]
  simp [parent?, h, k, start]

theorem splitTail_ofParts (clean : ∀ p ∈ before, '/' ∉ p.toList) (whole : '/' ∉ name.toList)
    (named : idle name = false) :
    splitTail (parts (ofParts (before ++ [name]))) = (before ++ [name], []) := by
  have all : ∀ p ∈ before ++ [name], '/' ∉ p.toList := by
    simpa [or_imp, forall_and] using ⟨clean, whole⟩
  rw [parts_ofParts (by simp) all, splitTail_concat before named]

variable {stem ext : String}

theorem splitExtension_append (clean : '.' ∉ ext.toList) (filled : stem ≠ "") :
    splitExtension (stem ++ "." ++ ext) = (stem, some ext) := by
  obtain ⟨c, cs, turned⟩ : ∃ c cs, stem.toList.reverse = c :: cs :=
    List.exists_cons_of_ne_nil (by simpa using filled)
  have reversed : (stem ++ "." ++ ext).toList.reverse = ext.toList.reverse ++ '.' :: c :: cs := by
    simp [turned]
  have cut : cut? '.' (stem ++ "." ++ ext).toList.reverse = some (ext.toList.reverse, c :: cs) := by
    rw [reversed, cut?_append (by simpa using clean)]
  unfold splitExtension
  rw [cut]
  simp [← turned]

/-- A name is a stem, or a stem with an extension that has no dots. -/
theorem splitExtension_cases (name : String) :
    splitExtension name = (name, none) ∨ ∃ stem ext, stem ≠ "" ∧ '.' ∉ ext.toList ∧
      name = stem ++ "." ++ ext ∧ splitExtension name = (stem, some ext) := by
  cases cut : cut? '.' name.toList.reverse with
  | none => exact .inl (by simp [splitExtension, cut])
  | some parts =>
    obtain ⟨ext, stem⟩ := parts
    cases stem with
    | nil => exact .inl (by simp [splitExtension, cut])
    | cons c cs =>
      obtain ⟨reversed, clean⟩ := eq_append_of_cut? cut
      have whole : name = .ofList (c :: cs).reverse ++ "." ++ .ofList ext.reverse := by
        rw [← String.toList_inj, ← List.reverse_inj, reversed]
        simp
      exact .inr ⟨_, _, by simp, by simpa using clean, whole, by simp [splitExtension, cut]⟩

theorem stem_of_name (filled : name ≠ "") : (splitExtension name).1 ≠ "" ∧
    (splitExtension name).1.toList ⊆ name.toList := by
  rcases splitExtension_cases name with same | ⟨stem, ext, ne, -, whole, cut⟩
  · rw [same]
    exact ⟨filled, List.Subset.refl _⟩
  · rw [cut, whole]
    exact ⟨ne, by simp⟩

end Path
end JarAtlas
