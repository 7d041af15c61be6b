import JarAtlas.Proofs.Path.LastName
import JarAtlas.Render.ImagePath

/-! The image of a description. It is never the description itself. It has a name in the directory of
the description, unless the last name of that is a dot with an extension. -/
namespace JarAtlas
namespace Render

open JarAtlas.Path

variable {format description name ext : String} {before behind : List String} {last : Bool}

/-- The image has a name of its own in the directory of the description. -/
def LiesBeside (image description : String) : Prop :=
  parent? image = parent? description ∧ (fileName? image).isSome = true

instance (image description : String) : Decidable (LiesBeside image description) :=
  inferInstanceAs (Decidable (_ ∧ _))

def DotExtended (name : String) : Prop := ∃ ext : String, '.' ∉ ext.toList ∧ name = ".." ++ ext

theorem DotExtended.named (dot : DotExtended name) : idle name = false := by
  obtain ⟨ext, -, rfl⟩ := dot
  simp [idle, ← String.toList_inj]

theorem dotExtended_iff (notUp : name ≠ "..") : DotExtended name ↔
    (splitExtension name).2.isSome = true ∧ (splitExtension name).1 = "." := by
  constructor
  · rintro ⟨ext, clean, rfl⟩
    have cut := splitExtension_append clean (show "." ≠ "" by decide)
    have two : ".." ++ ext = "." ++ "." ++ ext := rfl
    simp [two, cut]
  · rintro ⟨extended, dot⟩
    rcases splitExtension_cases name with same | ⟨stem, ext, -, clean, whole, cut⟩
    · simp [same] at extended
    · rw [cut] at dot
      obtain rfl : stem = "." := dot
      exact ⟨ext, clean, whole⟩

theorem renamed_eq (ext name : String) (last : Bool) : renamed ext name last =
    if (splitExtension name).2.isSome = true ∧ (splitExtension name).1 = "." ∧ last = true then ".."
    else if ext = "" then (splitExtension name).1 else (splitExtension name).1 ++ "." ++ ext := rfl

/-- Another extension makes a dot with an extension a step up. -/
theorem renamed_of_dotExtended (notUp : name ≠ "..") (dot : DotExtended name) (ext : String) :
    renamed ext name true = ".." := by
  obtain ⟨extended, stem⟩ := (dotExtended_iff notUp).1 dot
  rw [renamed_eq, if_pos ⟨extended, stem, rfl⟩]

theorem renamed_of_not_dotExtended (notUp : name ≠ "..") (plain : ¬ (DotExtended name ∧ last = true))
    (ext : String) : renamed ext name last =
      if ext = "" then (splitExtension name).1 else (splitExtension name).1 ++ "." ++ ext := by
  rw [renamed_eq, if_neg]
  rintro ⟨extended, stem, rfl⟩
  exact plain ⟨(dotExtended_iff notUp).2 ⟨extended, stem⟩, rfl⟩

theorem isName_extended {stem : String} (filled : stem ≠ "") (extended : ext ≠ "")
    (whole : '/' ∉ stem.toList) (clean : '/' ∉ ext.toList) : IsName (stem ++ "." ++ ext) := by
  have front : 0 < stem.toList.length := List.length_pos_iff.2 (by simpa using filled)
  have behind : 0 < ext.toList.length := List.length_pos_iff.2 (by simpa using extended)
  have long : 2 < (stem ++ "." ++ ext).toList.length := by
    simp only [String.toList_append, List.length_append]
    have dot : ".".toList.length = 1 := rfl
    omega
  exact isName_of_length (by simp [whole, clean]) long

theorem renamed_cases (whole : '/' ∉ name.toList) (filled : name ≠ "") (notUp : name ≠ "..")
    (extended : ext ≠ "") (clean : '/' ∉ ext.toList) (last : Bool) :
    (DotExtended name ∧ last = true) ∧ renamed ext name last = ".." ∨
      ¬ (DotExtended name ∧ last = true) ∧ IsName (renamed ext name last) := by
  by_cases dot : DotExtended name ∧ last = true
  · obtain ⟨dot, rfl⟩ := dot
    exact .inl ⟨⟨dot, rfl⟩, renamed_of_dotExtended notUp dot ext⟩
  · obtain ⟨stem, inside⟩ := stem_of_name filled
    refine .inr ⟨dot, ?_⟩
    rw [renamed_of_not_dotExtended notUp dot, if_neg extended]
    exact isName_extended stem extended (fun slash => whole (inside slash)) clean

/-- The word in front of the format changes every name, for its own dot is not in any extension. -/
theorem renamed_rendered_ne (notUp : name ≠ "..") (format : String) (last : Bool) :
    renamed ("rendered." ++ format) name last ≠ name := by
  by_cases dot : DotExtended name ∧ last = true
  · obtain ⟨dot, rfl⟩ := dot
    rw [renamed_of_dotExtended notUp dot]
    exact notUp.symm
  · rw [renamed_of_not_dotExtended notUp dot, if_neg (by simp)]
    rcases splitExtension_cases name with same | ⟨stem, old, -, clean, whole, cut⟩
    · rw [same]
      intro longer
      have length := congrArg (fun s => s.toList.length) longer
      simp at length
    · rw [cut, whole]
      intro extended
      have tails := congrArg String.toList extended
      simp only [String.toList_append, List.append_assoc, List.append_cancel_left_eq] at tails
      rw [← tails] at clean
      simp at clean

theorem withExtension_eq (split : splitTail (parts description) = (before ++ [name], behind))
    (notUp : name ≠ "..") (ext : String) : withExtension ext description =
      ofParts (before ++ [renamed ext name behind.isEmpty]) := by
  simp [withExtension, split, notUp]

theorem splitTail_withExtension
    (split : splitTail (parts description) = (before ++ [name], behind)) (notUp : name ≠ "..")
    (extended : ext ≠ "") (clean : '/' ∉ ext.toList) :
    splitTail (parts (withExtension ext description)) =
      (before ++ [renamed ext name behind.isEmpty], []) := by
  have pieces := before_of_splitTail split
  rw [withExtension_eq split notUp]
  rcases renamed_cases (whole_of_splitTail split) (filled_of_splitTail split) notUp extended clean
    behind.isEmpty with ⟨-, up⟩ | ⟨-, isName⟩
  · rw [up]
    exact splitTail_ofParts pieces (by decide) (by decide)
  · exact splitTail_ofParts pieces isName.whole isName.named

theorem exists_fileName?_besideDescription (named : fileName? description = some name)
    (long : 2 < (splitExtension name).1.toList.length) (clean : '/' ∉ format.toList) :
    ∃ ending, fileName? (besideDescription format description) =
      some ((splitExtension name).1 ++ ending) := by
  obtain ⟨notUp, before, behind, split⟩ := exists_splitTail named
  have plain : ¬ (DotExtended name ∧ behind.isEmpty = true) := by
    rintro ⟨dot, -⟩
    rw [((dotExtended_iff notUp).1 dot).2] at long
    exact absurd long (by decide)
  have inStem : '/' ∉ (splitExtension name).1.toList := fun slash =>
    whole_of_splitTail split ((stem_of_name (filled_of_splitTail split)).2 slash)
  have extended (ext : String) (clean : '/' ∉ ext.toList) :
      ∃ ending, fileName? (withExtension ext description) =
        some ((splitExtension name).1 ++ ending) := by
    obtain ⟨ending, inEnding, renamed⟩ : ∃ ending : String, '/' ∉ ending.toList ∧
        renamed ext name behind.isEmpty = (splitExtension name).1 ++ ending := by
      rw [renamed_of_not_dotExtended notUp plain]
      split
      · exact ⟨"", by simp, by simp⟩
      · exact ⟨"." ++ ext, by simp [clean], String.append_assoc ..⟩
    have isName : IsName ((splitExtension name).1 ++ ending) :=
      isName_of_length (by simp [inStem, inEnding]) (by simp; omega)
    refine ⟨ending, ?_⟩
    rw [withExtension_eq split notUp, renamed, fileName?_of_splitTail
      (splitTail_ofParts (before_of_splitTail split) isName.whole isName.named),
      if_neg isName.notUp]
  unfold besideDescription
  dsimp only
  split
  · exact extended _ (by simp [clean])
  · exact extended _ clean

theorem steps_besideDescription_ne (named : fileName? description = some name)
    (clean : '/' ∉ format.toList) :
    steps (besideDescription format description) ≠ steps description := by
  obtain ⟨notUp, before, behind, split⟩ := exists_splitTail named
  unfold besideDescription
  dsimp only
  split
  · have extended : "rendered." ++ format ≠ "" := by simp
    have plain : '/' ∉ ("rendered." ++ format).toList := by simp [clean]
    have image := splitTail_withExtension split notUp extended plain
    exact steps_ne_of_last split (getLast?_steps image) (renamed_rendered_ne notUp _ _)
  · next apart => exact apart

theorem besideDescription_eq_withExtension (filled : format ≠ "") (clean : '/' ∉ format.toList)
    (description : String) : ∃ ext, ext ≠ "" ∧ '/' ∉ ext.toList ∧
      besideDescription format description = withExtension ext description := by
  unfold besideDescription
  dsimp only
  split
  · exact ⟨"rendered." ++ format, by simp, by simp [clean], rfl⟩
  · exact ⟨format, filled, clean, rfl⟩

/-- With a format, the image has the parent of the description. It has a name there, too, unless the
last piece of the description is a dot with an extension. -/
theorem liesBeside_besideDescription_iff (named : fileName? description = some name)
    (filled : format ≠ "") (clean : '/' ∉ format.toList) :
    parent? (besideDescription format description) = parent? description ∧
      (LiesBeside (besideDescription format description) description ↔
        ¬ ∃ piece, (parts description).getLast? = some piece ∧ DotExtended piece) := by
  obtain ⟨notUp, before, behind, split⟩ := exists_splitTail named
  obtain ⟨ext, extended, plain, same⟩ := besideDescription_eq_withExtension filled clean description
  have image := splitTail_withExtension split notUp extended plain
  have parent : parent? (besideDescription format description) = parent? description := by
    rw [same, parent?_congr image split]
  have lastPiece : (∃ piece, (parts description).getLast? = some piece ∧ DotExtended piece) ↔
      DotExtended name ∧ behind.isEmpty = true := by
    constructor
    · rintro ⟨piece, found, dot⟩
      obtain ⟨rfl, ended⟩ := (getLast?_parts_iff split dot.named).1 found
      exact ⟨dot, ended⟩
    · rintro ⟨dot, ended⟩
      exact ⟨name, (getLast?_parts_iff split dot.named).2 ⟨rfl, ended⟩, dot⟩
  refine ⟨parent, ?_⟩
  rw [LiesBeside, and_iff_right parent, lastPiece, same, fileName?_of_splitTail image]
  rcases renamed_cases (whole_of_splitTail split) (filled_of_splitTail split) notUp extended plain
    behind.isEmpty with ⟨dot, up⟩ | ⟨plain, isName⟩
  · rw [if_pos up]
    exact iff_of_false (by simp) (not_not_intro dot)
  · rw [if_neg isName.notUp]
    exact iff_of_true rfl plain

end Render
end JarAtlas
