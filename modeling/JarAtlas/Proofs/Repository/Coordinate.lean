import JarAtlas.Path
import JarAtlas.Proofs.Repository.CoordinateText
import Mathlib.Data.List.Basic

/-! The place of an artifact in a repository: how its pieces tell the coordinate, when it starts at
the root, and the coordinates that have the shape of package names. -/
namespace JarAtlas
namespace Coordinate

open Text

variable {c d : Coordinate} {text : String}

theorem toList_repositoryPath (c : Coordinate) : c.repositoryPath.toList =
    replace '.' ['/'] c.group.toList ++ '/' :: (c.artifact.toList ++ '/' :: (c.version.toList ++
      '/' :: c.fileName.toList)) := by
  simp [repositoryPath]

theorem pieces_replace {old new : Char} {cs : List Char} (fresh : new ∉ cs) :
    pieces new (replace old [new] cs) = pieces old cs := by
  induction cs with
  | nil => rfl
  | cons c cs ih =>
    rw [List.mem_cons, not_or] at fresh
    have rest := ih fresh.2
    rw [replace] at rest ⊢
    by_cases same : c = old
    · simp [pieces, same, rest]
    · simp [pieces, same, Ne.symm fresh.1, rest]

/-- No part of the coordinate has a slash in it. -/
structure Slashless (c : Coordinate) : Prop where
  group : '/' ∉ c.group.toList
  artifact : '/' ∉ c.artifact.toList
  version : '/' ∉ c.version.toList

theorem Slashless.fileName (plain : Slashless c) : '/' ∉ c.fileName.toList := by
  simp [Coordinate.fileName, stem, plain.artifact, plain.version]

theorem hyphen_mem_fileName (c : Coordinate) : '-' ∈ c.fileName.toList := by
  simp [fileName, stem]

theorem pieces_repositoryPath (plain : Slashless c) : pieces '/' c.repositoryPath.toList =
    pieces '.' c.group.toList ++ [c.artifact.toList, c.version.toList, c.fileName.toList] := by
  rw [toList_repositoryPath, pieces_append_cons, pieces_replace plain.group, pieces_append_cons,
    pieces_of_not_mem plain.artifact, pieces_append_cons, pieces_of_not_mem plain.version,
    pieces_of_not_mem plain.fileName]
  rfl

/-- Without slashes in their parts, coordinates have places of their own. -/
theorem eq_of_repositoryPath_eq (c_plain : Slashless c) (d_plain : Slashless d)
    (same : c.repositoryPath = d.repositoryPath) : c = d := by
  have cut := congrArg (fun s => pieces '/' s.toList) same
  simp only [pieces_repositoryPath c_plain, pieces_repositoryPath d_plain] at cut
  obtain ⟨groups, rest⟩ := List.append_inj' cut rfl
  obtain ⟨artifact, version, -⟩ : c.artifact.toList = d.artifact.toList ∧
      c.version.toList = d.version.toList ∧ c.fileName.toList = d.fileName.toList := by
    simpa using rest
  have group : c.group = d.group := by
    rw [← String.toList_inj, ← joinChars_pieces '.' c.group.toList, groups, joinChars_pieces]
  rw [String.toList_inj] at artifact version
  cases c
  cases d
  simp_all

theorem rooted_repositoryPath_iff (filled : c.group ≠ "") :
    Path.rooted c.repositoryPath = true ↔
      c.group.toList.head? = some '.' ∨ c.group.toList.head? = some '/' := by
  rw [Path.rooted, toList_repositoryPath, replace]
  cases group : c.group.toList with
  | nil => exact absurd (by simpa using group) filled
  | cons x xs => by_cases dot : x = '.' <;> simp [dot]

theorem colon_not_mem_repositoryPath (h : parse text = .ok c) :
    ':' ∉ c.repositoryPath.toList := by
  obtain ⟨-, group, artifact, version⟩ := parse_eq_ok h
  have replaced : ':' ∉ replace '.' ['/'] c.group.toList := by
    intro colon
    obtain ⟨x, hx, h⟩ := List.mem_flatMap.1 colon
    split at h
    · simp at h
    · obtain rfl := List.mem_singleton.1 h
      exact group hx
  simp [toList_repositoryPath, fileName, stem, replaced, artifact, version]

def isWordChar (x : Char) : Bool := x.isAlphanum || x == '_' || x == '-'

def isNameChar (x : Char) : Bool := isWordChar x || x == '.' || x == '+'

/-- The name of an artifact or of a version, which is no step of dots. -/
structure IsPlain (name : String) : Prop where
  filled : name ≠ ""
  chars : ∀ x ∈ name.toList, isNameChar x = true
  notOne : name ≠ "."
  notTwo : name ≠ ".."

/-- The group is made of words between dots, and the other parts are plain. -/
structure MavenShaped (c : Coordinate) : Prop where
  group : ∀ word ∈ pieces '.' c.group.toList, word ≠ [] ∧ ∀ x ∈ word, isWordChar x = true
  artifact : IsPlain c.artifact
  version : IsPlain c.version

namespace MavenShaped

theorem group_chars (shaped : MavenShaped c) {x : Char} (hx : x ∈ c.group.toList) :
    isWordChar x = true ∨ x = '.' := by
  rw [← joinChars_pieces '.' c.group.toList] at hx
  rcases mem_joinChars hx with dot | ⟨word, hword, inside⟩
  · exact .inr (List.mem_singleton.1 dot)
  · exact .inl ((shaped.group word hword).2 x inside)

theorem slashless (shaped : MavenShaped c) : Slashless c where
  group slash := by
    rcases shaped.group_chars slash with word | dot
    · exact absurd word (by decide)
    · exact absurd dot (by decide)
  artifact slash := absurd (shaped.artifact.chars _ slash) (by decide)
  version slash := absurd (shaped.version.chars _ slash) (by decide)

theorem group_ne_empty (shaped : MavenShaped c) : c.group ≠ "" := by
  intro empty
  exact (shaped.group [] (by simp [empty, pieces])).1 rfl

theorem relative (shaped : MavenShaped c) : Path.rooted c.repositoryPath = false := by
  by_contra root
  rw [Bool.not_eq_false, rooted_repositoryPath_iff shaped.group_ne_empty] at root
  rcases root with dot | slash
  · obtain ⟨rest, whole⟩ := List.head?_eq_some_iff.1 dot
    exact (shaped.group [] (by simp [whole, pieces])).1 rfl
  · exact shaped.slashless.group (List.mem_of_head? slash)

theorem moves (shaped : MavenShaped c) :
    ∀ p ∈ pieces '/' c.repositoryPath.toList, p ≠ ['.'] ∧ p ≠ ['.', '.'] := by
  have part {name : String} (plain : IsPlain name) :
      name.toList ≠ ['.'] ∧ name.toList ≠ ['.', '.'] :=
    ⟨fun one => plain.notOne (String.toList_inj.1 one),
      fun two => plain.notTwo (String.toList_inj.1 two)⟩
  rw [pieces_repositoryPath shaped.slashless]
  simp only [List.mem_append, List.mem_cons, List.not_mem_nil, or_false]
  rintro p (word | rfl | rfl | rfl)
  · have plain (dot : '.' ∈ p) : False := not_mem_of_mem_pieces word dot
    exact ⟨fun one => plain (by simp [one]), fun two => plain (by simp [two])⟩
  · exact part shaped.artifact
  · exact part shaped.version
  · have hyphen := c.hyphen_mem_fileName
    exact ⟨fun one => by simp [one] at hyphen, fun two => by simp [two] at hyphen⟩

end MavenShaped
end Coordinate
end JarAtlas
