import JarAtlas.Path
import Mathlib.Data.List.Basic

/-! Paths and their pieces: how the last name ends, where a path starts, and what is above it. -/
namespace JarAtlas
namespace Path

open Text

/-- A suffix without slashes makes the last name longer and leaves the others alone. -/
theorem exists_parts_append (base : String) :
    ∃ ps name, ∀ suffix : String, '/' ∉ suffix.toList →
      parts (base ++ suffix) = ps ++ [name ++ suffix] := by
  obtain ⟨ps, p, h⟩ := exists_pieces_append '/' base.toList
  refine ⟨ps.map .ofList, .ofList p, fun suffix clean => ?_⟩
  rw [parts, split, String.toList_append, h suffix.toList clean]
  simp

theorem rooted_append {path : String} (named : path ≠ "") (suffix : String) :
    rooted (path ++ suffix) = rooted path := by
  have first : path.toList ≠ [] := by simpa using named
  rw [rooted, rooted, String.toList_append]
  cases h : path.toList with
  | nil => exact absurd h first
  | cons c cs => rfl

theorem append_append (dir : String) {path : String} (named : path ≠ "") (suffix : String) :
    append dir (path ++ suffix) = append dir path ++ suffix := by
  unfold append
  rw [rooted_append named]
  split
  · rfl
  · split
    · exact (String.append_assoc ..).symm
    · simp only [String.append_assoc]

theorem slash_not_mem_of_mem_parts {path p : String} (h : p ∈ parts path) : '/' ∉ p.toList := by
  obtain ⟨cs, piece, rfl⟩ := List.mem_map.1 h
  simpa using not_mem_of_mem_pieces piece

theorem parts_ofParts {ps : List String} (filled : ps ≠ [])
    (clean : ∀ p ∈ ps, '/' ∉ p.toList) : parts (ofParts ps) = ps := by
  have each : ∀ p ∈ ps.map String.toList, '/' ∉ p := by simpa using clean
  rw [parts, ofParts, split, join, String.toList_ofList]
  have slash : "/".toList = ['/'] := rfl
  rw [slash, pieces_joinChars (by simpa using filled) each]
  simp

/-- A path starts at the root if its first piece is empty and not its only one. -/
theorem rooted_iff {path : String} : rooted path = true ↔ ∃ p ps, parts path = "" :: p :: ps := by
  unfold rooted parts split
  cases path.toList with
  | nil => simp [pieces]
  | cons c cs =>
    simp only [pieces]
    by_cases slash : c = '/'
    · cases rest : pieces '/' cs with
      | nil => exact absurd rest (pieces_ne_nil '/' cs)
      | cons p ps => simp [slash]
    · cases rest : pieces '/' cs with
      | nil => exact absurd rest (pieces_ne_nil '/' cs)
      | cons p ps => simp [slash]

theorem splitTail_isPrefix (ps : List String) : (splitTail ps).1 <+: ps := by
  have front := List.dropWhile_suffix (p := idle) (l := ps.reverse)
  rw [← List.reverse_prefix, List.reverse_reverse] at front
  exact front

theorem eq_false_of_getLast? {drops : String → Bool} {ps : List String} {p : String}
    (h : (ps.reverse.dropWhile drops).reverse.getLast? = some p) : drops p = false := by
  have kept := List.head?_dropWhile_not drops ps.reverse
  rw [List.getLast?_reverse] at h
  rw [h] at kept
  simpa using kept

theorem not_rooted_of_dot {path : String} (dot : (parts path).head? = some ".") :
    rooted path = false := by
  by_contra root
  obtain ⟨q, qs, split⟩ := rooted_iff.1 (by simpa using root)
  rw [split] at dot
  simp at dot

/-- The first pieces of a path, up to one that names a step, start where the path starts. -/
theorem ofParts_of_front {path : String} {ps : List String} (front : ps <+: parts path)
    (filled : ps ≠ []) (last : ∀ p, ps.getLast? = some p → idle p = false) :
    parts (ofParts ps) = ps ∧ rooted (ofParts ps) = rooted path := by
  have pieces : parts (ofParts ps) = ps :=
    parts_ofParts filled fun p hp => slash_not_mem_of_mem_parts (front.subset hp)
  refine ⟨pieces, ?_⟩
  rw [Bool.eq_iff_iff, rooted_iff, rooted_iff, pieces]
  constructor
  · rintro ⟨p, qs, rfl⟩
    obtain ⟨rest, all⟩ := front
    exact ⟨p, qs ++ rest, all.symm⟩
  · rintro ⟨p, qs, all⟩
    rw [all] at front
    -- The empty piece at the root is idle, so that it cannot be the last.
    cases ps with
    | nil => exact absurd rfl filled
    | cons a as =>
      obtain ⟨rfl, -⟩ := List.cons_prefix_cons.1 front
      cases as with
      | nil => exact absurd (last "" rfl) (by decide)
      | cons b bs => exact ⟨b, bs, rfl⟩

/-- The path of the directory above starts where the path starts, and either stays there or goes
through the first pieces of the path. -/
theorem parent?_eq_some {path above : String} (h : parent? path = some above) :
    rooted above = rooted path ∧
      ((∀ p ∈ parts above, idle p = true) ∨ parts above <+: parts path) := by
  unfold parent? at h
  split at h
  · split at h
    · next dot =>
      obtain rfl : "" = above := by simpa using h
      exact ⟨(not_rooted_of_dot dot).symm, .inl (by decide)⟩
    · cases h
  · dsimp only at h
    split at h
    · split at h
      · next root =>
        obtain rfl : "/" = above := by simpa using h
        exact ⟨root.symm, .inl (by decide)⟩
      · next notRoot =>
        have start : rooted path = false := by simpa using notRoot
        split at h
        · obtain rfl : "." = above := by simpa using h
          exact ⟨start.symm, .inl (by decide)⟩
        · obtain rfl : "" = above := by simpa using h
          exact ⟨start.symm, .inl (by decide)⟩
    · next filled =>
      obtain rfl := Option.some.inj h
      have front : (splitTail (splitTail (parts path)).1.dropLast).1 <+: parts path :=
        ((splitTail_isPrefix _).trans (List.dropLast_prefix _)).trans (splitTail_isPrefix _)
      obtain ⟨pieces, start⟩ := ofParts_of_front front filled fun p => eq_false_of_getLast?
      refine ⟨start, .inr ?_⟩
      rw [pieces]
      exact front

end Path
end JarAtlas
