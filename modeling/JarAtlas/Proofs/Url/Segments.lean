import JarAtlas.Proofs.Path.Descent
import JarAtlas.Text.Pieces
import JarAtlas.Url.Segments
import Mathlib.Data.List.Basic

/-! Walks along the segments of a path: how they end, when they stay below where they began, and
when they keep every segment as it is. None of the paths here is one of a file on a disk. -/
namespace JarAtlas
namespace Url

open Text

variable {special : Bool} {cs s : List Char} {done base extra : List String}
  {ss : List (List Char)}

theorem cutAtSlashes_eq_pieces (plain : '\\' ∉ cs) :
    cutAtSlashes special cs = pieces '/' cs := by
  induction cs with
  | nil => rfl
  | cons c cs ih =>
    rw [List.mem_cons, not_or] at plain
    have slash : isSlash special c = decide (c = '/') := by
      simp [isSlash, Ne.symm plain.1, Bool.beq_eq_decide_eq]
    cases e : pieces '/' cs <;>
      simp only [cutAtSlashes, pieces, slash, decide_eq_true_eq, ih plain.2, e]

theorem cutAtSlashes_append_slash (special : Bool) (cs : List Char) :
    cutAtSlashes special (cs ++ ['/']) = cutAtSlashes special cs ++ [[]] := by
  induction cs with
  | nil => cases special <;> rfl
  | cons c cs ih =>
    simp only [List.cons_append, cutAtSlashes, ih]
    split
    · rfl
    · cases e : cutAtSlashes special cs with
      | nil => exact absurd e (cutAtSlashes_ne_nil special cs)
      | cons p ps => rfl

def afterSegment (done : List String) (s : List Char) : List String :=
  if isUp s then done.dropLast
  else if isStay s then done
  else done ++ [String.ofList (percentEncode inPath s)]

theorem walkSegments_cons (filled : ss ≠ []) (done : List String) (s : List Char) :
    walkSegments false done (s :: ss) = walkSegments false (afterSegment done s) ss := by
  have up : goUp false done = done.dropLast := by simp [goUp]
  have kept : keptSegment false done s = String.ofList (percentEncode inPath s) := by
    simp [keptSegment]
  cases ss with
  | nil => exact absurd rfl filled
  | cons r ss =>
    rw [walkSegments, up, kept, afterSegment]
    · split
      · rfl
      · split <;> rfl
    · simp

/-- The last segment is there even if it is a step of dots, though it is empty then. -/
theorem walkSegments_last (done : List String) (s : List Char) :
    walkSegments false done [s] =
      afterSegment done s ++ if isUp s ∨ isStay s then [""] else [] := by
  have up : goUp false done = done.dropLast := by simp [goUp]
  have kept : keptSegment false done s = String.ofList (percentEncode inPath s) := by
    simp [keptSegment]
  rw [walkSegments, up, kept, afterSegment]
  by_cases rises : isUp s = true
  · simp [rises]
  · by_cases stays : isStay s = true <;> simp [rises, stays]

theorem getLast?_walkSegments (last : ss.getLast? = some []) (done : List String) :
    (walkSegments false done ss).getLast? = some "" := by
  induction ss generalizing done with
  | nil => cases last
  | cons s ss ih =>
    cases ss with
    | nil =>
      obtain rfl : s = [] := by simpa using last
      have kept : walkSegments false done [[]] = done ++ [""] := rfl
      rw [kept, List.getLast?_concat]
    | cons r ss =>
      rw [List.getLast?_cons_cons] at last
      rw [walkSegments_cons (by simp)]
      exact ih last _

theorem isStay_of_isUp (up : isUp s = true) : isStay s = false := by
  simp_all [isUp, isStay]

theorem afterSegment_descends (base : List String)
    (below : Path.descends isUp isStay extra.length (s :: ss) = true) :
    ∃ more, afterSegment (base ++ extra) s = base ++ more ∧
      Path.descends isUp isStay more.length ss = true := by
  unfold afterSegment
  by_cases up : isUp s = true
  · obtain ⟨deep, rest⟩ : extra ≠ [] ∧
        Path.descends isUp isStay (extra.length - 1) ss = true := by
      simpa [Path.descends, up, isStay_of_isUp up] using below
    refine ⟨extra.dropLast, ?_, by rwa [List.length_dropLast]⟩
    rw [if_pos up, List.dropLast_append_of_ne_nil deep]
  · by_cases stay : isStay s = true
    · refine ⟨extra, by rw [if_neg up, if_pos stay], ?_⟩
      simpa [Path.descends, stay] using below
    · refine ⟨extra ++ [.ofList (percentEncode inPath s)], ?_, ?_⟩
      · rw [if_neg up, if_neg stay, List.append_assoc]
      · simpa [Path.descends, stay, up] using below

/-- A walk that does not go above where it began ends below it. -/
theorem walkSegments_descends (base extra : List String)
    (below : Path.descends isUp isStay extra.length ss = true) (filled : ss ≠ []) :
    ∃ m more, walkSegments false (base ++ extra) ss = base ++ m :: more := by
  induction ss generalizing extra with
  | nil => exact absurd rfl filled
  | cons s ss ih =>
    obtain ⟨names, after, rest⟩ := afterSegment_descends base below
    cases ss with
    | cons r ss =>
      rw [walkSegments_cons (by simp), after]
      exact ih names rest (by simp)
    | nil =>
      rw [walkSegments_last]
      by_cases dots : isUp s ∨ isStay s
      · rw [if_pos dots, after, List.append_assoc]
        cases names with
        | nil => exact ⟨"", [], rfl⟩
        | cons m more => exact ⟨m, more ++ [""], rfl⟩
      · obtain ⟨up, stay⟩ := not_or.1 dots
        rw [if_neg dots, afterSegment, if_neg up, if_neg stay, List.append_nil, List.append_assoc]
        cases extra with
        | nil => exact ⟨_, [], rfl⟩
        | cons m more => exact ⟨m, more ++ [_], rfl⟩

theorem walkSegments_eq_append (moves : ∀ s ∈ ss, isUp s = false ∧ isStay s = false)
    (done : List String) :
    walkSegments false done ss =
      done ++ ss.map fun s => String.ofList (percentEncode inPath s) := by
  induction ss generalizing done with
  | nil => simp [walkSegments]
  | cons s ss ih =>
    obtain ⟨⟨notUp, moving⟩, rest⟩ := List.forall_mem_cons.1 moves
    have after : afterSegment done s = done ++ [String.ofList (percentEncode inPath s)] := by
      simp [afterSegment, notUp, moving]
    cases ss with
    | nil => simp [walkSegments_last, after, notUp, moving]
    | cons r ss =>
      rw [walkSegments_cons (by simp), ih rest, after, List.append_assoc]
      rfl

theorem plainDots_eq_self (plain : '%' ∉ s) : plainDots s = s := by
  induction s with
  | nil => rfl
  | cons c s ih =>
    rw [List.mem_cons, not_or] at plain
    rw [plainDots, ih plain.2]
    · rintro _ rfl
      exact absurd rfl plain.1
    · rintro _ rfl
      exact absurd rfl plain.1

/-- A segment without percent signs is a step of dots only if it is one or two dots. -/
theorem moves_of_plain (plain : '%' ∉ s) (one : s ≠ ['.']) (two : s ≠ ['.', '.']) :
    isUp s = false ∧ isStay s = false := by
  simp [isUp, isStay, plainDots_eq_self plain, one, two]

end Url
end JarAtlas
