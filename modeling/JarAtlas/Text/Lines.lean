import JarAtlas.Text.Pieces

/-! Lines: a line feed ends one, and a carriage return right before it belongs to the end. -/
namespace JarAtlas
namespace Text

def dropReturn (line : List Char) : List Char :=
  if line.getLast? = some '\r' then line.dropLast else line

/-- All pieces but the last were ended by a line feed. The last is a line only when it is not
empty, and then it is taken as it stands. -/
def linesOfPieces : List (List Char) → List (List Char)
  | [] => []
  | [last] => if last = [] then [] else [last]
  | p :: q :: ps => dropReturn p :: linesOfPieces (q :: ps)

def lines (text : List Char) : List (List Char) := linesOfPieces (pieces '\n' text)

def unlines (ls : List String) : String := String.join (ls.map (· ++ "\n"))

@[simp] theorem dropReturn_append_return (line : List Char) :
    dropReturn (line ++ ['\r']) = line := by
  simp [dropReturn]

theorem dropReturn_eq_self {line : List Char} (h : line.getLast? ≠ some '\r') :
    dropReturn line = line := by
  simp [dropReturn, h]

theorem dropReturn_of_not_mem {line : List Char} (h : '\r' ∉ line) : dropReturn line = line :=
  dropReturn_eq_self fun last => h (List.mem_of_getLast? last)

theorem mem_of_mem_dropReturn {c : Char} {line : List Char} (h : c ∈ dropReturn line) :
    c ∈ line := by
  unfold dropReturn at h
  split at h
  · exact line.dropLast_subset h
  · exact h

theorem linesOfPieces_append (ps : List (List Char)) {qs : List (List Char)} (h : qs ≠ []) :
    linesOfPieces (ps ++ qs) = ps.map dropReturn ++ linesOfPieces qs := by
  induction ps with
  | nil => rfl
  | cons p ps ih =>
    have more : ps ++ qs ≠ [] := fun e => h (List.append_eq_nil_iff.1 e).2
    cases e : ps ++ qs with
    | nil => exact absurd e more
    | cons q rest => simp only [List.cons_append, List.map_cons, e, linesOfPieces, ← ih]

theorem lines_append_feed (cs ds : List Char) :
    lines (cs ++ '\n' :: ds) = (pieces '\n' cs).map dropReturn ++ lines ds := by
  rw [lines, pieces_append_cons, linesOfPieces_append _ (pieces_ne_nil _ _), lines]

theorem lines_append_cons {line : List Char} (h : '\n' ∉ line) (cs : List Char) :
    lines (line ++ '\n' :: cs) = dropReturn line :: lines cs := by
  rw [lines_append_feed, pieces_of_not_mem h]
  rfl

@[simp] theorem toList_unlines (ls : List String) :
    (unlines ls).toList = ls.flatMap fun l => l.toList ++ ['\n'] := by
  simp [unlines, String.toList_join, List.flatMap_map]

theorem pieces_unlines_append {ls : List String} (oneLine : ∀ l ∈ ls, '\n' ∉ l.toList)
    (cs : List Char) :
    pieces '\n' ((unlines ls).toList ++ cs) = ls.map String.toList ++ pieces '\n' cs := by
  induction ls with
  | nil => rfl
  | cons l ls ih =>
    have rest := ih fun k hk => oneLine k (List.mem_cons_of_mem _ hk)
    have front : (unlines (l :: ls)).toList ++ cs =
        l.toList ++ '\n' :: ((unlines ls).toList ++ cs) := by simp
    rw [front, pieces_append_cons, pieces_of_not_mem (oneLine l List.mem_cons_self), rest]
    rfl

theorem unlines_inj {ls ks : List String} (left : ∀ l ∈ ls, '\n' ∉ l.toList)
    (right : ∀ k ∈ ks, '\n' ∉ k.toList) (same : unlines ls = unlines ks) : ls = ks := by
  have cut := congrArg (fun s => pieces '\n' (String.toList s ++ [])) same
  simp only [pieces_unlines_append left, pieces_unlines_append right] at cut
  exact (List.map_inj_right fun _ _ => String.toList_inj.1).1 (List.append_cancel_right cut)

theorem lines_unlines_append (ls : List String) (cs : List Char) :
    lines ((unlines ls).toList ++ cs) =
      (ls.flatMap fun l => (pieces '\n' l.toList).map dropReturn) ++ lines cs := by
  induction ls with
  | nil => rfl
  | cons l ls ih =>
    have front : (unlines (l :: ls)).toList ++ cs =
        l.toList ++ '\n' :: ((unlines ls).toList ++ cs) := by simp
    rw [front, lines_append_feed, ih, List.flatMap_cons, List.append_assoc]

/-- Texts that have no line end in them come back as the lines that they were written as. -/
theorem lines_unlines {ls : List String} (clean : ∀ l ∈ ls, '\n' ∉ l.toList ∧ '\r' ∉ l.toList) :
    lines (unlines ls).toList = ls.map String.toList := by
  induction ls with
  | nil => rfl
  | cons l ls ih =>
    obtain ⟨noFeed, noReturn⟩ := clean l List.mem_cons_self
    have front : (unlines (l :: ls)).toList = l.toList ++ '\n' :: (unlines ls).toList := by simp
    rw [front, lines_append_cons noFeed, dropReturn_of_not_mem noReturn,
      ih fun k hk => clean k (List.mem_cons_of_mem _ hk), List.map_cons]

theorem not_mem_of_mem_linesOfPieces {l : List Char} {ps : List (List Char)}
    (clean : ∀ p ∈ ps, '\n' ∉ p) (h : l ∈ linesOfPieces ps) : '\n' ∉ l := by
  induction ps with
  | nil => simp [linesOfPieces] at h
  | cons p ps ih =>
    cases ps with
    | nil =>
      simp only [linesOfPieces] at h
      split at h <;> simp_all
    | cons q ps =>
      rcases List.mem_cons.1 h with rfl | h
      · exact fun k => clean p (by simp) (mem_of_mem_dropReturn k)
      · exact ih (fun r hr => clean r (List.mem_cons_of_mem _ hr)) h

theorem not_mem_of_mem_lines {l cs : List Char} (h : l ∈ lines cs) : '\n' ∉ l :=
  not_mem_of_mem_linesOfPieces (fun _ hp => not_mem_of_mem_pieces hp) h

end Text
end JarAtlas
