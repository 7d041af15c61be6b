import JarAtlas.Proofs.Manifest.Description
import JarAtlas.Proofs.Manifest.Rendering

/-! What does not count in the text of a manifest: whether its lines end with a carriage return, a
byte order mark in front of it, and all that comes behind the first empty line. -/
namespace JarAtlas

namespace Text

/-- Some line feeds have got a carriage return in front of them, whichever they are. -/
inductive AddsReturns : List Char → List Char → Prop where
  | nil : AddsReturns [] []
  | keep (c : Char) {cs ds : List Char} : AddsReturns cs ds → AddsReturns (c :: cs) (c :: ds)
  | add {cs ds : List Char} : AddsReturns cs ds → AddsReturns ('\n' :: cs) ('\r' :: '\n' :: ds)

/-- A carriage return in front of a line feed is no part of a line. The induction goes along the
text with the line that has not ended yet in front. -/
theorem AddsReturns.lines_append {cs ds : List Char} (h : AddsReturns cs ds) (plain : '\r' ∉ cs)
    {line : List Char} (oneLine : '\n' ∉ line) (bare : '\r' ∉ line) :
    lines (line ++ ds) = lines (line ++ cs) := by
  induction h generalizing line with
  | nil => rfl
  | @keep c cs ds _ ih =>
    rw [List.mem_cons, not_or] at plain
    by_cases feed : c = '\n'
    · have rest : lines ([] ++ ds) = lines ([] ++ cs) := ih plain.2 (by simp) (by simp)
      rw [feed, lines_append_cons oneLine, lines_append_cons oneLine, ← List.nil_append ds, rest,
        List.nil_append]
    · have longer : lines ((line ++ [c]) ++ ds) = lines ((line ++ [c]) ++ cs) :=
        ih plain.2 (by simp [oneLine, Ne.symm feed]) (by simp [bare, plain.1])
      simpa using longer
  | @add cs ds _ ih =>
    rw [List.mem_cons, not_or] at plain
    have rest : lines ([] ++ ds) = lines ([] ++ cs) := ih plain.2 (by simp) (by simp)
    have ended : line ++ '\r' :: '\n' :: ds = (line ++ ['\r']) ++ '\n' :: ds := by simp
    rw [ended, lines_append_cons (by simp [oneLine]), lines_append_cons oneLine,
      ← List.nil_append ds, rest, List.nil_append, dropReturn_append_return,
      dropReturn_of_not_mem bare]

theorem AddsReturns.lines_eq {cs ds : List Char} (h : AddsReturns cs ds) (plain : '\r' ∉ cs) :
    lines ds = lines cs := by
  simpa using h.lines_append plain List.not_mem_nil List.not_mem_nil

end Text

namespace Manifest

open Text

variable {cs ds : List Char}

theorem parse_congr {text other : String} (same : sectionLines text = sectionLines other) :
    parse text = parse other := by
  have alike : mainSection text = mainSection other := congrArg (List.map Line.ofChars) same
  rw [parse, parse, alike]

theorem dropMark_cons (c : Char) (cs : List Char) :
    dropMark (c :: cs) = if c = '\uFEFF' then cs else c :: cs := by
  split
  · next mark =>
    rw [mark]
    rfl
  · next mark => exact dropMark_eq_self (by simpa using mark)

theorem mem_of_mem_dropMark {c : Char} (h : c ∈ dropMark cs) : c ∈ cs := by
  unfold dropMark at h
  split at h
  · exact List.mem_cons_of_mem _ h
  · exact h

theorem addsReturns_dropMark (h : AddsReturns cs ds) : AddsReturns (dropMark cs) (dropMark ds) := by
  cases h with
  | nil => exact .nil
  | keep c h =>
    rw [dropMark_cons, dropMark_cons]
    split
    · exact h
    · exact .keep c h
  | add h => exact .add h

theorem dropMark_append_feed (cs ds : List Char) :
    dropMark (cs ++ '\n' :: ds) = dropMark cs ++ '\n' :: ds := by
  cases cs with
  | nil => rfl
  | cons c cs =>
    rw [List.cons_append, dropMark_cons, dropMark_cons]
    split <;> rfl

theorem takeWhile_append_empty (ls ms : List (List Char)) :
    ((ls ++ [] :: ms).takeWhile fun l => !l.isEmpty) = ls.takeWhile fun l => !l.isEmpty := by
  induction ls with
  | nil => rfl
  | cons l ls ih => simp [List.takeWhile_cons, ih]

theorem sectionLines_append_empty (text rest : String) :
    sectionLines (text ++ "\n\n" ++ rest) =
      ((pieces '\n' (dropMark text.toList)).map dropReturn).takeWhile fun l => !l.isEmpty := by
  have whole : (text ++ "\n\n" ++ rest).toList = text.toList ++ '\n' :: '\n' :: rest.toList := by
    simp
  have empty : lines ([] ++ '\n' :: rest.toList) = [] :: lines rest.toList :=
    lines_append_cons List.not_mem_nil _
  rw [List.nil_append] at empty
  rw [sectionLines, whole, dropMark_append_feed, lines_append_feed, empty, takeWhile_append_empty]

/-- A last line that is empty is none, and so it may as well end the section. -/
theorem takeWhile_lines (plain : '\r' ∉ cs) :
    ((lines cs).takeWhile fun l => !l.isEmpty) =
      ((pieces '\n' cs).map dropReturn).takeWhile fun l => !l.isEmpty := by
  obtain ⟨ps, last, cut⟩ : ∃ ps last, pieces '\n' cs = ps ++ [last] :=
    ⟨_, _, (List.dropLast_concat_getLast (pieces_ne_nil '\n' cs)).symm⟩
  have bare : '\r' ∉ last := fun inside =>
    plain (mem_of_mem_pieces (cut ▸ List.mem_append_right ps List.mem_cons_self) inside)
  rw [lines, cut, linesOfPieces_append ps (by simp), List.map_append, List.map_singleton,
    dropReturn_of_not_mem bare, linesOfPieces]
  split
  · next empty => rw [empty, takeWhile_append_empty, List.append_nil]
  · rfl

/-- In a text without carriage returns, any line feeds may get one in front of them. A mark may be
put in front of a text that has none. An empty line and any text may follow a text without carriage
returns, and what follows an empty line never counts. -/
theorem parse_overlooks :
    (∀ text other : String, '\r' ∉ text.toList → AddsReturns text.toList other.toList →
      parse other = parse text) ∧
    (∀ text : String, text.toList.head? ≠ some '\uFEFF' → parse ("\uFEFF" ++ text) = parse text) ∧
    (∀ text rest : String, '\r' ∉ text.toList → parse (text ++ "\n\n" ++ rest) = parse text) ∧
    ∀ text rest other : String,
      parse (text ++ "\n\n" ++ rest) = parse (text ++ "\n\n" ++ other) := by
  refine ⟨fun text other plain adds => parse_congr ?_, fun text unmarked => parse_congr ?_,
    fun text rest plain => parse_congr ?_, fun text rest other => parse_congr ?_⟩
  · have noReturn : '\r' ∉ dropMark text.toList := fun h => plain (mem_of_mem_dropMark h)
    rw [sectionLines, sectionLines, (addsReturns_dropMark adds).lines_eq noReturn]
  · have marked : ("\uFEFF" ++ text).toList = '\uFEFF' :: text.toList := by simp
    rw [sectionLines, sectionLines, marked, dropMark_eq_self unmarked, dropMark]
  · have noReturn : '\r' ∉ dropMark text.toList := fun h => plain (mem_of_mem_dropMark h)
    rw [sectionLines_append_empty, sectionLines, takeWhile_lines noReturn]
  · rw [sectionLines_append_empty, sectionLines_append_empty]

/-- Two lines of which only the first gets a carriage return, the same lines behind a mark, and an
empty line with what looks like an attribute behind it. -/
theorem parse_overlooks_second_section :
    parse "A: 1\r\n 2\n" = ⟨[⟨"A", "12"⟩]⟩ ∧ parse "\uFEFFA: 1\n 2\n" = ⟨[⟨"A", "12"⟩]⟩ ∧
      parse "A: 1\n 2\n\n\nB: 3" = ⟨[⟨"A", "12"⟩]⟩ ∧
      parse "A: 1\n 2\n\n\nB: 3" = parse "A: 1\n 2\n\n\n" := by
  have read : parse "A: 1\n 2\n" = ⟨[⟨"A", "12"⟩]⟩ := by decide
  have adds : AddsReturns "A: 1\n 2\n".toList "A: 1\r\n 2\n".toList :=
    .keep _ (.keep _ (.keep _ (.keep _ (.add (.keep _ (.keep _ (.keep _ .nil)))))))
  obtain ⟨returns, mark, behind, later⟩ := parse_overlooks
  rw [← read]
  exact ⟨returns _ _ (by decide) adds, mark "A: 1\n 2\n" (by decide), behind "A: 1\n 2\n" "B: 3" (by decide),
    later "A: 1\n 2\n" "B: 3" ""⟩

end Manifest
end JarAtlas
