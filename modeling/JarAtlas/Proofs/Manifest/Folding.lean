import JarAtlas.Proofs.Manifest.Rendering
import JarAtlas.Proofs.Text.Utf8Pieces
import Mathlib.Data.List.Basic
import Mathlib.Data.List.TakeWhile

/-! Values that are folded by a count of octets, so that a fold may cut a character in two. The
octets of a manifest are read as a text before its lines are joined, and therefore each piece of a
value is read by itself. -/
namespace JarAtlas
namespace Manifest

open Text

/-- An attribute with the octets of its value in pieces, a piece a line. -/
structure Cut extends Attribute where
  first : Bytes
  more : List Bytes
  flatten_pieces : (first :: more).flatten = Utf8.encode value

namespace Cut

def pieces (c : Cut) : List Bytes := c.first :: c.more

def bytes (c : Cut) : Bytes :=
  Utf8.encode (c.name ++ ": ") ++
    (c.first ++ c.more.flatMap fun piece => Utf8.encode "\r\n " ++ piece)

/-- No fold is within a character. -/
def BetweenCharacters (c : Cut) : Prop := ∀ piece ∈ c.pieces, ∃ text, piece = Utf8.encode text

def read (c : Cut) : Folded :=
  ⟨c.name, Utf8.decodeLossy c.first, c.more.map Utf8.decodeLossy⟩

end Cut

def sectionBytes (cuts : List Cut) : Bytes := cuts.flatMap fun c => c.bytes ++ Utf8.encode "\r\n"

/-- The main section is written at the front: its last line may lack its end, and an empty line
and any octets may follow. -/
inductive Written (cuts : List Cut) : Bytes → Prop where
  | unended {content : Bytes} : content ++ Utf8.encode "\r\n" = sectionBytes cuts →
      Written cuts content
  | ended : Written cuts (sectionBytes cuts)
  | sections (rest : Bytes) :
      Written cuts (sectionBytes cuts ++ (Utf8.encode "\r\n" ++ rest))

variable {cuts : List Cut}

theorem value_read (c : Cut) :
    c.read.attribute.value = String.join (c.pieces.map Utf8.decodeLossy) := by
  rw [Cut.pieces, List.map_cons, String.join_cons]
  rfl

/-- A value comes back if and only if no fold is within a character. -/
theorem value_read_eq_iff (c : Cut) :
    c.read.attribute.value = c.value ↔ c.BetweenCharacters := by
  rw [value_read]
  exact Utf8.join_decodeLossy_eq_iff c.flatten_pieces

theorem feed_mem_of_mem_encode {s : String} (h : 0x0A ∈ Utf8.encode s) : '\n' ∈ s.toList := by
  obtain ⟨front, rest, cut⟩ := List.append_of_mem h
  have line : Utf8.decodeLossy (0x0A :: rest) = "\n" ++ Utf8.decodeLossy rest :=
    Utf8.decodeLossy_encode_append "\n" rest
  rw [← Utf8.decodeLossy_encode s, cut, Utf8.decodeLossy_append_ascii (by decide), line]
  simp

theorem clean_read {c : Cut} (clean : c.toAttribute.Clean) : c.read.attribute.Clean := by
  refine ⟨clean.trimmed, clean.noColon, clean.nameOnOneLine, ?_⟩
  rw [value_read, String.toList_join, List.mem_flatMap]
  rintro ⟨text, mem, feed⟩
  obtain ⟨piece, here, rfl⟩ := List.mem_map.1 mem
  refine Utf8.not_mem_decodeLossy (fun inside => ?_) feed
  refine clean.valueOnOneLine (feed_mem_of_mem_encode ?_)
  rw [← c.flatten_pieces]
  exact List.mem_flatten_of_mem here inside

theorem wellFormed_read (shape : (⟨cuts.map Cut.toAttribute⟩ : Manifest).WellFormed) :
    (⟨cuts.map fun c => c.read.attribute⟩ : Manifest).WellFormed := by
  constructor
  · have names : (cuts.map fun c => c.read.attribute).map Attribute.name =
        (cuts.map Cut.toAttribute).map Attribute.name := by
      simp only [List.map_map]
      rfl
    rw [distinct_iff_names, names, ← distinct_iff_names]
    exact shape.distinct
  · intro a mem
    obtain ⟨c, here, rfl⟩ := List.mem_map.1 mem
    exact clean_read (shape.clean _ (List.mem_map_of_mem here))

/-- Line ends are ASCII, so that the octets between them are read as if they stood alone. -/
theorem decodeLossy_folds (front : Bytes) (more : List Bytes) (rest : Bytes) :
    (Utf8.decodeLossy (front ++ ((more.flatMap fun piece => Utf8.encode "\r\n " ++ piece) ++
      (Utf8.encode "\r\n" ++ rest)))).toList =
    (Utf8.decodeLossy front).toList ++ ('\r' :: '\n' ::
      (written (more.map fun piece => .withReturn (' ' :: (Utf8.decodeLossy piece).toList)) ++
        (Utf8.decodeLossy rest).toList)) := by
  induction more generalizing front with
  | nil =>
    have octets : Utf8.encode "\r\n" = 0x0D :: [0x0A] := rfl
    rw [List.flatMap_nil, List.nil_append,
      Utf8.decodeLossy_append_encode octets (by decide) front rest]
    simp [written]
  | cons piece more ih =>
    have octets : Utf8.encode "\r\n " = 0x0D :: [0x0A, 0x20] := rfl
    rw [List.flatMap_cons, List.append_assoc, List.append_assoc,
      Utf8.decodeLossy_append_encode octets (by decide), String.toList_append,
      String.toList_append, ih]
    simp [written, EndedLine.chars, EndedLine.withReturn, LineEnd.chars]

theorem decodeLossy_bytes (c : Cut) (rest : Bytes) :
    (Utf8.decodeLossy (c.bytes ++ (Utf8.encode "\r\n" ++ rest))).toList =
      written (c.read.lines.map .withReturn) ++ (Utf8.decodeLossy rest).toList := by
  rw [Cut.bytes, List.append_assoc, List.append_assoc, Utf8.decodeLossy_encode_append,
    String.toList_append, decodeLossy_folds]
  simp [written, EndedLine.chars, EndedLine.withReturn, LineEnd.chars, Folded.lines,
    Folded.headLine, Cut.read, Function.comp_def]

theorem decodeLossy_section (cuts : List Cut) (rest : Bytes) :
    (Utf8.decodeLossy (sectionBytes cuts ++ rest)).toList =
      written (((cuts.map Cut.read).flatMap Folded.lines).map .withReturn) ++
        (Utf8.decodeLossy rest).toList := by
  induction cuts with
  | nil => rfl
  | cons c cuts ih =>
    have split : sectionBytes (c :: cuts) ++ rest =
        c.bytes ++ (Utf8.encode "\r\n" ++ (sectionBytes cuts ++ rest)) := by
      simp [sectionBytes]
    rw [split, decodeLossy_bytes, ih]
    simp [written]

theorem unmarked_read (unmarked : (⟨cuts.map Cut.toAttribute⟩ : Manifest).Unmarked) :
    (⟨cuts.map fun c => c.read.attribute⟩ : Manifest).Unmarked := by
  cases cuts with
  | nil => exact unmarked
  | cons c cuts =>
    intro a first
    obtain rfl : c.read.attribute = a := Option.some.inj first
    exact unmarked c.toAttribute rfl

theorem lines_written_unended {ls : List (List Char)} {last : List Char}
    (oneLine : ∀ l ∈ ls ++ [last], '\n' ∉ l) (full : last ≠ []) :
    lines (written (ls.map .withReturn) ++ last) = ls ++ [last] := by
  obtain ⟨before, clean⟩ := List.forall_mem_append.1 oneLine
  have ended : ∀ l ∈ ls.map EndedLine.withReturn, '\n' ∉ l.line := List.forall_mem_map.2 before
  have alone : lines last = [last] := by
    rw [lines, pieces_of_not_mem (clean last (List.mem_singleton_self last)), linesOfPieces,
      if_neg full]
  rw [lines_written_append ended, alone, List.map_map]
  simp [Function.comp_def, EndedLine.withReturn]

theorem takeWhile_lines_unended {fs : List Folded} (clean : ∀ f ∈ fs, f.attribute.Clean)
    {cs : List Char}
    (cut : cs ++ ['\r', '\n'] = written ((fs.flatMap Folded.lines).map .withReturn)) :
    ((lines cs).takeWhile fun l => !l.isEmpty) = fs.flatMap Folded.lines := by
  have oneLine := oneLine_of_clean clean
  have full := flatMap_lines_ne_nil fs
  rcases List.eq_nil_or_concat' (fs.flatMap Folded.lines) with none | ⟨ls, last, split⟩
  · simp [none, written] at cut
  · rw [split] at cut oneLine full ⊢
    have text : cs = written (ls.map .withReturn) ++ last := by
      simpa [written, EndedLine.chars, EndedLine.withReturn, LineEnd.chars,
        ← List.append_assoc] using cut
    rw [text, lines_written_unended oneLine (full last (by simp)), List.takeWhile_eq_self_iff]
    intro l mem
    simp [full l mem]

theorem parse_decodeLossy (shape : (⟨cuts.map Cut.toAttribute⟩ : Manifest).WellFormed)
    (unmarked : (⟨cuts.map Cut.toAttribute⟩ : Manifest).Unmarked) {content : Bytes}
    (stands : Written cuts content) :
    parse (Utf8.decodeLossy content) = ⟨cuts.map fun c => c.read.attribute⟩ := by
  have attributes : (cuts.map Cut.read).map Folded.attribute =
      cuts.map fun c => c.read.attribute := by rw [List.map_map]; rfl
  have restored : ((((cuts.map Cut.read).flatMap Folded.lines).map EndedLine.withReturn).map
      EndedLine.line) = (cuts.map Cut.read).flatMap Folded.lines := by
    simp [Function.comp_def, EndedLine.withReturn]
  have unmarkedRead := unmarked_read unmarked
  have shapeRead := wellFormed_read shape
  have front := head?_written unmarkedRead attributes restored
  rw [← String.ofList_toList (s := Utf8.decodeLossy content)]
  cases stands with
  | unended ends =>
    have octets : Utf8.encode "\r\n" = 0x0D :: [0x0A] := rfl
    have text := decodeLossy_section cuts []
    rw [← ends, List.append_assoc, Utf8.decodeLossy_append_encode octets (by decide)] at text
    have cut : (Utf8.decodeLossy content).toList ++ ['\r', '\n'] =
        written (((cuts.map Cut.read).flatMap Folded.lines).map .withReturn) := by
      simpa using text
    have unmarkedText : (Utf8.decodeLossy content).toList.head? ≠ some '\uFEFF' := by
      intro mark
      refine front .nothing ?_
      rw [Tail.chars, List.append_nil, ← cut, List.head?_append, mark]
      rfl
    refine parse_of_lines shapeRead attributes ?_
    rw [dropMark_eq_self unmarkedText]
    exact takeWhile_lines_unended (clean_of_cuts shapeRead attributes) cut
  | ended =>
    have text := decodeLossy_section cuts []
    rw [List.append_nil] at text
    refine parse_of_dropMark shapeRead attributes restored .nothing ?_
    rw [text]
    exact dropMark_eq_self (front .nothing)
  | sections rest =>
    have text := decodeLossy_section cuts (Utf8.encode "\r\n" ++ rest)
    rw [Utf8.decodeLossy_encode_append, String.toList_append] at text
    refine parse_of_dropMark shapeRead attributes restored
      (.sections .returnFeed (Utf8.decodeLossy rest).toList) ?_
    rw [text]
    exact dropMark_eq_self (front (.sections .returnFeed (Utf8.decodeLossy rest).toList))

end Manifest
end JarAtlas
