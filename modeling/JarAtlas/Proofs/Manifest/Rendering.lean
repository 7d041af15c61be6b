import JarAtlas.Proofs.Manifest.WellFormed
import JarAtlas.Proofs.Text.EndedLine

/-! Writing the main section of a manifest, and that reading undoes it: however the values are cut
into chunks, however the lines end, and whatever follows the section. -/
namespace JarAtlas
namespace Manifest

open Text

/-- An attribute whose value is cut into chunks, a chunk a line. -/
structure Folded where
  name : String
  first : String
  more : List String
  deriving DecidableEq, Repr

def Folded.attribute (f : Folded) : Attribute := ⟨f.name, f.first ++ String.join f.more⟩

namespace Folded

def headLine (f : Folded) : List Char := f.name.toList ++ ':' :: ' ' :: f.first.toList

def lines (f : Folded) : List (List Char) :=
  f.headLine :: f.more.map fun chunk => ' ' :: chunk.toList

end Folded

/-- What may stand behind a main section: nothing, or an empty line and any text. -/
inductive Tail where
  | nothing
  | sections (ending : LineEnd) (rest : List Char)
  deriving DecidableEq, Repr

def Tail.chars : Tail → List Char
  | .nothing => []
  | .sections ending rest => ending.chars ++ rest

/-- The first name does not start with a byte order mark, which reading would drop. -/
def Unmarked (m : Manifest) : Prop :=
  ∀ a, m.attributes.head? = some a → a.name.toList.head? ≠ some '\uFEFF'

theorem putIn_of_new {name : String} {as : List Attribute} (new : ∀ a ∈ as, named name a = false)
    (value : String) : putIn name value as = as ++ [⟨name, value⟩] := by
  induction as with
  | nil => rfl
  | cons a as ih =>
    have rest := ih fun b hb => new b (List.mem_cons_of_mem _ hb)
    simp [putIn, new a List.mem_cons_self, rest]

theorem extendIn_append (more : String) (as : List Attribute) (a : Attribute) :
    extendIn more (as ++ [a]) = as ++ [{ a with value := a.value ++ more }] := by
  induction as with
  | nil => rfl
  | cons b as ih =>
    cases as with
    | nil => rfl
    | cons c as =>
      simp only [List.cons_append, extendIn, List.cons.injEq, true_and]
      simpa using ih

theorem foldl_read_continuations (as : List Attribute) (a : Attribute) (chunks : List String) :
    (chunks.map Line.continuation).foldl read ⟨as ++ [a]⟩ =
      ⟨as ++ [{ a with value := a.value ++ String.join chunks }]⟩ := by
  induction chunks generalizing a with
  | nil => simp
  | cons chunk chunks ih =>
    have step : read ⟨as ++ [a]⟩ (.continuation chunk) =
        ⟨as ++ [{ a with value := a.value ++ chunk }]⟩ := by
      simp [read, extendLast, extendIn_append]
    rw [List.map_cons, List.foldl_cons, step, ih]
    simp [String.append_assoc]

theorem ofChars_headLine {f : Folded} (clean : f.attribute.Clean) :
    Line.ofChars f.headLine = .attribute f.name f.first := by
  have trimmed : trimChars f.name.toList = f.name.toList := by
    rw [← toList_trim]
    exact congrArg String.toList clean.trimmed
  unfold Line.ofChars
  split
  · next rest e =>
    have first : (f.name.toList ++ ':' :: ' ' :: f.first.toList).head? = some ' ' := by
      rw [← Folded.headLine, e]
      rfl
    cases h : f.name.toList with
    | nil => simp [h] at first
    | cons c cs =>
      obtain rfl : c = ' ' := by simpa [h] using first
      have head : (trimChars f.name.toList).head? = some ' ' := by rw [trimmed, h]; rfl
      have notBlank : isBlank ' ' = false := isBlank_of_head?_trimChars head
      exact absurd notBlank (by decide)
  · have parts : cut? ':' f.headLine = some (f.name.toList, ' ' :: f.first.toList) :=
      cut?_append clean.noColon _
    simp [parts, trimmed, dropBlank]

/-- The lines of an attribute whose name is new put it behind the others. -/
theorem foldl_read_lines {f : Folded} (clean : f.attribute.Clean) {as : List Attribute}
    (new : ∀ a ∈ as, named f.name a = false) :
    (f.lines.map Line.ofChars).foldl read ⟨as⟩ = ⟨as ++ [f.attribute]⟩ := by
  have step : read ⟨as⟩ (.attribute f.name f.first) = ⟨as ++ [⟨f.name, f.first⟩]⟩ := by
    simp [read, put, putIn_of_new new]
  have continued : (f.more.map fun chunk => ' ' :: chunk.toList).map Line.ofChars =
      f.more.map Line.continuation := by
    simp [Line.ofChars]
  rw [Folded.lines, List.map_cons, List.foldl_cons, ofChars_headLine clean, step, continued,
    foldl_read_continuations]
  rfl

theorem foldl_read_flatMap_lines {fs : List Folded} {as : List Attribute}
    (clean : ∀ f ∈ fs, f.attribute.Clean) (distinct : Distinct (as ++ fs.map Folded.attribute)) :
    ((fs.flatMap Folded.lines).map Line.ofChars).foldl read ⟨as⟩ =
      ⟨as ++ fs.map Folded.attribute⟩ := by
  induction fs generalizing as with
  | nil => simp
  | cons f fs ih =>
    have new : ∀ a ∈ as, named f.name a = false := fun a ha =>
      (List.pairwise_append.1 distinct).2.2 a ha f.attribute List.mem_cons_self
    have regrouped : as ++ (f :: fs).map Folded.attribute =
        (as ++ [f.attribute]) ++ fs.map Folded.attribute := by simp
    rw [regrouped] at distinct ⊢
    rw [List.flatMap_cons, List.map_append, List.foldl_append,
      foldl_read_lines (clean f List.mem_cons_self) new]
    exact ih (fun g hg => clean g (List.mem_cons_of_mem _ hg)) distinct

theorem Folded.lines_oneLine {f : Folded} (clean : f.attribute.Clean) :
    ∀ l ∈ f.lines, '\n' ∉ l := by
  have value := clean.valueOnOneLine
  simp only [Folded.attribute, String.toList_append, String.toList_join, List.mem_append,
    List.mem_flatMap, not_or, not_exists, not_and] at value
  intro l hl
  rcases List.mem_cons.1 hl with rfl | hl
  · have name : '\n' ∉ f.name.toList := clean.nameOnOneLine
    simp [Folded.headLine, name, value.1]
  · obtain ⟨chunk, hc, rfl⟩ := List.mem_map.1 hl
    simp [value.2 chunk hc]

theorem Folded.lines_ne_nil (f : Folded) : ∀ l ∈ f.lines, l ≠ [] := by
  intro l hl
  rcases List.mem_cons.1 hl with rfl | hl
  · simp [Folded.headLine]
  · obtain ⟨chunk, -, rfl⟩ := List.mem_map.1 hl
    simp

theorem oneLine_of_clean {fs : List Folded} (clean : ∀ f ∈ fs, f.attribute.Clean) :
    ∀ l ∈ fs.flatMap Folded.lines, '\n' ∉ l := by
  intro l hl
  obtain ⟨f, hf, hl⟩ := List.mem_flatMap.1 hl
  exact f.lines_oneLine (clean f hf) l hl

theorem flatMap_lines_ne_nil (fs : List Folded) : ∀ l ∈ fs.flatMap Folded.lines, l ≠ [] := by
  intro l hl
  obtain ⟨f, -, hl⟩ := List.mem_flatMap.1 hl
  exact f.lines_ne_nil l hl

theorem takeWhile_lines_tail (tail : Tail) :
    ((lines tail.chars).takeWhile fun l => !l.isEmpty) = [] := by
  cases tail with
  | nothing => rfl
  | sections ending rest =>
    have empty : lines (ending.chars ++ rest) = [] :: lines rest :=
      EndedLine.lines_chars_append ⟨[], ending, by simp⟩ (by simp) rest
    simp [Tail.chars, empty]

theorem takeWhile_lines_written {fs : List Folded} (clean : ∀ f ∈ fs, f.attribute.Clean)
    {ls : List EndedLine} (writes : ls.map EndedLine.line = fs.flatMap Folded.lines) (tail : Tail) :
    ((lines (written ls ++ tail.chars)).takeWhile fun l => !l.isEmpty) =
      fs.flatMap Folded.lines := by
  have oneLine : ∀ l ∈ ls, '\n' ∉ l.line := fun l hl =>
    oneLine_of_clean clean _ (writes ▸ List.mem_map_of_mem hl)
  have full : ∀ l ∈ fs.flatMap Folded.lines, (!l.isEmpty) = true := fun l hl => by
    simp [flatMap_lines_ne_nil fs l hl]
  rw [lines_written_append oneLine, writes, List.takeWhile_append_of_pos full,
    takeWhile_lines_tail, List.append_nil]

variable {m : Manifest} {fs : List Folded} {ls : List EndedLine}

theorem clean_of_cuts (shape : m.WellFormed) (cuts : fs.map Folded.attribute = m.attributes) :
    ∀ f ∈ fs, f.attribute.Clean := fun _ hf => shape.clean _ (cuts ▸ List.mem_map_of_mem hf)

theorem parse_of_lines (shape : m.WellFormed) (cuts : fs.map Folded.attribute = m.attributes)
    {cs : List Char} (found : ((lines (dropMark cs)).takeWhile fun l => !l.isEmpty) =
      fs.flatMap Folded.lines) : parse (.ofList cs) = m := by
  have distinct : Distinct ([] ++ fs.map Folded.attribute) := by
    simpa [cuts] using shape.distinct
  have sectionLines : mainSection (.ofList cs) = (fs.flatMap Folded.lines).map Line.ofChars := by
    rw [mainSection, String.toList_ofList, found]
  rw [parse, sectionLines, empty, foldl_read_flatMap_lines (clean_of_cuts shape cuts) distinct,
    List.nil_append, cuts]

theorem parse_of_dropMark (shape : m.WellFormed) (cuts : fs.map Folded.attribute = m.attributes)
    (writes : ls.map EndedLine.line = fs.flatMap Folded.lines) (tail : Tail) {cs : List Char}
    (dropped : dropMark cs = written ls ++ tail.chars) : parse (.ofList cs) = m := by
  refine parse_of_lines shape cuts ?_
  rw [dropped, takeWhile_lines_written (clean_of_cuts shape cuts) writes]

theorem dropMark_eq_self {cs : List Char} (h : cs.head? ≠ some '\uFEFF') : dropMark cs = cs := by
  unfold dropMark
  split
  · simp at h
  · rfl

theorem head?_written (unmarked : m.Unmarked) (cuts : fs.map Folded.attribute = m.attributes)
    (writes : ls.map EndedLine.line = fs.flatMap Folded.lines) (tail : Tail) :
    (written ls ++ tail.chars).head? ≠ some '\uFEFF' := by
  cases fs with
  | nil =>
    obtain rfl : ls = [] := by simpa using writes
    cases tail with
    | nothing => simp [written, Tail.chars]
    | sections ending rest => cases ending <;> simp [written, Tail.chars, LineEnd.chars]
  | cons f fs =>
    cases ls with
    | nil => simp [Folded.lines] at writes
    | cons l ls =>
      have front : l.line = f.headLine := by simpa [Folded.lines] using (List.cons.inj writes).1
      have mark := unmarked f.attribute (by rw [← cuts]; rfl)
      have name : f.name.toList.head? ≠ some '\uFEFF' := mark
      cases h : f.name.toList with
      | nil => simp [written, EndedLine.chars, front, Folded.headLine, h]
      | cons c cs => simpa [written, EndedLine.chars, front, Folded.headLine, h] using name

/-- Reading undoes every writing of a well-formed manifest: the values may be cut into chunks in
any way, each line may end as it likes, and nothing or an empty line and any text may follow. What
was read is well-formed, and so it reads back from its own writings, even when its first name
starts with a byte order mark, if another one is put in front. -/
theorem parse_written :
    (∀ (m : Manifest) (fs : List Folded) (ls : List EndedLine) (tail : Tail),
      m.WellFormed → m.Unmarked → fs.map Folded.attribute = m.attributes →
      ls.map EndedLine.line = fs.flatMap Folded.lines →
        parse (.ofList (written ls ++ tail.chars)) = m) ∧
    ∀ text : String, (parse text).WellFormed ∧
      ∀ fs : List Folded, fs.map Folded.attribute = (parse text).attributes →
        parse (.ofList ('\uFEFF' :: written ((fs.flatMap Folded.lines).map EndedLine.withReturn))) =
          parse text := by
  refine ⟨fun m fs ls tail shape unmarked cuts writes => ?_, fun text =>
    ⟨wellFormed_parse text, fun fs cuts => ?_⟩⟩
  · exact parse_of_dropMark shape cuts writes tail
      (dropMark_eq_self (head?_written unmarked cuts writes tail))
  · have writes : ((fs.flatMap Folded.lines).map EndedLine.withReturn).map EndedLine.line =
        fs.flatMap Folded.lines := by simp [Function.comp_def, EndedLine.withReturn]
    exact parse_of_dropMark (wellFormed_parse text) cuts writes .nothing (List.append_nil _).symm

/-- A value with a blank at its front and a return at its end, cut into three chunks one of which
is empty, and an attribute without a name, between line ends of both kinds. -/
theorem parse_written_three_chunks :
    (⟨[⟨"Name", " ab\r"⟩, ⟨"", ""⟩]⟩ : Manifest).WellFormed ∧
      parse "Name:  a\n \r\n b\r\r\n: \n\nName: later" = ⟨[⟨"Name", " ab\r"⟩, ⟨"", ""⟩]⟩ ∧
      parse "\uFEFF\uFEFFKey: v\r\n w\r\n" = parse "\uFEFF\uFEFFKey: vw" := by
  have shape : (⟨[⟨"Name", " ab\r"⟩, ⟨"", ""⟩]⟩ : Manifest).WellFormed := by decide
  refine ⟨shape, ?_, ?_⟩
  · exact parse_written.1 _ [⟨"Name", " a", ["", "b\r"]⟩, ⟨"", "", []⟩]
      [⟨"Name:  a".toList, .feed, by decide⟩, .withReturn " ".toList,
        .withReturn " b\r".toList, ⟨": ".toList, .feed, by decide⟩]
      (.sections .feed "Name: later".toList) shape (by simp [Unmarked]) (by decide) (by decide)
  · exact (parse_written.2 "\uFEFF\uFEFFKey: vw").2 [⟨"\uFEFFKey", "v", ["w"]⟩] (by decide)

end Manifest
end JarAtlas
