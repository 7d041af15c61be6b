import JarAtlas.Text.Lines

/-! Writing lines so that they are read back: each is ended by a line feed, or by a carriage return
and a line feed, as one likes. Only a line whose last character is a carriage return has no choice,
since a line feed alone would take that character for a part of the end. -/
namespace JarAtlas
namespace Text

inductive LineEnd where
  | feed
  | returnFeed
  deriving DecidableEq, Repr

def LineEnd.chars : LineEnd → List Char
  | .feed => ['\n']
  | .returnFeed => ['\r', '\n']

/-- A line with the way it ends. -/
structure EndedLine where
  line : List Char
  ending : LineEnd
  keepsReturn : line.getLast? = some '\r' → ending = .returnFeed

namespace EndedLine

def chars (l : EndedLine) : List Char := l.line ++ l.ending.chars

def withReturn (line : List Char) : EndedLine := ⟨line, .returnFeed, fun _ => rfl⟩

theorem lines_chars_append (l : EndedLine) (clean : '\n' ∉ l.line) (cs : List Char) :
    lines (l.chars ++ cs) = l.line :: lines cs := by
  obtain ⟨line, ending, keepsReturn⟩ := l
  cases ending with
  | feed =>
    have noReturn : line.getLast? ≠ some '\r' := fun h => by simpa using keepsReturn h
    have split : chars ⟨line, .feed, keepsReturn⟩ ++ cs = line ++ '\n' :: cs := by
      simp [chars, LineEnd.chars]
    rw [split, lines_append_cons clean, dropReturn_eq_self noReturn]
  | returnFeed =>
    have split : chars ⟨line, .returnFeed, keepsReturn⟩ ++ cs = (line ++ ['\r']) ++ '\n' :: cs := by
      simp [chars, LineEnd.chars]
    have cleanWithReturn : '\n' ∉ line ++ ['\r'] := by simpa using clean
    rw [split, lines_append_cons cleanWithReturn, dropReturn_append_return]

end EndedLine

def written (ls : List EndedLine) : List Char := ls.flatMap EndedLine.chars

theorem lines_written_append {ls : List EndedLine} (clean : ∀ l ∈ ls, '\n' ∉ l.line)
    (cs : List Char) : lines (written ls ++ cs) = ls.map EndedLine.line ++ lines cs := by
  induction ls with
  | nil => rfl
  | cons l ls ih =>
    have rest := ih fun k hk => clean k (List.mem_cons_of_mem _ hk)
    have split : written (l :: ls) ++ cs = l.chars ++ (written ls ++ cs) := by
      simp [written, List.append_assoc]
    rw [split, l.lines_chars_append (clean l List.mem_cons_self), rest]
    rfl

end Text
end JarAtlas
