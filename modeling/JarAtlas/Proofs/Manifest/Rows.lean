import JarAtlas.Manifest.Table
import JarAtlas.Proofs.Manifest.WellFormed
import Mathlib.Data.List.Forall2

/-! The rows of a table and how they are read. A row is cut at its first colon, and these colons all
stand in one column, however long the names are. Nothing is lost: a manifest that was read is known
from its table. -/
namespace JarAtlas
namespace Manifest

open Text

def longestName (m : Manifest) : Nat := ((m.attributes.map fun a => a.name.length).max?).getD 0

/-- A row shows an attribute. In front of its first colon, which stands in the column, is the name
with white space around it; behind the colon is a blank, and then the value. -/
structure Shows (column : Nat) (row : String) (a : Attribute) : Prop where
  oneLine : '\n' ∉ row.toList
  colon : row.toList.findIdx? (· == ':') = some column
  name : trim (.ofList (row.toList.take column)) = a.name
  value : row.toList.drop (column + 1) = ' ' :: a.value.toList

def countLine (count : Nat) : String := "=== Total attributes: " ++ toString count ++ " ==="

variable {m n : Manifest} {a b : Attribute} {as bs : List Attribute} {rows : List String}
  {width column other : Nat} {row : String}

theorem nameWidth_eq (filled : m.attributes ≠ []) : m.nameWidth = m.longestName + 2 := by
  unfold nameWidth longestName
  cases most : (m.attributes.map fun a => a.name.length).max? with
  | none => simp [filled] at most
  | some longest => rfl

theorem length_le_longestName (mem : a ∈ m.attributes) : a.name.length ≤ m.longestName := by
  unfold longestName
  cases most : (m.attributes.map fun a => a.name.length).max? with
  | none =>
    have none : m.attributes = [] := by simpa using most
    simp [none] at mem
  | some longest => exact (List.max?_eq_some_iff.1 most).2 _ (List.mem_map.2 ⟨a, mem, rfl⟩)

theorem shows_row (clean : a.Clean) (fits : a.name.length ≤ width) :
    Shows (width + 1) (Manifest.row width a) a := by
  let blanks := List.replicate (width - a.name.length + 1) ' '
  have cut : (Manifest.row width a).toList =
      (a.name.toList ++ blanks) ++ ':' :: ' ' :: a.value.toList := by
    simp [Manifest.row, padded, blanks, List.replicate_succ']
  have front : (a.name.toList ++ blanks).length = width + 1 := by
    rw [List.length_append, String.length_toList, List.length_replicate]
    omega
  have noColon : ':' ∉ a.name.toList ++ blanks := by simp [blanks, clean.noColon]
  have white : ∀ c ∈ blanks, isBlank c = true := by
    intro c hc
    obtain rfl := List.eq_of_mem_replicate hc
    rfl
  constructor
  · rw [cut]
    simp [blanks, clean.nameOnOneLine, clean.valueOnOneLine]
  · have missing : (a.name.toList ++ blanks).findIdx? (· == ':') = none := by
      rw [List.findIdx?_eq_none_iff]
      exact fun c hc => beq_false_of_ne (ne_of_mem_of_not_mem hc noColon)
    rw [cut, List.findIdx?_append, missing, List.findIdx?_cons, front]
    simp
  · apply String.toList_inj.1
    rw [cut, List.take_left' front, toList_trim, String.toList_ofList, trimChars_append_right white,
      ← toList_trim, clean.trimmed]
  · rw [cut, ← List.drop_drop, List.drop_left' front]
    rfl

/-- What a row shows can be read from the row alone. -/
theorem Shows.unique (left : Shows column row a) (right : Shows other row b) : a = b := by
  obtain rfl : column = other := Option.some.inj (left.colon.symm.trans right.colon)
  obtain ⟨name, value⟩ := a
  obtain ⟨name', value'⟩ := b
  obtain rfl : name = name' := left.name.symm.trans right.name
  have same : ' ' :: value.toList = ' ' :: value'.toList := left.value.symm.trans right.value
  obtain rfl : value = value' := String.toList_inj.1 (List.cons.inj same).2
  rfl

theorem eq_of_forall₂_shows (left : List.Forall₂ (Shows column) rows as)
    (right : List.Forall₂ (Shows other) rows bs) : as = bs := by
  induction left generalizing bs with
  | nil =>
    cases right
    rfl
  | cons first _ ih =>
    cases right with
    | cons first' rest => rw [first.unique first', ih rest]

theorem oneLine_countLine (count : Nat) : '\n' ∉ (countLine count).toList := by
  have digits : '\n' ∉ Nat.toDigits 10 count := by
    intro feed
    have digit : '\n'.isDigit = true := Nat.isDigit_of_mem_toDigits (by decide) (by decide) feed
    exact absurd digit (by decide)
  unfold countLine
  simpa using digits

theorem oneLine_of_shown (shown : List.Forall₂ (Shows column) rows as) :
    ∀ line ∈ rows ++ [countLine rows.length], '\n' ∉ line.toList := by
  have inRows : ∀ row ∈ rows, '\n' ∉ row.toList := by
    induction shown with
    | nil => simp
    | cons first _ ih => exact List.forall_mem_cons.2 ⟨first.oneLine, ih⟩
  intro line hl
  rcases List.mem_append.1 hl with hl | hl
  · exact inRows line hl
  · obtain rfl := List.mem_singleton.1 hl
    exact oneLine_countLine rows.length

theorem exists_rows (clean : ∀ a ∈ m.attributes, a.Clean) :
    ∃ rows, m.table = unlines (rows ++ [countLine rows.length]) ∧
      List.Forall₂ (Shows (m.longestName + 3)) rows m.attributes := by
  refine ⟨m.attributes.map (Manifest.row m.nameWidth), ?_, ?_⟩
  · unfold table totalLine countLine size
    rw [List.length_map]
  · rw [List.forall₂_map_left_iff, List.forall₂_same]
    intro a ha
    rw [nameWidth_eq (List.ne_nil_of_mem ha)]
    exact shows_row (clean a ha) (Nat.le_add_right_of_le (length_le_longestName ha))

theorem table_inj (left : ∀ a ∈ m.attributes, a.Clean) (right : ∀ a ∈ n.attributes, a.Clean)
    (same : m.table = n.table) : m = n := by
  obtain ⟨rows, written, shown⟩ := exists_rows left
  obtain ⟨rows', written', shown'⟩ := exists_rows right
  have lines : rows ++ [countLine rows.length] = rows' ++ [countLine rows'.length] :=
    unlines_inj (oneLine_of_shown shown) (oneLine_of_shown shown')
      (written.symm.trans (same.trans written'))
  obtain rfl : rows = rows' := List.append_inj_left' lines rfl
  obtain ⟨as⟩ := m
  obtain ⟨bs⟩ := n
  exact congrArg Manifest.mk (eq_of_forall₂_shows shown shown')

/-- The table of a manifest that was read is a row for each attribute, in their order, and then the
line that counts them. The first colons of all rows stand in one column, which the longest name
sets. What is before the colon is the name once it is trimmed, and what is behind it is a blank and
the value. So manifests that were read are equal if their tables are. -/
theorem table_aligned (text other : String) :
    (∃ rows : List String,
      (parse text).table =
        unlines (rows ++ ["=== Total attributes: " ++ toString rows.length ++ " ==="]) ∧
      List.Forall₂ (Shows ((parse text).longestName + 3)) rows (parse text).attributes) ∧
    ((parse text).table = (parse other).table ↔ parse text = parse other) :=
  ⟨exists_rows (wellFormed_parse text).clean,
    table_inj (wellFormed_parse text).clean (wellFormed_parse other).clean, congrArg table⟩

/-- Characters count, not octets, and a return at the end of a value stays in its row. -/
example : (parse "Löwe: a:b\r\r\n: \n").table =
    "Löwe   : a:b\r\n       : \n=== Total attributes: 2 ===\n" := by decide

end Manifest
end JarAtlas
