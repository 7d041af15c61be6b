import JarAtlas.Proofs.Manifest.WellFormed
import Mathlib.Data.List.Forall2
import Mathlib.Data.List.Induction

/-! What a manifest is, told from the lines of its section without reading them one after the other.
Names come once, as they are spelled first. The value of an attribute is what the last line of its
name gives it, and what the continuations add that stand between this line and the first line of the
next attribute. -/
namespace JarAtlas
namespace Manifest

open Text

inductive LosesBlank : List Char → List Char → Prop where
  | blank (cs : List Char) : LosesBlank (' ' :: cs) cs
  | none {cs : List Char} : cs.head? ≠ some ' ' → LosesBlank cs cs

namespace Line

/-- What the characters of a line make it. -/
inductive Says : List Char → Line → Prop where
  | continuation (rest : List Char) : Says (' ' :: rest) (.continuation (.ofList rest))
  | attribute {before after value : List Char} : before.head? ≠ some ' ' → ':' ∉ before →
      LosesBlank after value →
      Says (before ++ ':' :: after) (.attribute (trim (.ofList before)) (.ofList value))
  | malformed {cs : List Char} : cs.head? ≠ some ' ' → ':' ∉ cs → Says cs (.malformed (.ofList cs))

def name? : Line → Option String
  | .attribute name _ => some name
  | _ => none

def rest? : Line → Option String
  | .continuation rest => some rest
  | _ => none

/-- The line sets the attribute of this name, perhaps in other letters of the same kind. -/
def sets (name : String) (l : Line) : Bool := l.name?.any (sameIgnoringCase name)

theorem losesBlank_dropBlank (cs : List Char) : LosesBlank cs (dropBlank cs) := by
  unfold dropBlank
  split
  · exact .blank _
  · next other =>
    refine .none fun blank => ?_
    obtain ⟨rest, rfl⟩ := List.head?_eq_some_iff.1 blank
    exact other rest rfl

theorem says_ofChars (cs : List Char) : Says cs (ofChars cs) := by
  unfold ofChars
  split
  · exact .continuation _
  · next other =>
    have front : cs.head? ≠ some ' ' := by
      intro blank
      obtain ⟨rest, rfl⟩ := List.head?_eq_some_iff.1 blank
      exact other rest rfl
    split
    · next before after parts =>
      obtain ⟨rfl, clean⟩ := eq_append_of_cut? parts
      have trimmed : String.ofList (trimChars before) = trim (.ofList before) := by simp [trim]
      rw [trimmed]
      refine .attribute (fun blank => front ?_) clean (losesBlank_dropBlank after)
      rw [List.head?_append, blank]
      rfl
    · next whole =>
      refine .malformed front fun colon => ?_
      obtain ⟨before, after, rfl, clean⟩ := List.eq_append_cons_of_mem colon
      rw [cut?_append clean] at whole
      cases whole

end Line

/-- The names that lines give, each in its first spelling only. -/
def spellings (ls : List Line) : List String :=
  (ls.filterMap Line.name?).eraseDupsBy sameIgnoringCase

/-- The line at a place gives an attribute its value, and no later line does. -/
structure LastSet (ls : List Line) (name : String) (place : Nat) (text : String) : Prop where
  set : ∃ spelling, ls[place]? = some (.attribute spelling text) ∧
    sameIgnoringCase name spelling = true
  last : ∀ later l, place < later → ls[later]? = some l → l.sets name = false

/-- What the continuations add that stand from one place on and before another. -/
def continuations (ls : List Line) (first stop : Nat) : String :=
  .join (((ls.take stop).drop first).filterMap Line.rest?)

/-- The continuations of a value stop where the next attribute is set first, or with the section. -/
def stop (ls : List Line) : Option String → Nat
  | none => ls.length
  | some next => ls.findIdx (Line.sets next)

/-- Lines tell the value of an attribute, of which the next attribute has another name. -/
def Tells (ls : List Line) (a : Attribute) (next : Option String) : Prop :=
  ∃ place text, LastSet ls a.name place text ∧
    a.value = text ++ continuations ls (place + 1) (stop ls next)

def TellsAll (ls : List Line) : List Attribute → Prop
  | [] => True
  | a :: as => Tells ls a (as.map Attribute.name).head? ∧ TellsAll ls as

section Lines

variable {ls : List Line} {l : Line} {name next spelling text : String} {place first last : Nat}

theorem LastSet.lt_length (h : LastSet ls name place text) : place < ls.length := by
  obtain ⟨spelling, found, -⟩ := h.set
  exact (List.getElem?_eq_some_iff.1 found).1

theorem LastSet.exists_sets (h : LastSet ls name place text) : ∃ l ∈ ls, l.sets name = true := by
  obtain ⟨spelling, found, same⟩ := h.set
  exact ⟨_, List.mem_of_getElem? found, same⟩

theorem LastSet.concat (h : LastSet ls name place text) (other : l.sets name = false) :
    LastSet (ls ++ [l]) name place text := by
  obtain ⟨spelling, found, same⟩ := h.set
  refine ⟨⟨spelling, ?_, same⟩, fun later k less there => ?_⟩
  · rw [List.getElem?_append_left h.lt_length]
    exact found
  · by_cases inside : later < ls.length
    · rw [List.getElem?_append_left inside] at there
      exact h.last later k less there
    · rw [List.getElem?_append_right (Nat.not_lt.1 inside)] at there
      obtain rfl := List.mem_singleton.1 (List.mem_of_getElem? there)
      exact other

theorem lastSet_concat (same : sameIgnoringCase name spelling = true) :
    LastSet (ls ++ [.attribute spelling text]) name ls.length text := by
  refine ⟨⟨spelling, List.getElem?_concat_length, same⟩, fun later k less there => ?_⟩
  have short := (List.getElem?_eq_some_iff.1 there).1
  rw [List.length_append, List.length_singleton] at short
  omega

theorem continuations_of_le (h : last ≤ first) : continuations ls first last = "" := by
  have empty : (ls.take last).drop first = [] :=
    List.drop_eq_nil_of_le (Nat.le_trans (List.length_take_le _ _) h)
  simp [continuations, empty]

theorem continuations_concat_of_le (h : last ≤ ls.length) :
    continuations (ls ++ [l]) first last = continuations ls first last := by
  rw [continuations, List.take_append_of_le_length h, continuations]

theorem continuations_concat (h : first ≤ ls.length) :
    continuations (ls ++ [l]) first (ls.length + 1) =
      continuations ls first ls.length ++ l.rest?.getD "" := by
  have all : (ls ++ [l]).take (ls.length + 1) = ls ++ [l] := List.take_of_length_le (by simp)
  rw [continuations, all, List.drop_append_of_le_length h, List.filterMap_append,
    String.join_append, continuations, List.take_length]
  cases more : l.rest? <;> simp [more]

theorem stop_concat (h : ∃ k ∈ ls, Line.sets next k = true) :
    stop (ls ++ [l]) (some next) = stop ls (some next) ∧ stop ls (some next) < ls.length := by
  have inside : ls.findIdx (Line.sets next) < ls.length := List.findIdx_lt_length.2 h
  exact ⟨by rw [stop, List.findIdx_append, if_pos inside, stop], inside⟩

theorem stop_concat_new (new : ∀ k ∈ ls, Line.sets next k = false) (sets : l.sets next = true) :
    stop (ls ++ [l]) (some next) = ls.length := by
  have missing : ls.findIdx (Line.sets next) = ls.length := List.findIdx_eq_length.2 new
  rw [stop, List.findIdx_append, if_neg (by omega)]
  simp [List.findIdx_cons, sets]

variable {a : Attribute}

theorem Tells.concat_other (h : Tells ls a (some next)) (other : l.sets a.name = false)
    (known : ∃ k ∈ ls, Line.sets next k = true) : Tells (ls ++ [l]) a (some next) := by
  obtain ⟨place, text, set, value⟩ := h
  obtain ⟨same, inside⟩ := stop_concat (l := l) known
  refine ⟨place, text, set.concat other, ?_⟩
  rw [same, continuations_concat_of_le (Nat.le_of_lt inside), value]

/-- The value of the last attribute grows by what a line adds. -/
theorem Tells.concat_last (h : Tells ls a none) (other : l.sets a.name = false) :
    Tells (ls ++ [l]) { a with value := a.value ++ l.rest?.getD "" } none := by
  obtain ⟨place, text, set, value⟩ := h
  refine ⟨place, text, set.concat other, ?_⟩
  have whole : stop (ls ++ [l]) none = ls.length + 1 := by simp [stop]
  dsimp only
  rw [whole, continuations_concat set.lt_length, value, stop, String.append_assoc]

theorem Tells.concat_new (h : Tells ls a none) (other : l.sets a.name = false)
    (new : ∀ k ∈ ls, Line.sets next k = false) (sets : l.sets next = true) :
    Tells (ls ++ [l]) a (some next) := by
  obtain ⟨place, text, set, value⟩ := h
  refine ⟨place, text, set.concat other, ?_⟩
  rw [stop_concat_new new sets, continuations_concat_of_le ls.length.le_refl, value, stop]

theorem Tells.concat_set (same : sameIgnoringCase a.name spelling = true) (next : Option String) :
    Tells (ls ++ [.attribute spelling text]) { a with value := text } next := by
  refine ⟨ls.length, text, lastSet_concat same, ?_⟩
  have inside : stop (ls ++ [.attribute spelling text]) next ≤ ls.length + 1 := by
    cases next with
    | none => simp [stop]
    | some next =>
      have found : (ls ++ [Line.attribute spelling text]).findIdx (Line.sets next) ≤
          (ls ++ [Line.attribute spelling text]).length := List.findIdx_le_length
      simpa [stop] using found
  simp [continuations_of_le inside]

theorem TellsAll.exists_sets {as : List Attribute} (h : TellsAll ls as) :
    ∀ a ∈ as, ∃ k ∈ ls, Line.sets a.name k = true := by
  induction as with
  | nil => simp
  | cons a as ih =>
    obtain ⟨⟨place, text, set, -⟩, rest⟩ := h
    exact List.forall_mem_cons.2 ⟨set.exists_sets, ih rest⟩

theorem TellsAll.concat_other {as : List Attribute} (h : TellsAll ls as)
    (others : ∀ a ∈ as, l.sets a.name = false) (nothing : l.rest? = none) :
    TellsAll (ls ++ [l]) as := by
  induction as with
  | nil => trivial
  | cons a as ih =>
    obtain ⟨first, rest⟩ := h
    obtain ⟨other, others⟩ := List.forall_mem_cons.1 others
    refine ⟨?_, ih rest others⟩
    cases as with
    | nil => simpa [nothing] using first.concat_last other
    | cons b as => exact first.concat_other other (rest.exists_sets b List.mem_cons_self)

theorem TellsAll.concat_continuation {as : List Attribute} (h : TellsAll ls as) (more : String) :
    TellsAll (ls ++ [.continuation more]) (extendIn more as) := by
  induction as with
  | nil => trivial
  | cons a as ih =>
    obtain ⟨first, rest⟩ := h
    have other : (Line.continuation more).sets a.name = false := rfl
    cases as with
    | nil => exact ⟨first.concat_last other, trivial⟩
    | cons b as =>
      refine ⟨?_, ih rest⟩
      rw [map_name_extendIn]
      exact first.concat_other other (rest.exists_sets b List.mem_cons_self)

theorem TellsAll.concat_attribute {as : List Attribute} (h : TellsAll ls as)
    (distinct : Distinct as)
    (covered : ∀ k ∈ ls, k.sets name = true → ∃ a ∈ as, named name a = true) (text : String) :
    TellsAll (ls ++ [.attribute name text]) (putIn name text as) := by
  induction as with
  | nil => exact ⟨Tells.concat_set (a := ⟨name, text⟩) (sameIgnoringCase_refl name) none, trivial⟩
  | cons a as ih =>
    obtain ⟨first, rest⟩ := h
    obtain ⟨apart, distinct⟩ := List.pairwise_cons.1 distinct
    by_cases same : named name a = true
    · rw [putIn, if_pos same]
      refine ⟨Tells.concat_set same _, rest.concat_other (fun b hb => ?_) rfl⟩
      -- Another attribute of the name would have the name of the first.
      refine Bool.eq_false_iff.2 fun again => Bool.eq_false_iff.1 (apart b hb) ?_
      refine sameIgnoringCase_trans same ?_
      rw [sameIgnoringCase_comm]
      exact again
    · rw [putIn, if_neg same]
      have other : (Line.attribute name text).sets a.name = false := Bool.eq_false_iff.2 same
      have further : ∀ k ∈ ls, k.sets name = true → ∃ b ∈ as, named name b = true := by
        intro k hk sets
        obtain ⟨b, hb, found⟩ := covered k hk sets
        rcases List.mem_cons.1 hb with rfl | hb
        · exact absurd found same
        · exact ⟨b, hb, found⟩
      refine ⟨?_, ih rest distinct further⟩
      cases as with
      | nil =>
        have new : ∀ k ∈ ls, k.sets name = false := fun k hk =>
          Bool.eq_false_iff.2 fun sets => by simpa using further k hk sets
        exact first.concat_new other new (sameIgnoringCase_refl name)
      | cons b as =>
        have head : ((putIn name text (b :: as)).map Attribute.name).head? = some b.name := by
          rw [map_name_putIn]
          split <;> rfl
        rw [head]
        exact first.concat_other other (rest.exists_sets b List.mem_cons_self)

end Lines

theorem eraseDupsBy_concat {α : Type} (same : α → α → Bool) (xs : List α) (x : α) :
    (xs ++ [x]).eraseDupsBy same =
      if (xs.eraseDupsBy same).any (same x) then xs.eraseDupsBy same
      else xs.eraseDupsBy same ++ [x] := by
  have run (kept : List α) : List.eraseDupsBy.loop same (xs ++ [x]) kept =
      if (List.eraseDupsBy.loop same xs kept).any (same x) then List.eraseDupsBy.loop same xs kept
      else List.eraseDupsBy.loop same xs kept ++ [x] := by
    induction xs generalizing kept with
    | nil => cases h : kept.any (same x) <;> simp [List.eraseDupsBy.loop, h]
    | cons y xs ih => cases h : kept.any (same y) <;> simp [List.eraseDupsBy.loop, h, ih]
  exact run []

theorem spellings_concat_other {l : Line} (other : l.name? = none) (ls : List Line) :
    spellings (ls ++ [l]) = spellings ls := by
  simp [spellings, other]

theorem spellings_concat_attribute (ls : List Line) (name text : String) :
    spellings (ls ++ [.attribute name text]) =
      if (spellings ls).any (sameIgnoringCase name) then spellings ls
      else spellings ls ++ [name] := by
  rw [spellings, List.filterMap_append]
  exact eraseDupsBy_concat sameIgnoringCase _ name

theorem exists_spelling {ls : List Line} {name : String} (h : ∃ l ∈ ls, l.sets name = true) :
    ∃ spelling ∈ spellings ls, sameIgnoringCase name spelling = true := by
  induction ls using List.reverseRecOn with
  | nil => simp at h
  | append_singleton ls l ih =>
    have earlier (mem : ∃ k ∈ ls, Line.sets name k = true) :
        ∃ spelling ∈ spellings (ls ++ [l]), sameIgnoringCase name spelling = true := by
      obtain ⟨spelling, known, same⟩ := ih mem
      refine ⟨spelling, ?_, same⟩
      match l with
      | .attribute given text =>
        rw [spellings_concat_attribute]
        split
        · exact known
        · exact List.mem_append_left _ known
      | .continuation rest => rwa [spellings_concat_other rfl]
      | .malformed text => rwa [spellings_concat_other rfl]
    obtain ⟨k, mem, sets⟩ := h
    rcases List.mem_append.1 mem with before | last
    · exact earlier ⟨k, before, sets⟩
    · obtain rfl := List.mem_singleton.1 last
      match k, sets with
      | .attribute given text, sets =>
        rw [spellings_concat_attribute]
        split
        · next known =>
          obtain ⟨spelling, mem, same⟩ := List.any_eq_true.1 known
          exact ⟨spelling, mem, sameIgnoringCase_trans sets same⟩
        · exact ⟨given, by simp, sets⟩

/-- Lines tell everything about a manifest. -/
structure Describes (ls : List Line) (m : Manifest) : Prop where
  distinct : Distinct m.attributes
  names : m.attributes.map Attribute.name = spellings ls
  values : TellsAll ls m.attributes

/-- Reading a line keeps the manifest as the lines tell it. -/
theorem Describes.read {ls : List Line} {m : Manifest} (h : Describes ls m) (l : Line) :
    Describes (ls ++ [l]) (m.read l) := by
  match l with
  | .continuation more =>
    refine ⟨distinct_extendIn h.distinct, ?_, h.values.concat_continuation more⟩
    rw [spellings_concat_other rfl, ← h.names]
    exact map_name_extendIn more m.attributes
  | .attribute name text =>
    have covered : ∀ k ∈ ls, k.sets name = true → ∃ a ∈ m.attributes, named name a = true := by
      intro k mem sets
      obtain ⟨spelling, known, same⟩ := exists_spelling ⟨k, mem, sets⟩
      rw [← h.names] at known
      obtain ⟨a, ha, rfl⟩ := List.mem_map.1 known
      exact ⟨a, ha, by rwa [named, sameIgnoringCase_comm]⟩
    refine ⟨distinct_putIn h.distinct, ?_, h.values.concat_attribute h.distinct covered text⟩
    have known : (spellings ls).any (sameIgnoringCase name) = m.attributes.any (named name) := by
      rw [← h.names, List.any_map]
      exact congrArg m.attributes.any (funext fun a => sameIgnoringCase_comm name a.name)
    rw [spellings_concat_attribute, known, ← h.names]
    exact map_name_putIn name text m.attributes
  | .malformed text =>
    refine ⟨h.distinct, ?_, h.values.concat_other (fun _ _ => rfl) rfl⟩
    rw [spellings_concat_other rfl, ← h.names]
    rfl

theorem describes_foldl_read (ls : List Line) : Describes ls (ls.foldl read empty) := by
  induction ls using List.reverseRecOn with
  | nil => exact ⟨.nil, rfl, trivial⟩
  | append_singleton ls l ih =>
    rw [List.foldl_append]
    exact ih.read l

theorem TellsAll.tells {ls : List Line} {as : List Attribute} (h : TellsAll ls as) {i : Nat}
    {a : Attribute} (found : as[i]? = some a) : Tells ls a (as[i + 1]?.map Attribute.name) := by
  induction as generalizing i with
  | nil => simp at found
  | cons b as ih =>
    obtain ⟨first, rest⟩ := h
    cases i with
    | zero =>
      obtain rfl : b = a := by simpa using found
      simpa [List.head?_eq_getElem?] using first
    | succ i => exact ih rest found

/-- The lines that may have an effect: no malformed ones, and no continuations before the first
attribute. -/
def effective (ls : List Line) : List Line :=
  (ls.filter fun l => l.malformed?.isNone).dropWhile fun l => l.rest?.isSome

theorem foldl_read_filter (ls : List Line) (m : Manifest) :
    (ls.filter fun l => l.malformed?.isNone).foldl read m = ls.foldl read m := by
  induction ls generalizing m with
  | nil => rfl
  | cons l ls ih =>
    match l with
    | .continuation rest => exact ih _
    | .attribute name text => exact ih _
    | .malformed text => exact ih m

theorem foldl_read_dropWhile (ls : List Line) :
    (ls.dropWhile fun l => l.rest?.isSome).foldl read empty = ls.foldl read empty := by
  induction ls with
  | nil => rfl
  | cons l ls ih =>
    match l with
    | .continuation rest => exact ih
    | .attribute name text => rfl
    | .malformed text => rfl

theorem foldl_read_effective (ls : List Line) :
    (effective ls).foldl read empty = ls.foldl read empty := by
  rw [effective, foldl_read_dropWhile, foldl_read_filter]

/-- The lines of the section without their ends: those before the first empty one, less a mark. -/
def sectionLines (text : String) : List (List Char) :=
  (lines (dropMark text.toList)).takeWhile fun l => !l.isEmpty

/-- A manifest is told by the lines of its section. There is one attribute for all lines of a name,
where the first of them stands and as this one spells it. Its value is that of the last such line,
and what the continuations add from there on and before the next attribute is first set. Lines of no
other effect do not count. -/
theorem parse_described (text : String) :
    List.Forall₂ Line.Says (sectionLines text) (mainSection text) ∧
    (parse text).attributes.map Attribute.name = spellings (mainSection text) ∧
    (∀ i a, (parse text).attributes[i]? = some a →
      Tells (mainSection text) a ((parse text).attributes[i + 1]?.map Attribute.name)) ∧
    ∀ other, effective (mainSection other) = effective (mainSection text) →
      parse other = parse text := by
  have described := describes_foldl_read (mainSection text)
  refine ⟨?_, described.names, fun i a => described.values.tells, fun other same => ?_⟩
  · exact List.forall₂_map_right_iff.2 (List.forall₂_same.2 fun cs _ => Line.says_ofChars cs)
  · rw [parse, ← foldl_read_effective, same, foldl_read_effective, parse]

def mixedText : String := " lost\nA: 1\n 2\nB: 3\n 4\na : 5\n 6\nnothing\n\nC: 7"

/-- The second value of the first attribute stays alone: the continuation behind it comes too late
and goes to the other attribute. -/
theorem parse_described_mixed :
    (parse mixedText).attributes = [⟨"A", "5"⟩, ⟨"B", "346"⟩] ∧
    Tells (mainSection mixedText) ⟨"A", "5"⟩ (some "B") ∧
    Tells (mainSection mixedText) ⟨"B", "346"⟩ none ∧
    parse "A: 1\n 2\nB: 3\n 4\na : 5\n 6" = parse mixedText := by
  have read : (parse mixedText).attributes = [⟨"A", "5"⟩, ⟨"B", "346"⟩] := by decide
  have described := parse_described mixedText
  refine ⟨read, ?_, ?_, described.2.2.2 _ (by decide)⟩
  · have first := described.2.2.1 0 ⟨"A", "5"⟩ (by rw [read]; rfl)
    rwa [read] at first
  · have second := described.2.2.1 1 ⟨"B", "346"⟩ (by rw [read]; rfl)
    rwa [read] at second

end Manifest
end JarAtlas
