import JarAtlas.Proofs.Manifest.Description
import JarAtlas.Proofs.Manifest.Rendering

/-! Where a continuation goes. It makes the value of the newest attribute longer. This is the
attribute that the line before it sets, unless that line gives a new value to an older one. -/
namespace JarAtlas
namespace Manifest

open Text

/-- The value of the attribute of this name grows by a text, and all else stays. -/
def GrowsOnly (name more : String) (m n : Manifest) : Prop :=
  n.attributes = m.attributes.map fun a =>
    if named name a then { a with value := a.value ++ more } else a

variable {name more : String} {as : List Attribute} {a : Attribute}

theorem growsOnly_congr {other : String} (same : sameIgnoringCase name other = true)
    {m n : Manifest} : GrowsOnly name more m n ↔ GrowsOnly other more m n := by
  rw [GrowsOnly, GrowsOnly, named_congr same]

theorem growsOnly_last (distinct : Distinct (as ++ [a])) (more : String) :
    GrowsOnly a.name more ⟨as ++ [a]⟩ (extendLast ⟨as ++ [a]⟩ more) := by
  have others : ∀ b ∈ as, named a.name b = false := fun b hb =>
    (List.pairwise_append.1 distinct).2.2 b hb a (List.mem_singleton_self a)
  have kept : as.map (fun b => if named a.name b then { b with value := b.value ++ more } else b) =
      as := by
    rw [List.map_congr_left (g := id) fun b hb => by simp [others b hb], List.map_id]
  rw [GrowsOnly, extendLast, extendIn_append, List.map_append, kept]
  simp [named_self]

/-- The attribute of a name is the one that grows only if it is the last, or if nothing is added. -/
theorem growsOnly_iff (distinct : Distinct (as ++ [a])) :
    GrowsOnly name more ⟨as ++ [a]⟩ (extendLast ⟨as ++ [a]⟩ more) ↔
      more = "" ∨ sameIgnoringCase a.name name = true := by
  constructor
  · intro grows
    refine or_iff_not_imp_right.2 fun other => ?_
    have missed : named name a = false := Bool.eq_false_iff.2 other
    rw [GrowsOnly, extendLast, extendIn_append, List.map_append] at grows
    have last := List.append_inj_right' grows rfl
    have unchanged : ({ a with value := a.value ++ more } : Attribute) = a := by
      simpa [missed] using last
    have value : a.value ++ more = a.value := congrArg Attribute.value unchanged
    simpa using value
  · rintro (rfl | same)
    · simp [GrowsOnly, extendLast, extendIn_append]
    · exact (growsOnly_congr same).1 (growsOnly_last distinct more)

/-- A continuation adds its text to the newest attribute, the one whose name came last as a new one,
and leaves all others alone. The attribute that the nearest attribute line before it sets is this
one, unless that line repeats the name of an older attribute. -/
theorem continuation_grows_newest {text rest name : String} {before after : List Line}
    (inside : mainSection text = before ++ .continuation rest :: after)
    (nearest : (before.filterMap Line.name?).getLast? = some name) :
    parse text = after.foldl read ((before.foldl read empty).read (.continuation rest)) ∧
    ∃ newest, (spellings before).getLast? = some newest ∧
      GrowsOnly newest rest (before.foldl read empty)
        ((before.foldl read empty).read (.continuation rest)) ∧
      (GrowsOnly name rest (before.foldl read empty)
        ((before.foldl read empty).read (.continuation rest)) ↔
          rest = "" ∨ sameIgnoringCase newest name = true) := by
  refine ⟨by rw [parse, inside, List.foldl_append, List.foldl_cons], ?_⟩
  have given : ∃ l ∈ before, l.sets name = true := by
    obtain ⟨l, hl, named⟩ := List.mem_filterMap.1 (List.mem_of_getLast? nearest)
    exact ⟨l, hl, by simp [Line.sets, named]⟩
  obtain ⟨spelling, known, -⟩ := exists_spelling given
  obtain ⟨distinct, names, -⟩ := describes_foldl_read before
  generalize before.foldl read empty = m at distinct names ⊢
  obtain ⟨as⟩ := m
  cases as using List.reverseRecOn with
  | nil => simp [← names] at known
  | append_singleton as a =>
    refine ⟨a.name, ?_, growsOnly_last distinct rest, growsOnly_iff distinct⟩
    simp [← names]

/-- A continuation behind a second value of the first of two attributes goes to the other one. -/
theorem continuation_misses_repeated :
    parse "A: 1\nB: 2\nA: 3\n 4\n" = ⟨[⟨"A", "3"⟩, ⟨"B", "24"⟩]⟩ ∧
    ¬ ∀ (text rest name : String) (before after : List Line),
      mainSection text = before ++ .continuation rest :: after →
      (before.filterMap Line.name?).getLast? = some name →
        GrowsOnly name rest (before.foldl read empty)
          ((before.foldl read empty).read (.continuation rest)) := by
  refine ⟨by decide, fun claim => ?_⟩
  have wrong := claim "A: 1\nB: 2\nA: 3\n 4\n" "4" "A"
    [.attribute "A" "1", .attribute "B" "2", .attribute "A" "3"] [] (by decide) (by decide)
  revert wrong
  unfold GrowsOnly
  decide

/-- Behind a repeated name, too, a continuation goes where it should, if no other name came between
the two. -/
theorem continuation_grows_newest_repeated :
    mainSection "A: 1\nB: 2\nb: 3\n 4\n" =
      [.attribute "A" "1", .attribute "B" "2", .attribute "b" "3"] ++ [.continuation "4"] ∧
    GrowsOnly "b" "4" ⟨[⟨"A", "1"⟩, ⟨"B", "3"⟩]⟩ ⟨[⟨"A", "1"⟩, ⟨"B", "34"⟩]⟩ := by
  have inside : mainSection "A: 1\nB: 2\nb: 3\n 4\n" =
      [.attribute "A" "1", .attribute "B" "2", .attribute "b" "3"] ++ [.continuation "4"] := by
    decide
  have nearest : ([Line.attribute "A" "1", .attribute "B" "2", .attribute "b" "3"].filterMap
      Line.name?).getLast? = some "b" := by decide
  obtain ⟨-, newest, last, -, reaches⟩ := continuation_grows_newest inside nearest
  obtain rfl : "B" = newest := by
    have names : (spellings [.attribute "A" "1", .attribute "B" "2", .attribute "b" "3"]).getLast? =
      some "B" := by decide
    exact Option.some.inj (names.symm.trans last)
  exact ⟨inside, reaches.2 (.inr (by decide))⟩

end Manifest
end JarAtlas
