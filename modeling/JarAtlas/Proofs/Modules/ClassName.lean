import JarAtlas.Modules.ClassName
import JarAtlas.Proofs.Text.Pieces

/-! When a path belongs to a module: a condition on the text of the path, by which the root namespace
is a beginning of the dotted name that ends with a whole segment. -/
namespace JarAtlas
namespace ClassName

open Text

def dotted (path : String) : String :=
  .ofList (path.toList.map fun c => if c = '/' then '.' else c)

variable {root path className module : String}

theorem ofPath?_eq_some_iff : ofPath? path = some className ↔
    '$' ∉ path.toList ∧ ∃ stem, path = stem ++ classSuffix ∧ className = dotted stem := by
  constructor
  · intro known
    cases found : beforeSuffix? classSuffix.toList path.toList with
    | none => simp [ofPath?, found] at known
    | some stem =>
      by_cases nested : '$' ∈ path.toList
      · simp [ofPath?, found, nested] at known
      · have name : className = .ofList (replace '/' ['.'] stem) := by
          simpa [ofPath?, found, nested] using known.symm
        refine ⟨nested, .ofList stem, ?_, by rw [name, replace_eq_map, dotted, String.toList_ofList]⟩
        apply String.toList_inj.1
        simpa using beforeSuffix?_eq_some_iff.1 found
  · rintro ⟨topLevel, stem, rfl, rfl⟩
    have found : beforeSuffix? classSuffix.toList (stem ++ classSuffix).toList = some stem.toList :=
      beforeSuffix?_eq_some_iff.2 String.toList_append
    simp only [ofPath?, found, List.contains_iff_mem, topLevel, if_false, replace_eq_map, dotted]

/-- The root is made of the first segments, and the module is the segment behind them. -/
theorem moduleOf?_eq_some_iff_pieces : moduleOf? root className = some module ↔
    joinChars ['.'] ((pieces '.' className.toList).take rootSegments) = root.toList ∧
      (pieces '.' className.toList)[rootSegments]? = some module.toList := by
  have front : join "." ((split '.' className).take rootSegments) = root ↔
      joinChars ['.'] ((pieces '.' className.toList).take rootSegments) = root.toList := by
    rw [← String.toList_inj]
    simp [join, split, Function.comp_def, ← List.map_take]
  have next : (split '.' className)[rootSegments]? = some module ↔
      (pieces '.' className.toList)[rootSegments]? = some module.toList := by
    simp [split, ← String.toList_inj]
  by_cases same : join "." ((split '.' className).take rootSegments) = root
  · simp only [moduleOf?, same, if_true, next, front.1 same, true_and]
  · simp only [moduleOf?, same, if_false, mt front.2 same, false_and, reduceCtorEq]

theorem moduleOf?_eq_some_iff : moduleOf? root className = some module ↔
    root.toList.count '.' = 3 ∧ '.' ∉ module.toList ∧
      (className = root ++ "." ++ module ∨
        ∃ rest, className = root ++ "." ++ module ++ "." ++ rest) := by
  rw [moduleOf?_eq_some_iff_pieces, rootSegments, take_pieces_iff]
  refine and_congr_right fun _ => ?_
  constructor
  · rintro ⟨tail, whole, first⟩
    obtain ⟨clean, rfl | ⟨rest, rfl⟩⟩ := head?_pieces_eq_some_iff.1 first
    · refine ⟨clean, .inl (String.toList_inj.1 ?_)⟩
      simp [whole]
    · refine ⟨clean, .inr ⟨.ofList rest, String.toList_inj.1 ?_⟩⟩
      simp [whole]
  · rintro ⟨clean, rfl | ⟨rest, rfl⟩⟩
    · exact ⟨module.toList, by simp, head?_pieces_eq_some_iff.2 ⟨clean, .inl rfl⟩⟩
    · exact ⟨module.toList ++ '.' :: rest.toList, by simp,
        head?_pieces_eq_some_iff.2 ⟨clean, .inr ⟨rest.toList, rfl⟩⟩⟩

theorem moduleOf?_congr {c d : String}
    (same : (split '.' c).take (rootSegments + 1) = (split '.' d).take (rootSegments + 1)) :
    moduleOf? root c = moduleOf? root d := by
  have front : (split '.' c).take rootSegments = (split '.' d).take rootSegments := by
    simpa [List.take_take] using congrArg (List.take rootSegments) same
  have next : (split '.' c)[rootSegments]? = (split '.' d)[rootSegments]? := by
    simpa using congrArg (·[rootSegments]?) same
  simp only [moduleOf?, front, next]

theorem bind_moduleOf?_eq_some_iff : (ofPath? path).bind (moduleOf? root) = some module ↔
    '$' ∉ path.toList ∧ root.toList.count '.' = 3 ∧ '.' ∉ module.toList ∧
      ∃ stem, path = stem ++ classSuffix ∧ (dotted stem = root ++ "." ++ module ∨
        ∃ rest, dotted stem = root ++ "." ++ module ++ "." ++ rest) := by
  simp only [Option.bind_eq_some_iff, ofPath?_eq_some_iff, moduleOf?_eq_some_iff]
  constructor
  · rintro ⟨_, ⟨topLevel, stem, whole, rfl⟩, dots, clean, within⟩
    exact ⟨topLevel, dots, clean, stem, whole, within⟩
  · rintro ⟨topLevel, dots, clean, stem, whole, within⟩
    exact ⟨_, ⟨topLevel, stem, whole, rfl⟩, dots, clean, within⟩

/-- A path belongs to a module if and only if it is that of a top-level class whose dotted name goes
on behind the root with the module as a whole segment, where the root must have three dots. So a root
with any other count of dots has no modules, and names with the same first segments share theirs. -/
theorem belongs_iff (root path module : String) :
    ((ofPath? path).bind (moduleOf? root) = some module ↔
      '$' ∉ path.toList ∧ root.toList.count '.' = 3 ∧ '.' ∉ module.toList ∧
        ∃ stem, path = stem ++ ".class" ∧ (dotted stem = root ++ "." ++ module ∨
          ∃ rest, dotted stem = root ++ "." ++ module ++ "." ++ rest)) ∧
    (root.toList.count '.' ≠ 3 → (ofPath? path).bind (moduleOf? root) = none) ∧
    ∀ c d, (split '.' c).take 5 = (split '.' d).take 5 → moduleOf? root c = moduleOf? root d := by
  refine ⟨bind_moduleOf?_eq_some_iff, fun other => ?_, fun c d => moduleOf?_congr⟩
  apply Option.eq_none_iff_forall_ne_some.2
  intro m found
  exact other (bind_moduleOf?_eq_some_iff.1 found).2.1

/-- A directory may have a dot in its name and stand for two segments. A root of three segments has
no modules, and what follows the module changes nothing. -/
theorem belongs_iff_dotted_directory :
    (ofPath? "a/b.c/d/stat/x/Y.class").bind (moduleOf? "a.b.c.d") = some "stat" ∧
    "a.b.c".toList.count '.' ≠ 3 ∧
    (ofPath? "a/b/c/stat/Y.class").bind (moduleOf? "a.b.c") = none ∧
    (split '.' "a.b.c.d.stat").take 5 = (split '.' "a.b.c.d.stat.x.Y").take 5 ∧
    moduleOf? "a.b.c.d" "a.b.c.d.stat" = moduleOf? "a.b.c.d" "a.b.c.d.stat.x.Y" := by
  have four := belongs_iff "a.b.c.d" "a/b.c/d/stat/x/Y.class" "stat"
  have three := belongs_iff "a.b.c" "a/b/c/stat/Y.class" "stat"
  have whole : dotted "a/b.c/d/stat/x/Y" = "a.b.c.d" ++ "." ++ "stat" ++ "." ++ "x.Y" := by decide
  have dots : "a.b.c".toList.count '.' ≠ 3 := by decide
  have same : (split '.' "a.b.c.d.stat").take 5 = (split '.' "a.b.c.d.stat.x.Y").take 5 := by
    decide
  exact ⟨four.1.2 ⟨by decide, by decide, by decide, _, rfl, .inr ⟨_, whole⟩⟩, dots,
    three.2.1 dots, same, four.2.2 _ _ same⟩

end ClassName
end JarAtlas
