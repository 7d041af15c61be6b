import JarAtlas.Proofs.Modules.Classification
import JarAtlas.Proofs.Modules.ClassName
import Mathlib.Data.List.Perm.Subperm

/-! How the classification of an archive agrees with the kinds of its entries: which paths have a
class name, how many classes there can be, and what becomes of two lists of entries put together. -/
namespace JarAtlas

open Text

namespace EntryKind

theorem ofPath_append_classSuffix (stem : String) : ofPath (stem ++ classSuffix) = .classFile := by
  have noDirectory : (stem ++ classSuffix).toList.getLast? ≠ some '/' := by
    simp [classSuffix]
  have noManifest : sameIgnoringCase (stem ++ classSuffix) manifestPath ≠ true := by
    rw [Ne, sameIgnoringCase_iff]
    intro same
    have last := congrArg (fun s => s.toList.getLast?) same
    simp [lower, classSuffix, manifestPath] at last
  have ended : classSuffix.toList.isSuffixOf (stem ++ classSuffix).toList = true := by
    simp
  rw [ofPath, if_neg noDirectory, if_neg noManifest, if_pos ended]

theorem ofPath_eq_classFile_iff {path : String} :
    ofPath path = .classFile ↔ ∃ stem, path = stem ++ classSuffix := by
  constructor
  · intro isClass
    by_cases ended : classSuffix.toList.isSuffixOf path.toList = true
    · obtain ⟨stem, whole⟩ := List.isSuffixOf_iff_suffix.1 ended
      refine ⟨.ofList stem, String.toList_inj.1 ?_⟩
      simp [← whole]
    · rw [ofPath, if_neg ended] at isClass
      split_ifs at isClass
  · rintro ⟨stem, rfl⟩
    exact ofPath_append_classSuffix stem

end EntryKind

namespace ClassName

theorem isSome_ofPath?_iff {path : String} :
    (ofPath? path).isSome ↔ EntryKind.ofPath path = .classFile ∧ '$' ∉ path.toList := by
  simp only [Option.isSome_iff_exists, ofPath?_eq_some_iff, EntryKind.ofPath_eq_classFile_iff]
  constructor
  · rintro ⟨_, topLevel, stem, whole, -⟩
    exact ⟨⟨stem, whole⟩, topLevel⟩
  · rintro ⟨⟨stem, whole⟩, topLevel⟩
    exact ⟨dotted stem, topLevel, stem, whole, rfl⟩

end ClassName

namespace Archive

def topLevelEntries (a : Archive) : List (String × EntryKind) :=
  a.entries.filter fun e => e.2 = .classFile ∧ '$' ∉ e.1.toList

theorem length_topLevelEntries (a : Archive) :
    a.topLevelEntries.length = (a.paths.filterMap ClassName.ofPath?).length := by
  rw [topLevelEntries, entries, List.filter_map, List.length_map, List.length_filterMap_eq_countP,
    List.countP_eq_length_filter]
  congr 2
  funext path
  rw [Bool.eq_iff_iff, ClassName.isSome_ofPath?_iff]
  simp

theorem length_topLevelEntries_le (a : Archive) : a.topLevelEntries.length ≤ a.classCount := by
  have classes : a.classCount = (a.entries.filter fun e => e.2 = .classFile).length := by
    rw [classCount, entries, List.filter_map, List.length_map]
    rfl
  rw [classes, topLevelEntries, ← List.countP_eq_length_filter, ← List.countP_eq_length_filter]
  refine List.countP_mono_left fun e _ isTopLevel => ?_
  simp only [decide_eq_true_eq] at isTopLevel ⊢
  exact isTopLevel.1

end Archive

namespace Classification

variable {root : String}

/-- Classes are found by their names, so each takes an entry of its own. -/
theorem size_classes_le (root : String) (a : Archive) :
    (ofArchive root a).classes.size ≤ a.topLevelEntries.length := by
  have known : (ofArchive root a).classes.names ⊆ a.paths.filterMap ClassName.ofPath? := by
    intro className listed
    obtain ⟨module, found⟩ := Option.isSome_iff_exists.1 (NameTable.mem_names_iff.1 listed)
    obtain ⟨path, mem, contributes⟩ := find?_classes_ofPaths.1 found
    exact List.mem_filterMap.2 ⟨path, mem, contributes.1⟩
  have count := (List.subperm_of_subset (ofArchive root a).classes.nodup_names known).length_le
  rwa [NameTable.names, List.length_map, ← Archive.length_topLevelEntries] at count

theorem find?_classes_ofArchive {a : Archive} {className module : String} :
    (ofArchive root a).classes.find? className = some module ↔
      ClassName.moduleOf? root className = some module ∧
        ∃ path ∈ a.paths, ClassName.ofPath? path = some className := by
  rw [ofArchive, find?_classes_ofPaths]
  constructor
  · rintro ⟨path, mem, known, inside⟩
    exact ⟨inside, path, mem, known⟩
  · rintro ⟨inside, path, mem, known⟩
    exact ⟨path, mem, known, inside⟩

/-- Names of classes and kinds of entries agree. The modules of a classification are those of its
classes; a class is there if and only if an entry has its name, which also gives it its module; there
are no more classes than entries for them; and entries put together are classified together. -/
theorem agrees_with_entries (root : String) (a : Archive) :
    (∀ path, (ClassName.ofPath? path).isSome ↔
      EntryKind.ofPath path = .classFile ∧ '$' ∉ path.toList) ∧
    (∀ m, m ∈ (ofArchive root a).modules ↔
      ∃ className, (ofArchive root a).classes.find? className = some m) ∧
    (∀ className m, (ofArchive root a).classes.find? className = some m ↔
      ClassName.moduleOf? root className = some m ∧
        ∃ path ∈ a.paths, ClassName.ofPath? path = some className) ∧
    (ofArchive root a).classes.size ≤
      (a.entries.filter fun e => e.2 = .classFile ∧ '$' ∉ e.1.toList).length ∧
    (ofArchive root a).classes.size ≤ a.classCount ∧
    ∀ b c : Archive, c.paths = a.paths ++ b.paths →
      (∀ m, m ∈ (ofArchive root c).modules ↔
        m ∈ (ofArchive root a).modules ∨ m ∈ (ofArchive root b).modules) ∧
      ∀ className m, (ofArchive root c).classes.find? className = some m ↔
        (ofArchive root a).classes.find? className = some m ∨
          (ofArchive root b).classes.find? className = some m :=
  ⟨fun _ => ClassName.isSome_ofPath?_iff, fun _ => mem_modules_iff_classes,
    fun _ _ => find?_classes_ofArchive, size_classes_le root a,
    Nat.le_trans (size_classes_le root a) a.length_topLevelEntries_le,
    fun _ _ paths => ⟨mem_modules_append paths, find?_classes_append paths⟩⟩

def mixedEntries : Archive :=
  .ofPaths "x" ["a/b/c/d/stat/X.class", "a.b/c/d/stat/X.class", "a/b/c/d/stat/X$Y.class", "Z.class"]

/-- Both paths lead to one class, so that one class comes from four class files, and it stays when
other entries are put behind. -/
theorem agrees_with_entries_mixed :
    (ofArchive "a.b.c.d" mixedEntries).classes.find? "a.b.c.d.stat.X" = some "stat" ∧
    (ofArchive "a.b.c.d" mixedEntries).classes.size ≤ 3 ∧ mixedEntries.classCount = 4 ∧
    (⟨"y", mixedEntries.paths ++ ["a/b/c/d/ml/K.class"], none⟩ : Archive).paths =
      mixedEntries.paths ++ (Archive.ofPaths "z" ["a/b/c/d/ml/K.class"]).paths ∧
    (ofArchive "a.b.c.d" ⟨"y", mixedEntries.paths ++ ["a/b/c/d/ml/K.class"], none⟩).classes.find?
      "a.b.c.d.stat.X" = some "stat" := by
  obtain ⟨-, -, classes, size, -, together⟩ := agrees_with_entries "a.b.c.d" mixedEntries
  have listed : "a.b/c/d/stat/X.class" ∈ mixedEntries.paths := by decide
  have found := (classes "a.b.c.d.stat.X" "stat").2 ⟨by decide, _, listed, by decide⟩
  have both := together (.ofPaths "z" ["a/b/c/d/ml/K.class"])
    ⟨"y", mixedEntries.paths ++ ["a/b/c/d/ml/K.class"], none⟩ rfl
  exact ⟨found, Nat.le_trans size (by decide), by decide, rfl, (both.2 _ _).2 (.inl found)⟩

end Classification
end JarAtlas
