import JarAtlas.Modules.Classification
import Mathlib.Data.List.Induction

/-! What the paths of an archive contribute to its classification. Each class has the module that
its name gives it, so that order, repetition and other entries do not count. -/
namespace JarAtlas
namespace Classification

/-- The path is that of a class within the root namespace, in a module. -/
def Contributes (root path className module : String) : Prop :=
  ClassName.ofPath? path = some className ∧ ClassName.moduleOf? root className = some module

/-- The path is that of some class within the root namespace. -/
def Qualifies (root path : String) : Prop :=
  ∃ className module, Contributes root path className module

variable {root path className module : String}

theorem Contributes.module_unique {other module' : String}
    (h : Contributes root path className module)
    (h' : Contributes root other className module') : module = module' :=
  Option.some.inj (h.2.symm.trans h'.2)

theorem addPath_of_contributes (h : Contributes root path className module)
    (c : Classification) : c.addPath root path = c.add className module := by
  simp only [addPath, h.1, h.2]

theorem addPath_of_not_qualifies (h : ¬ Qualifies root path) (c : Classification) :
    c.addPath root path = c := by
  unfold addPath
  split
  · rfl
  · next className known =>
    split
    · rfl
    · next module inside => exact absurd ⟨className, module, known, inside⟩ h

/-- Every class in the map has the module that its name gives it. -/
def Sound (root : String) (c : Classification) : Prop :=
  ∀ className module, c.classes.find? className = some module →
    ClassName.moduleOf? root className = some module

theorem mem_modules_addPath {c : Classification} :
    module ∈ (c.addPath root path).modules ↔
      (∃ className, Contributes root path className module) ∨ module ∈ c.modules := by
  by_cases qualifies : Qualifies root path
  · obtain ⟨added, target, contributes⟩ := qualifies
    rw [addPath_of_contributes contributes, add, NameSet.mem_insert]
    refine or_congr_left ⟨?_, ?_⟩
    · rintro rfl
      exact ⟨added, contributes⟩
    · rintro ⟨className, h⟩
      obtain rfl := Option.some.inj (h.1.symm.trans contributes.1)
      exact h.module_unique contributes
  · rw [addPath_of_not_qualifies qualifies]
    have foreign : ¬ ∃ className, Contributes root path className module :=
      fun ⟨className, h⟩ => qualifies ⟨className, module, h⟩
    simp only [foreign, false_or]

theorem find?_classes_addPath {c : Classification} (sound : c.Sound root) :
    (c.addPath root path).classes.find? className = some module ↔
      Contributes root path className module ∨ c.classes.find? className = some module := by
  by_cases qualifies : Qualifies root path
  · obtain ⟨added, target, contributes⟩ := qualifies
    rw [addPath_of_contributes contributes, add, NameTable.find?_insert]
    by_cases same : className = added
    · subst same
      rw [if_pos rfl]
      constructor
      · rintro ⟨⟩
        exact .inl contributes
      · rintro (h | h)
        · rw [h.module_unique contributes]
        · rw [← sound _ _ h, contributes.2]
    · rw [if_neg same]
      have foreign : ¬ Contributes root path className module :=
        fun h => same (Option.some.inj (h.1.symm.trans contributes.1))
      simp only [foreign, false_or]
  · rw [addPath_of_not_qualifies qualifies]
    have foreign : ¬ Contributes root path className module :=
      fun h => qualifies ⟨className, module, h⟩
    simp only [foreign, false_or]

theorem Sound.addPath {c : Classification} (sound : c.Sound root) :
    (c.addPath root path).Sound root := by
  intro className module found
  rcases (find?_classes_addPath sound).1 found with h | h
  · exact h.2
  · exact sound className module h

theorem ofPaths_concat (paths : List String) :
    ofPaths root (paths ++ [path]) = (ofPaths root paths).addPath root path := by
  simp only [ofPaths, List.foldl_append, List.foldl_cons, List.foldl_nil]

theorem sound_ofPaths (paths : List String) : (ofPaths root paths).Sound root := by
  induction paths using List.reverseRecOn with
  | nil =>
    intro className module found
    simp [ofPaths, empty] at found
  | append_singleton paths path ih =>
    rw [ofPaths_concat]
    exact ih.addPath

theorem mem_modules_ofPaths {paths : List String} :
    module ∈ (ofPaths root paths).modules ↔
      ∃ path ∈ paths, ∃ className, Contributes root path className module := by
  induction paths using List.reverseRecOn with
  | nil => simp [ofPaths, empty]
  | append_singleton paths path ih =>
    rw [ofPaths_concat, mem_modules_addPath, ih]
    simp only [List.mem_append, List.mem_singleton, or_and_right, exists_or, exists_eq_left]
    exact or_comm

theorem find?_classes_ofPaths {paths : List String} :
    (ofPaths root paths).classes.find? className = some module ↔
      ∃ path ∈ paths, Contributes root path className module := by
  induction paths using List.reverseRecOn with
  | nil => simp [ofPaths, empty]
  | append_singleton paths path ih =>
    rw [ofPaths_concat, find?_classes_addPath (sound_ofPaths paths), ih]
    simp only [List.mem_append, List.mem_singleton, or_and_right, exists_or, exists_eq_left]
    exact or_comm

theorem mem_modules_iff_classes {paths : List String} :
    module ∈ (ofPaths root paths).modules ↔
      ∃ className, (ofPaths root paths).classes.find? className = some module := by
  simp only [mem_modules_ofPaths, find?_classes_ofPaths]
  constructor
  · rintro ⟨path, mem, className, h⟩
    exact ⟨className, path, mem, h⟩
  · rintro ⟨className, path, mem, h⟩
    exact ⟨path, mem, className, h⟩

theorem mem_modules_append {a b c : Archive} (paths : c.paths = a.paths ++ b.paths)
    (module : String) :
    module ∈ (ofArchive root c).modules ↔
      module ∈ (ofArchive root a).modules ∨ module ∈ (ofArchive root b).modules := by
  simp only [ofArchive, mem_modules_ofPaths, paths, List.mem_append, or_and_right, exists_or]

theorem find?_classes_append {a b c : Archive} (paths : c.paths = a.paths ++ b.paths)
    (className module : String) :
    (ofArchive root c).classes.find? className = some module ↔
      (ofArchive root a).classes.find? className = some module ∨
        (ofArchive root b).classes.find? className = some module := by
  simp only [ofArchive, find?_classes_ofPaths, paths, List.mem_append, or_and_right, exists_or]

end Classification
end JarAtlas
