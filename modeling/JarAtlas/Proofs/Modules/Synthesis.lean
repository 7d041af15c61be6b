import JarAtlas.Dot.ModuleDiagram
import JarAtlas.Modules.Synthesis
import JarAtlas.Proofs.Modules.Classification

/-! The module graph of an archive, from the set of its class paths alone: its modules are those of
the classification, and each has the dependencies that the layering gives it. -/
namespace JarAtlas
namespace Layering

/-- A module rests on the two, and on what stands in its row of the table, but not on itself. -/
def RestsOn (module dep : String) : Prop :=
  (dep = "util" ∨ dep = "exception" ∨ ∃ row, (module, row) ∈ table ∧ dep ∈ row) ∧ dep ≠ module

theorem lookup_of_mem {rows : List (String × List String)} {module : String} {row : List String}
    (distinct : (rows.map Prod.fst).Nodup) (mem : (module, row) ∈ rows) :
    rows.lookup module = some row := by
  induction rows with
  | nil => simp at mem
  | cons r rows ih =>
    rw [List.map_cons, List.nodup_cons] at distinct
    rcases List.mem_cons.1 mem with rfl | mem
    · exact List.lookup_cons_self
    · have other : (module == r.1) = false := by
        refine beq_false_of_ne fun e => distinct.1 ?_
        exact List.mem_map.2 ⟨(module, row), mem, e⟩
      rw [List.lookup_cons, other]
      exact ih distinct.2 mem

theorem table_distinct : (table.map Prod.fst).Nodup := by decide

theorem mem_extra {module dep : String} :
    dep ∈ extra module ↔ ∃ row, (module, row) ∈ table ∧ dep ∈ row := by
  constructor
  · intro mem
    unfold extra at mem
    cases found : table.lookup module with
    | none => simp [found] at mem
    | some row =>
      obtain ⟨before, after, rows, -⟩ := List.lookup_eq_some_iff.1 found
      refine ⟨row, by simp [rows], ?_⟩
      simpa [found] using mem
  · rintro ⟨row, listed, mem⟩
    rw [extra, lookup_of_mem table_distinct listed]
    exact mem

theorem mem_estimate_iff_restsOn {module dep : String} :
    dep ∈ estimate module ↔ RestsOn module dep := by
  rw [mem_estimate, mem_extra]
  exact Iff.rfl

end Layering

namespace ModuleGraph

theorem estimate_eq {root className module : String}
    (inside : ClassName.moduleOf? root className = some module) :
    estimate root className = Layering.estimate module := by
  simp only [estimate, inside]

/-- Dependencies of a module join those that it has, apart from the module itself, and the other
modules keep theirs. -/
theorem dependencies?_foldl_addDependency {module x : String} (deps : List String)
    {g : ModuleGraph} {own : NameSet} (found : g.dependencies? module = some own) :
    (deps.foldl (fun g dep => g.addDependency module dep) g).dependencies? x =
      if x = module then some ((deps.filter (· ≠ module)).foldl NameSet.insert own)
      else g.dependencies? x := by
  induction deps generalizing g own with
  | nil =>
    split
    · next same => rw [same]; exact found
    · rfl
  | cons dep deps ih =>
    by_cases itself : module = dep
    · subst itself
      have step : (g.addDependency module module).dependencies? module = some own := by
        simp [found]
      rw [List.foldl_cons, ih step]
      split
      · simp
      · next other => simp [other]
    · have step : (g.addDependency module dep).dependencies? module = some (own.insert dep) := by
        simp [itself, found]
      rw [List.foldl_cons, ih step]
      split
      · simp [Ne.symm itself]
      · next other => simp [other]

/-- What a class adds is what the layering says about its module, so that a further class of the
module adds nothing. -/
theorem dependencies?_addClass {root className module x : String} {g : ModuleGraph}
    (inside : ClassName.moduleOf? root className = some module)
    (earlier : ∀ deps, g.dependencies? module = some deps → deps = Layering.estimate module) :
    (addClass root g className module).dependencies? x =
      if x = module then some (Layering.estimate module) else g.dependencies? x := by
  have found : (g.addModule module).dependencies? module =
      some ((g.dependencies? module).getD .empty) := by simp
  have own : ((Layering.estimate module).toList.filter (· ≠ module)).foldl NameSet.insert
      ((g.dependencies? module).getD .empty) = Layering.estimate module := by
    refine NameSet.eq_of_mem_iff fun dep => ?_
    rw [NameSet.mem_foldl_insert, List.mem_filter, ← NameSet.mem_def]
    cases known : g.dependencies? module with
    | none =>
      have foreign : dep ∈ Layering.estimate module → dep ≠ module :=
        fun mem => (Layering.mem_estimate.1 mem).2
      simpa using foreign
    | some deps =>
      rw [earlier deps known]
      exact or_iff_right_of_imp And.left
  rw [addClass, estimate_eq inside, dependencies?_foldl_addDependency _ found, own]
  split
  · rfl
  · next other => simp [other]

theorem dependencies?_foldl_addClass {root x : String} {es : List (String × String)}
    (inside : ∀ e ∈ es, ClassName.moduleOf? root e.1 = some e.2) :
    (es.foldl (fun g e => addClass root g e.1 e.2) empty).dependencies? x =
      if x ∈ es.map Prod.snd then some (Layering.estimate x) else none := by
  induction es using List.reverseRecOn generalizing x with
  | nil => simp
  | append_singleton es e ih =>
    have before := fun x => ih (x := x) fun e he => inside e (by simp [he])
    have earlier : ∀ deps, (es.foldl (fun g e => addClass root g e.1 e.2) empty).dependencies? e.2
        = some deps → deps = Layering.estimate e.2 := by
      intro deps found
      rw [before] at found
      split at found
      · exact (Option.some.inj found).symm
      · cases found
    rw [List.foldl_append, List.foldl_cons, List.foldl_nil,
      dependencies?_addClass (inside e (by simp)) earlier, before]
    have last : x ∈ (es ++ [e]).map Prod.snd ↔ x = e.2 ∨ x ∈ es.map Prod.snd := by
      rw [List.map_append, List.mem_append, List.map_singleton, List.mem_singleton, or_comm]
    simp only [last]
    by_cases same : x = e.2
    · simp [same]
    · simp only [same, if_false, false_or]

theorem dependencies?_ofArchive (root : String) (a : Archive) (x : String) :
    (ofArchive root a).dependencies? x =
      if x ∈ (Classification.ofArchive root a).modules then some (Layering.estimate x)
      else none := by
  have sound : (Classification.ofPaths root a.paths).Sound root :=
    Classification.sound_ofPaths a.paths
  have inside : ∀ e ∈ (Classification.ofArchive root a).classes.entries,
      ClassName.moduleOf? root e.1 = some e.2 :=
    fun e he => sound e.1 e.2 (NameTable.mem_entries_iff.1 he)
  have listed : x ∈ (Classification.ofArchive root a).classes.entries.map Prod.snd ↔
      x ∈ (Classification.ofArchive root a).modules := by
    rw [Classification.ofArchive, Classification.mem_modules_iff_classes, List.mem_map]
    constructor
    · rintro ⟨e, he, rfl⟩
      exact ⟨e.1, NameTable.mem_entries_iff.1 he⟩
    · rintro ⟨className, found⟩
      exact ⟨(className, x), NameTable.mem_entries_iff.2 found, rfl⟩
  rw [ofArchive, ofClassification, dependencies?_foldl_addClass inside]
  simp only [listed]

theorem mem_modules_ofArchive {root x : String} {a : Archive} :
    x ∈ (ofArchive root a).modules ↔ x ∈ (Classification.ofArchive root a).modules := by
  rw [mem_modules_iff, dependencies?_ofArchive]
  split <;> simp_all

theorem modules_ofArchive (root : String) (a : Archive) :
    (ofArchive root a).modules = (Classification.ofArchive root a).modules.toList :=
  NameSet.eq_of_ascending (ofArchive root a).dependencies.ascending
    (Classification.ofArchive root a).modules.ascending fun _ => mem_modules_ofArchive

/-- Archives with the same class paths within the root namespace. -/
def SameClasses (root : String) (a b : Archive) : Prop :=
  ∀ path, Classification.Qualifies root path → (path ∈ a.paths ↔ path ∈ b.paths)

theorem SameClasses.mem_modules {root x : String} {a b : Archive} (same : SameClasses root a b) :
    x ∈ (Classification.ofArchive root a).modules ↔
      x ∈ (Classification.ofArchive root b).modules := by
  rw [Classification.ofArchive, Classification.ofArchive, Classification.mem_modules_ofPaths,
    Classification.mem_modules_ofPaths]
  constructor
  · rintro ⟨path, mem, className, h⟩
    exact ⟨path, (same path ⟨className, x, h⟩).1 mem, className, h⟩
  · rintro ⟨path, mem, className, h⟩
    exact ⟨path, (same path ⟨className, x, h⟩).2 mem, className, h⟩

theorem SameClasses.ofArchive_eq {root : String} {a b : Archive} (same : SameClasses root a b) :
    ofArchive root a = ofArchive root b := by
  refine ext_dependencies? fun x => ?_
  rw [dependencies?_ofArchive, dependencies?_ofArchive]
  simp only [same.mem_modules]

theorem mem_modules_of_append {root x : String} {a b c : Archive}
    (paths : c.paths = a.paths ++ b.paths) :
    x ∈ (ofArchive root c).modules ↔
      x ∈ (ofArchive root a).modules ∨ x ∈ (ofArchive root b).modules := by
  simp only [mem_modules_ofArchive, Classification.mem_modules_append paths]

theorem dependencies?_congr {root x : String} {a b : Archive}
    (left : x ∈ (ofArchive root a).modules) (right : x ∈ (ofArchive root b).modules) :
    (ofArchive root a).dependencies? x = (ofArchive root b).dependencies? x := by
  rw [dependencies?_ofArchive, dependencies?_ofArchive, if_pos (mem_modules_ofArchive.1 left),
    if_pos (mem_modules_ofArchive.1 right)]

/-- The graph of an archive is what its set of class paths says: its modules, the dependencies of
each, and nothing that hangs on order, repetition or other entries. -/
theorem ofArchive_spec (root : String) (a : Archive) :
    (ofArchive root a).modules = (Classification.ofArchive root a).modules.toList ∧
    (∀ m ∈ (Classification.ofArchive root a).modules, ∃ deps,
      (ofArchive root a).dependencies? m = some deps ∧ m ∉ deps ∧
      (∀ dep, dep ∈ deps ↔ Layering.RestsOn m dep) ∧
      ∀ className, (Classification.ofArchive root a).classes.find? className = some m →
        estimate root className = deps) ∧
    (∀ b, SameClasses root a b → ofArchive root a = ofArchive root b ∧
      ∀ d : Dot.ModuleDiagram, d.render (ofArchive root a) = d.render (ofArchive root b)) ∧
    ∀ b c : Archive, c.paths = a.paths ++ b.paths →
      (∀ m, m ∈ (ofArchive root c).modules ↔
        m ∈ (ofArchive root a).modules ∨ m ∈ (ofArchive root b).modules) ∧
      (∀ m ∈ (ofArchive root a).modules,
        (ofArchive root c).dependencies? m = (ofArchive root a).dependencies? m) ∧
      ∀ m ∈ (ofArchive root b).modules,
        (ofArchive root c).dependencies? m = (ofArchive root b).dependencies? m := by
  refine ⟨modules_ofArchive root a, ?_, ?_, ?_⟩
  · intro m hm
    have rests (dep : String) : dep ∈ Layering.estimate m ↔ Layering.RestsOn m dep :=
      Layering.mem_estimate_iff_restsOn
    refine ⟨Layering.estimate m, ?_, fun self => ((rests m).1 self).2 rfl, rests, ?_⟩
    · rw [dependencies?_ofArchive, if_pos hm]
    · intro className found
      exact estimate_eq (Classification.sound_ofPaths a.paths className m found)
  · intro b same
    have graphs := same.ofArchive_eq
    exact ⟨graphs, fun d => by rw [graphs]⟩
  · intro b c paths
    have union (m : String) : m ∈ (ofArchive root c).modules ↔
        m ∈ (ofArchive root a).modules ∨ m ∈ (ofArchive root b).modules :=
      mem_modules_of_append paths
    exact ⟨union, fun m hm => dependencies?_congr ((union m).2 (.inl hm)) hm,
      fun m hm => dependencies?_congr ((union m).2 (.inr hm)) hm⟩

/-- A second entry for a class and an entry that is no class do not change the graph. -/
theorem ofArchive_spec_repeated_class :
    SameClasses "a.b.c.d" (.ofPaths "one" ["a/b/c/d/stat/X.class"])
      (.ofPaths "two" ["NOTICE", "a/b/c/d/stat/X.class", "a/b/c/d/stat/X.class"]) ∧
    ofArchive "a.b.c.d" (.ofPaths "one" ["a/b/c/d/stat/X.class"]) =
      ofArchive "a.b.c.d"
        (.ofPaths "two" ["NOTICE", "a/b/c/d/stat/X.class", "a/b/c/d/stat/X.class"]) := by
  have same : SameClasses "a.b.c.d" (.ofPaths "one" ["a/b/c/d/stat/X.class"])
      (.ofPaths "two" ["NOTICE", "a/b/c/d/stat/X.class", "a/b/c/d/stat/X.class"]) := by
    rintro path ⟨className, module, known, -⟩
    have other : path ≠ "NOTICE" := by
      rintro rfl
      have none : ClassName.ofPath? "NOTICE" = none := by decide
      rw [none] at known
      cases known
    simp [other]
  exact ⟨same, ((ofArchive_spec _ _).2.2.1 _ same).1⟩

end ModuleGraph
end JarAtlas
