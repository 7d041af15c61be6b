import JarAtlas.Proofs.Dot.ModuleDiagram
import JarAtlas.Proofs.Modules.Synthesis

/-! The diagram of an archive, from the names of its modules alone: the layering decides how many
dependencies a module has, and with that its group and its color. -/
namespace JarAtlas
namespace Layering

open Dot

def basicModules : List String := ["util", "exception"]

def advancedModules : List String := ["stat", "optim", "ml", "genetics", "transform"]

theorem size_estimate_basic : ∀ m ∈ basicModules, (estimate m).size = 1 := by decide

theorem size_estimate_advanced : ∀ m ∈ advancedModules, 2 < (estimate m).size := by decide

/-- A row may name no more than the two, which every module has without it. -/
theorem size_estimate_listed :
    ∀ r ∈ table, r.1 ∈ advancedModules ∨ (estimate r.1).size = 2 := by decide

theorem estimate_of_unlisted {module : String} (unlisted : ∀ r ∈ table, r.1 ≠ module)
    (other : module ∉ basicModules) :
    estimate module = .ofList [utilityModule, exceptionModule] := by
  have noRow : extra module = [] := by
    refine List.eq_nil_iff_forall_not_mem.2 fun dep mem => ?_
    obtain ⟨row, listed, -⟩ := mem_extra.1 mem
    exact unlisted _ listed rfl
  have both : ∀ dep ∈ [utilityModule, exceptionModule], decide (dep ≠ module) = true := by
    intro dep mem
    refine decide_eq_true ?_
    rintro rfl
    exact other mem
  rw [estimate, noRow, List.filter_eq_self.2 both]

theorem size_estimate_other {module : String} (other : module ∉ basicModules)
    (lower : module ∉ advancedModules) : (estimate module).size = 2 := by
  by_cases listed : ∃ r ∈ table, r.1 = module
  · obtain ⟨r, mem, rfl⟩ := listed
    exact (size_estimate_listed r mem).resolve_left lower
  · have unlisted : ∀ r ∈ table, r.1 ≠ module := fun r mem same => listed ⟨r, mem, same⟩
    rw [estimate_of_unlisted unlisted other]
    decide

def namesIn : Cluster → List String
  | .basic => basicModules
  | .advanced => advancedModules

theorem admits_size_estimate {c : Cluster} {module : String} :
    c.Admits (estimate module).size ↔ module ∈ namesIn c := by
  by_cases basic : module ∈ basicModules
  · have size := size_estimate_basic module basic
    have apart : ∀ m ∈ basicModules, m ∉ advancedModules := by decide
    have lower := apart module basic
    cases c <;> simp [Cluster.Admits, namesIn, size, basic, lower]
  · by_cases advanced : module ∈ advancedModules
    · have size := size_estimate_advanced module advanced
      cases c with
      | basic =>
        simp only [Cluster.Admits, namesIn, basic, iff_false]
        omega
      | advanced => simp [Cluster.Admits, namesIn, size, advanced]
    · have size := size_estimate_other basic advanced
      cases c <;> simp [Cluster.Admits, namesIn, size, basic, advanced]

theorem size_estimate_ne_zero (module : String) : (estimate module).size ≠ 0 := by
  intro none
  have basic : Cluster.basic.Admits (estimate module).size := .inl none
  have size := size_estimate_basic module (admits_size_estimate.1 basic)
  omega

end Layering

namespace Dot

open Layering

variable {root m : String} {a : Archive}

theorem outDegree_ofArchive (known : m ∈ (Classification.ofArchive root a).modules) :
    (ModuleGraph.ofArchive root a).outDegree m = (estimate m).size := by
  simp [ModuleGraph.outDegree, ModuleGraph.dependencies?_ofArchive, known]

theorem members_ofArchive (c : Cluster) (root : String) (a : Archive) :
    c.members (ModuleGraph.ofArchive root a) =
      (Classification.ofArchive root a).modules.toList.filter (· ∈ namesIn c) := by
  rw [Cluster.members, ModuleGraph.modules_ofArchive]
  refine List.filter_congr fun m known => ?_
  rw [outDegree_ofArchive known, decide_eq_decide, Cluster.ofOutDegree?_eq_some_iff,
    admits_size_estimate]

theorem mem_namesIn_of_mem_members {c : Cluster}
    (mem : m ∈ c.members (ModuleGraph.ofArchive root a)) : m ∈ namesIn c := by
  rw [members_ofArchive] at mem
  exact of_decide_eq_true (List.mem_filter.1 mem).2

/-- The groups of an archive's graph are told by the names of its modules, whatever its classes are:
two names are basic, five are advanced, and any other module has two dependencies and is in neither
group. The text of the diagram declares every module in the color of those that have some. -/
theorem groups_by_name (root : String) (a : Archive) (d : ModuleDiagram) :
    Cluster.basic.members (ModuleGraph.ofArchive root a) =
      (Classification.ofArchive root a).modules.toList.filter (· ∈ ["util", "exception"]) ∧
    Cluster.advanced.members (ModuleGraph.ofArchive root a) =
      (Classification.ofArchive root a).modules.toList.filter
        (· ∈ ["stat", "optim", "ml", "genetics", "transform"]) ∧
    (∀ m ∈ (Classification.ofArchive root a).modules, m ∉ ["util", "exception"] →
      m ∉ ["stat", "optim", "ml", "genetics", "transform"] →
      (ModuleGraph.ofArchive root a).outDegree m = 2 ∧
        ∀ c : Cluster, m ∉ c.members (ModuleGraph.ofArchive root a)) ∧
    ∃ p, Picture.ofText? (d.render (ModuleGraph.ofArchive root a)) = some p ∧
      p.nodes = (Classification.ofArchive root a).modules.toList.map fun m => (m, "lightblue") := by
  refine ⟨members_ofArchive .basic root a, members_ofArchive .advanced root a,
    fun m known other lower => ⟨?_, fun c mem => ?_⟩, ?_⟩
  · rw [outDegree_ofArchive known, size_estimate_other other lower]
  · have named := mem_namesIn_of_mem_members mem
    cases c with
    | basic => exact other named
    | advanced => exact lower named
  · refine ⟨_, ModuleDiagram.ofText?_render d _, ?_⟩
    rw [Picture.ofStatements_ofGraph, ModuleGraph.modules_ofArchive]
    refine List.map_congr_left fun m known => ?_
    rw [outDegree_ofArchive known, ModuleDiagram.fillColor, if_neg (size_estimate_ne_zero m)]

theorem groups_by_name_linear :
    "linear" ∈ (Classification.ofArchive "a.b.c.d"
      (.ofPaths "x" ["a/b/c/d/util/U.class", "a/b/c/d/linear/L.class"])).modules ∧
    (ModuleGraph.ofArchive "a.b.c.d"
      (.ofPaths "x" ["a/b/c/d/util/U.class", "a/b/c/d/linear/L.class"])).outDegree "linear" = 2 := by
  have known : "linear" ∈ (Classification.ofArchive "a.b.c.d"
      (.ofPaths "x" ["a/b/c/d/util/U.class", "a/b/c/d/linear/L.class"])).modules := by decide
  have spec := groups_by_name "a.b.c.d"
    (.ofPaths "x" ["a/b/c/d/util/U.class", "a/b/c/d/linear/L.class"]) {}
  exact ⟨known, (spec.2.2.1 "linear" known (by decide) (by decide)).1⟩

end Dot
end JarAtlas
