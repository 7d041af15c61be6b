import JarAtlas.Proofs.Modules.Synthesis
import Mathlib.Data.List.Chain

/-! Graphs of archives are built in layers. Below everything lie two modules that may depend on each
other, and every other dependency leads to a lower layer, so that no walk along dependencies comes
back to where it was, except between those two. -/
namespace JarAtlas
namespace Layering

def IsGround (module : String) : Prop := module = utilityModule ∨ module = exceptionModule

instance (module : String) : Decidable (IsGround module) :=
  inferInstanceAs (Decidable (module = utilityModule ∨ module = exceptionModule))

/-- How many layers lie below a module, as far as so many steps down the table tell. -/
def heightWithin : Nat → String → Nat
  | 0, _ => 0
  | steps + 1, module =>
    ((extra module).filter fun dep => ¬ IsGround dep).foldr
      (fun dep above => max (heightWithin steps dep + 1) above) 0

/-- A way down the table never meets a row twice, so that it has no more steps than rows. -/
def height (module : String) : Nat := heightWithin table.length module

theorem table_descends :
    ∀ r ∈ table, ¬ IsGround r.1 ∧ ∀ dep ∈ r.2, IsGround dep ∨ height dep < height r.1 := by
  decide

/-- A module rests on the two and on modules of lower layers, and the two only on each other. -/
theorem RestsOn.descends {module dep : String} (rests : RestsOn module dep) :
    IsGround dep ∨ ¬ IsGround module ∧ height dep < height module := by
  obtain ⟨util | exception | ⟨row, listed, mem⟩, -⟩ := rests
  · exact .inl (.inl util)
  · exact .inl (.inr exception)
  · obtain ⟨above, below⟩ := table_descends (module, row) listed
    rcases below dep mem with ground | lower
    · exact .inl ground
    · exact .inr ⟨above, lower⟩

end Layering

namespace ModuleGraph

open Layering

/-- A module of the graph depends on another, which need not be one. -/
def DependsOn (g : ModuleGraph) (source target : String) : Prop :=
  ∃ deps, g.dependencies? source = some deps ∧ target ∈ deps

/-- A closed walk of at least one step comes by. It starts anywhere and ends where it started. -/
def OnClosedWalk (step : String → String → Prop) (x : String) : Prop :=
  ∃ start rest, rest.getLast? = some start ∧ (start :: rest).IsChain step ∧ x ∈ start :: rest

theorem OnClosedWalk.returns {step : String → String → Prop} {x : String}
    (h : OnClosedWalk step x) : Relation.TransGen step x x := by
  obtain ⟨start, rest, last, walk, visited⟩ := h
  have steps : (start :: rest).IsChain (Relation.TransGen step) := walk.imp fun _ _ => .single
  have ends : start ∈ rest := List.mem_of_getLast? last
  have mem : x ∈ rest := by
    rcases List.mem_cons.1 visited with rfl | mem
    · exact ends
    · exact mem
  have there : Relation.TransGen step start x := steps.rel_cons mem
  obtain ⟨before, after, rfl⟩ := List.append_of_mem mem
  rw [← List.cons_append] at steps
  have back : (x :: after).IsChain (Relation.TransGen step) := steps.right_of_append
  cases after with
  | nil =>
    obtain rfl : x = start := by simpa using last
    exact there
  | cons next after =>
    have home : start ∈ next :: after := by
      refine List.mem_of_getLast? ?_
      simpa using last
    exact (back.rel_cons home).trans there

variable {root s t x : String} {a : Archive}

theorem dependsOn_ofArchive : (ofArchive root a).DependsOn s t ↔
    s ∈ (Classification.ofArchive root a).modules ∧ RestsOn s t := by
  unfold DependsOn
  rw [dependencies?_ofArchive]
  split
  · next known =>
    rw [← mem_estimate_iff_restsOn]
    simp [known]
  · next unknown => simp [unknown]

/-- Walking on from a module that is none of the two leads down or to one of the two. -/
theorem descends_of_walk (walk : Relation.TransGen (ofArchive root a).DependsOn s t) :
    IsGround t ∨ height t < height s := by
  induction walk with
  | single step => exact (dependsOn_ofArchive.1 step).2.descends.imp_right And.right
  | tail _ step ih =>
    rcases (dependsOn_ofArchive.1 step).2.descends with ground | ⟨above, lower⟩
    · exact .inl ground
    · exact .inr (lower.trans (ih.resolve_left above))

theorem isGround_of_onClosedWalk (h : OnClosedWalk (ofArchive root a).DependsOn x) :
    IsGround x :=
  (descends_of_walk h.returns).resolve_right (lt_irrefl _)

theorem onClosedWalk_of_both (util : utilityModule ∈ (Classification.ofArchive root a).modules)
    (exception : exceptionModule ∈ (Classification.ofArchive root a).modules) (ground : IsGround x) :
    OnClosedWalk (ofArchive root a).DependsOn x := by
  have down : (ofArchive root a).DependsOn utilityModule exceptionModule :=
    dependsOn_ofArchive.2 ⟨util, .inr (.inl rfl), by decide⟩
  have up : (ofArchive root a).DependsOn exceptionModule utilityModule :=
    dependsOn_ofArchive.2 ⟨exception, .inl rfl, by decide⟩
  refine ⟨utilityModule, [exceptionModule, utilityModule], rfl, ?_, ?_⟩
  · exact .cons_cons down (.cons_cons up (.singleton _))
  · rcases ground with rfl | rfl <;> simp

theorem both_of_onClosedWalk (h : OnClosedWalk (ofArchive root a).DependsOn x) :
    utilityModule ∈ (Classification.ofArchive root a).modules ∧
      exceptionModule ∈ (Classification.ofArchive root a).modules := by
  have ground := isGround_of_onClosedWalk h
  obtain ⟨y, step, back⟩ := Relation.TransGen.head'_iff.1 h.returns
  obtain ⟨known, rests⟩ := dependsOn_ofArchive.1 step
  have other : y ≠ x := rests.2
  have below : IsGround y := rests.descends.resolve_right fun above => above.1 ground
  have further : y ∈ (Classification.ofArchive root a).modules := by
    rcases Relation.ReflTransGen.cases_head back with rfl | ⟨z, next, -⟩
    · exact absurd rfl other
    · exact (dependsOn_ofArchive.1 next).1
  rcases ground with rfl | rfl
  · rcases below with rfl | rfl
    · exact absurd rfl other
    · exact ⟨known, further⟩
  · rcases below with rfl | rfl
    · exact ⟨further, known⟩
    · exact absurd rfl other

theorem OnClosedWalk.imp {step wider : String → String → Prop} {x : String}
    (h : OnClosedWalk step x) (into : ∀ s t, step s t → wider s t) : OnClosedWalk wider x := by
  obtain ⟨start, rest, last, walk, visited⟩ := h
  exact ⟨start, rest, last, walk.imp into, visited⟩

/-- Closed walks along the dependencies of an archive's graph come by two modules only, and by these
if and only if the archive has both. Without the two there is no closed walk. -/
theorem ofArchive_layered (root : String) (a : Archive) :
    (∀ x, OnClosedWalk (ofArchive root a).DependsOn x ↔
      (x = "util" ∨ x = "exception") ∧ "util" ∈ (Classification.ofArchive root a).modules ∧
        "exception" ∈ (Classification.ofArchive root a).modules) ∧
    ∀ x, ¬ OnClosedWalk (fun s t => (ofArchive root a).DependsOn s t ∧
      s ∉ ["util", "exception"] ∧ t ∉ ["util", "exception"]) x := by
  refine ⟨fun x => ⟨fun h => ?_, fun h => ?_⟩, fun x h => ?_⟩
  · exact ⟨isGround_of_onClosedWalk h, both_of_onClosedWalk h⟩
  · obtain ⟨ground, util, exception⟩ := h
    exact onClosedWalk_of_both util exception ground
  · have ground : IsGround x := isGround_of_onClosedWalk (h.imp fun _ _ step => step.1)
    obtain ⟨_, step, -⟩ := Relation.TransGen.head'_iff.1 h.returns
    refine step.2.1 ?_
    rcases ground with rfl | rfl <;> decide

end ModuleGraph
end JarAtlas
