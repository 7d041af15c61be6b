import JarAtlas.Proofs.Dot.Picture
import Mathlib.Data.List.Sort
import Mathlib.Data.Prod.Lex

/-! A module diagram shows of its graph the modules, which of them have dependencies, the
dependencies between modules and the two groups, and nothing else. -/
namespace JarAtlas
namespace Dot

namespace Cluster

/-- The counts of dependencies that put a module in a group. -/
def Admits : Cluster → Nat → Prop
  | .basic, n => n = 0 ∨ n = 1
  | .advanced, n => 2 < n

theorem ofOutDegree?_eq_some_iff {c : Cluster} {n : Nat} :
    ofOutDegree? n = some c ↔ c.Admits n := by
  unfold ofOutDegree?
  cases c with
  | basic =>
    simp only [Admits]
    grind
  | advanced =>
    simp only [Admits]
    grind

theorem mem_members {c : Cluster} {g : ModuleGraph} {m : String} :
    m ∈ c.members g ↔ ∃ deps, g.dependencies? m = some deps ∧ c.Admits deps.size := by
  rw [members, List.mem_filter, decide_eq_true_iff, ofOutDegree?_eq_some_iff,
    ModuleGraph.mem_modules_iff, Option.isSome_iff_exists]
  constructor
  · rintro ⟨⟨deps, found⟩, admits⟩
    refine ⟨deps, found, ?_⟩
    simpa [ModuleGraph.outDegree, found] using admits
  · rintro ⟨deps, found, admits⟩
    refine ⟨⟨deps, found⟩, ?_⟩
    simpa [ModuleGraph.outDegree, found] using admits

theorem members_ascending (c : Cluster) (g : ModuleGraph) : (c.members g).Pairwise (· < ·) :=
  g.dependencies.ascending.filter _

def shown (c : Cluster) (g : ModuleGraph) : List (String × List String) :=
  if (c.members g).isEmpty then [] else [(c.id, c.members g)]

theorem mem_shown {c : Cluster} {g : ModuleGraph} {e : String × List String} :
    e ∈ c.shown g ↔ e = (c.id, c.members g) ∧ c.members g ≠ [] := by
  unfold shown
  split
  · next empty => simp [List.isEmpty_iff.1 empty]
  · next inhabited => simpa [List.isEmpty_iff] using fun _ => inhabited

theorem map_fst_shown_sublist (c : Cluster) (g : ModuleGraph) :
    ((c.shown g).map Prod.fst).Sublist [c.id] := by
  unfold shown
  split
  · exact List.nil_sublist _
  · exact List.Sublist.refl _

theorem id_injective : ∀ {c d : Cluster}, c.id = d.id → c = d := by
  intro c d h
  cases c <;> cases d <;> first | rfl | exact absurd h (by decide)

end Cluster

namespace Statement

theorem filterMap_apart {α : Type} {f : Statement → Option α} (skips : f .blank = none)
    (ss : List Statement) : (apart ss).filterMap f = ss.filterMap f := by
  unfold apart
  split
  · next empty => rw [List.isEmpty_iff.1 empty]
  · rw [List.filterMap_cons_none skips]

theorem not_node_edge_of_mem_ofGroup {g : ModuleGraph} {c : Cluster} {s : Statement}
    (hs : s ∈ ofGroup g c) : s.node? = none ∧ s.edge? = none := by
  unfold ofGroup at hs
  split at hs
  · simp at hs
  · simp only [List.cons_append, List.nil_append, List.mem_cons, List.mem_append, List.mem_map,
      List.not_mem_nil, or_false] at hs
    rcases hs with rfl | rfl | rfl | rfl | rfl | ⟨m, -, rfl⟩ | rfl <;> exact ⟨rfl, rfl⟩

def IsOuter : Statement → Prop
  | .opening _ => False
  | _ => True

theorem groups_append_of_outer {ss : List Statement} (outer : ∀ s ∈ ss, s.IsOuter)
    (ts : List Statement) : groups (ss ++ ts) = groups ts := by
  induction ss with
  | nil => rfl
  | cons s ss ih =>
    have rest := ih fun t ht => outer t (.tail _ ht)
    cases s with
    | opening _ => exact (outer _ (.head _)).elim
    | _ => exact rest

theorem outer_apart {ss : List Statement} (outer : ∀ s ∈ ss, s.IsOuter) :
    ∀ s ∈ apart ss, s.IsOuter := by
  unfold apart
  split
  · simp
  · exact List.forall_mem_cons.2 ⟨trivial, outer⟩

theorem groups_ofGroup_append (g : ModuleGraph) (c : Cluster) (ts : List Statement) :
    groups (ofGroup g c ++ ts) = c.shown g ++ groups ts := by
  unfold ofGroup Cluster.shown
  split
  · rfl
  · have inside : ∀ s ∈ (c.members g).map member, decide (s ≠ .closing) = true := by simp
    have read : ((c.members g).map member).filterMap member? = c.members g := by
      rw [List.filterMap_map]
      exact List.filterMap_some
    have outer : ∀ s ∈ (c.members g).map member, s.IsOuter :=
      List.forall_mem_map.2 fun _ _ => trivial
    have inner : groups ((c.members g).map member ++ .closing :: ts) = groups ts :=
      groups_append_of_outer outer (.closing :: ts)
    simp only [List.cons_append, List.nil_append, List.append_assoc, groups, inner]
    rw [List.takeWhile_cons_of_pos (by simp), List.takeWhile_cons_of_pos (by simp),
      List.takeWhile_cons_of_pos (by simp), List.takeWhile_append_of_pos inside,
      List.takeWhile_cons_of_neg (by simp), List.append_nil]
    simp only [List.filterMap_cons, member?, read]

theorem groups_ofGraph (g : ModuleGraph) :
    groups (ofGraph g) = Cluster.basic.shown g ++ Cluster.advanced.shown g := by
  have nodes : ∀ s ∈ g.modules.map fun m =>
      node m (ModuleDiagram.fillColor (g.outDegree m)), s.IsOuter :=
    List.forall_mem_map.2 fun _ _ => trivial
  have edges : ∀ s ∈ (ModuleDiagram.innerEdges g).map fun e => edge e.1 e.2, s.IsOuter :=
    List.forall_mem_map.2 fun _ _ => trivial
  have last : groups [.finish] = [] := rfl
  rw [ofGraph, List.append_assoc, List.append_assoc, List.append_assoc,
    groups_append_of_outer (outer_apart nodes), groups_append_of_outer (outer_apart edges),
    groups_ofGroup_append, groups_ofGroup_append, last, List.append_nil]

theorem filterMap_ofGraph {α : Type} {f : Statement → Option α}
    (skips : ∀ s, s.node? = none ∧ s.edge? = none → f s = none) (g : ModuleGraph) :
    (ofGraph g).filterMap f =
      (g.modules.filterMap fun m => f (.node m (ModuleDiagram.fillColor (g.outDegree m)))) ++
        (ModuleDiagram.innerEdges g).filterMap fun e => f (.edge e.1 e.2) := by
  have group (c : Cluster) : (ofGroup g c).filterMap f = [] :=
    List.filterMap_eq_nil_iff.2 fun s hs => skips s (not_node_edge_of_mem_ofGroup hs)
  have blank : f .blank = none := skips _ ⟨rfl, rfl⟩
  have last : [Statement.finish].filterMap f = [] :=
    List.filterMap_cons_none (skips _ ⟨rfl, rfl⟩)
  rw [ofGraph, List.filterMap_append, List.filterMap_append, List.filterMap_append,
    List.filterMap_append, filterMap_apart blank, filterMap_apart blank, group, group, last,
    List.append_nil, List.append_nil, List.append_nil, List.filterMap_map, List.filterMap_map]
  rfl

end Statement

namespace Picture

/-- The picture of a graph, put together from what the diagram is made of. -/
theorem ofStatements_ofGraph (g : ModuleGraph) :
    ofStatements (Statement.ofGraph g) =
      ⟨g.modules.map fun m => (m, ModuleDiagram.fillColor (g.outDegree m)),
        ModuleDiagram.innerEdges g, Cluster.basic.shown g ++ Cluster.advanced.shown g⟩ := by
  have nodes : (Statement.ofGraph g).filterMap Statement.node? =
      g.modules.map fun m => (m, ModuleDiagram.fillColor (g.outDegree m)) := by
    rw [Statement.filterMap_ofGraph fun s h => h.1]
    simp [Statement.node?]
  have edges : (Statement.ofGraph g).filterMap Statement.edge? = ModuleDiagram.innerEdges g := by
    rw [Statement.filterMap_ofGraph fun s h => h.2]
    simp [Statement.edge?]
  rw [ofStatements, nodes, edges, Statement.groups_ofGraph]

end Picture

namespace ModuleDiagram

theorem mem_innerEdges {g : ModuleGraph} {s t : String} :
    (s, t) ∈ innerEdges g ↔
      ∃ deps, g.dependencies? s = some deps ∧ t ∈ deps ∧ t ∈ g.modules := by
  have inside (u : String) : g.contains u = true ↔ u ∈ g.modules :=
    ModuleGraph.mem_modules_iff.symm
  simp only [innerEdges, List.mem_flatMap, List.mem_map, List.mem_filter, inside, Prod.mk.injEq]
  constructor
  · rintro ⟨⟨m, deps⟩, entry, u, ⟨mem, known⟩, rfl, rfl⟩
    exact ⟨deps, NameTable.mem_entries_iff.1 entry, mem, known⟩
  · rintro ⟨deps, found, mem, known⟩
    exact ⟨(s, deps), NameTable.mem_entries_iff.2 found, t, ⟨mem, known⟩, rfl, rfl⟩

theorem innerEdges_ascending (g : ModuleGraph) :
    (innerEdges g).Pairwise (Prod.Lex (· < ·) (· < ·)) := by
  rw [innerEdges, List.pairwise_flatMap]
  constructor
  · intro e _
    rw [List.pairwise_map]
    exact (e.2.ascending.filter _).imp fun less => .right _ less
  · refine (List.pairwise_map.1 g.dependencies.ascending).imp fun less a ha b hb => ?_
    obtain ⟨t, -, rfl⟩ := List.mem_map.1 ha
    obtain ⟨u, -, rfl⟩ := List.mem_map.1 hb
    exact .left _ _ less

theorem fillColor_outDegree {g : ModuleGraph} {m : String} {deps : NameSet}
    (found : g.dependencies? m = some deps) :
    fillColor (g.outDegree m) = if deps = .empty then "lightgrey" else "lightblue" := by
  have degree : g.outDegree m = deps.size := by simp [ModuleGraph.outDegree, found]
  have none_iff : deps.size = 0 ↔ deps = .empty :=
    List.length_eq_zero_iff.trans ⟨fun h => NameSet.ext h, fun h => by rw [h]; rfl⟩
  simp only [fillColor, degree, none_iff]

end ModuleDiagram

namespace Picture

/-- The picture shows the graph: what stands in it, and in which order. -/
structure Depicts (p : Picture) (g : ModuleGraph) : Prop where
  nodes_ascend : (p.nodes.map Prod.fst).Pairwise (· < ·)
  mem_nodes : ∀ m color, (m, color) ∈ p.nodes ↔
    ∃ deps, g.dependencies? m = some deps ∧
      color = if deps = .empty then "lightgrey" else "lightblue"
  edges_ascend : p.edges.Pairwise (Prod.Lex (· < ·) (· < ·))
  mem_edges : ∀ s t, (s, t) ∈ p.edges ↔
    ∃ deps, g.dependencies? s = some deps ∧ t ∈ deps ∧ (g.dependencies? t).isSome
  groups_in_order : (p.groups.map Prod.fst).Sublist ["cluster_basic", "cluster_advanced"]
  mem_groups : ∀ (c : Cluster) members, (c.id, members) ∈ p.groups ↔
    members ≠ [] ∧ members.Pairwise (· < ·) ∧
      ∀ m, m ∈ members ↔ ∃ deps, g.dependencies? m = some deps ∧ c.Admits deps.size

/-- Edges and groups speak of nodes of the picture only. -/
def Closed (p : Picture) : Prop :=
  (∀ e ∈ p.edges, e.1 ∈ p.nodes.map Prod.fst ∧ e.2 ∈ p.nodes.map Prod.fst) ∧
    ∀ group ∈ p.groups, ∀ m ∈ group.2, m ∈ p.nodes.map Prod.fst

theorem mem_groups_ofGraph {g : ModuleGraph} {e : String × List String} :
    e ∈ (ofStatements (Statement.ofGraph g)).groups ↔
      ∃ c : Cluster, e = (c.id, c.members g) ∧ c.members g ≠ [] := by
  rw [ofStatements_ofGraph, List.mem_append, Cluster.mem_shown, Cluster.mem_shown]
  constructor
  · rintro (h | h)
    · exact ⟨.basic, h⟩
    · exact ⟨.advanced, h⟩
  · rintro ⟨c, h⟩
    cases c with
    | basic => exact .inl h
    | advanced => exact .inr h

theorem depicts_ofGraph (g : ModuleGraph) : (ofStatements (Statement.ofGraph g)).Depicts g where
  nodes_ascend := by
    have names : (g.modules.map fun m =>
        (m, ModuleDiagram.fillColor (g.outDegree m))).map Prod.fst = g.modules := by
      simp [Function.comp_def]
    rw [ofStatements_ofGraph, names]
    exact g.dependencies.ascending
  mem_nodes m color := by
    rw [ofStatements_ofGraph, List.mem_map]
    constructor
    · rintro ⟨_, known, h⟩
      obtain ⟨rfl, rfl⟩ := Prod.mk.inj h
      obtain ⟨deps, found⟩ := Option.isSome_iff_exists.1 (ModuleGraph.mem_modules_iff.1 known)
      exact ⟨deps, found, ModuleDiagram.fillColor_outDegree found⟩
    · rintro ⟨deps, found, rfl⟩
      have known : m ∈ g.modules :=
        ModuleGraph.mem_modules_iff.2 (Option.isSome_iff_exists.2 ⟨deps, found⟩)
      exact ⟨m, known, by rw [ModuleDiagram.fillColor_outDegree found]⟩
  edges_ascend := by
    rw [ofStatements_ofGraph]
    exact ModuleDiagram.innerEdges_ascending g
  mem_edges s t := by
    rw [ofStatements_ofGraph, ModuleDiagram.mem_innerEdges, ModuleGraph.mem_modules_iff]
  groups_in_order := by
    rw [ofStatements_ofGraph, List.map_append]
    exact (Cluster.map_fst_shown_sublist .basic g).append
      (Cluster.map_fst_shown_sublist .advanced g)
  mem_groups c members := by
    rw [mem_groups_ofGraph]
    constructor
    · rintro ⟨d, h, inhabited⟩
      obtain ⟨ids, rfl⟩ := Prod.mk.inj h
      obtain rfl := Cluster.id_injective ids
      exact ⟨inhabited, c.members_ascending g, fun m => Cluster.mem_members⟩
    · rintro ⟨inhabited, ascend, mem⟩
      have same : members = c.members g := NameSet.eq_of_ascending ascend
        (c.members_ascending g) fun m => (mem m).trans Cluster.mem_members.symm
      subst same
      exact ⟨c, rfl, inhabited⟩

theorem Depicts.mem_names {p : Picture} {g : ModuleGraph} (h : p.Depicts g) {m : String} :
    m ∈ p.nodes.map Prod.fst ↔ (g.dependencies? m).isSome := by
  rw [List.mem_map, Option.isSome_iff_exists]
  constructor
  · rintro ⟨⟨_, color⟩, mem, rfl⟩
    obtain ⟨deps, found, -⟩ := (h.mem_nodes _ color).1 mem
    exact ⟨deps, found⟩
  · rintro ⟨deps, found⟩
    exact ⟨_, (h.mem_nodes m _).2 ⟨deps, found, rfl⟩, rfl⟩

theorem closed_ofGraph (g : ModuleGraph) : (ofStatements (Statement.ofGraph g)).Closed := by
  have depicts := depicts_ofGraph g
  constructor
  · rintro ⟨s, t⟩ mem
    obtain ⟨deps, found, -, target⟩ := (depicts.mem_edges s t).1 mem
    exact ⟨depicts.mem_names.2 (by simp [found]), depicts.mem_names.2 target⟩
  · rintro group mem m hm
    obtain ⟨c, rfl, -⟩ := mem_groups_ofGraph.1 mem
    obtain ⟨deps, found, -⟩ := Cluster.mem_members.1 hm
    exact depicts.mem_names.2 (by simp [found])

end Picture

namespace ModuleDiagram

open Statement

/-- What two graphs must have in common to be drawn alike. -/
structure SameDrawing (g h : ModuleGraph) : Prop where
  modules : g.modules = h.modules
  colors : ∀ m ∈ g.modules, fillColor (g.outDegree m) = fillColor (h.outDegree m)
  edges : innerEdges g = innerEdges h
  members : ∀ c : Cluster, c.members g = c.members h

theorem SameDrawing.bodyLines_eq {g h : ModuleGraph} (same : SameDrawing g h) :
    bodyLines g = bodyLines h := by
  have nodes : g.modules.map (nodeLine g) = h.modules.map (nodeLine h) := by
    rw [← same.modules]
    refine List.map_congr_left fun m hm => ?_
    rw [nodeLine, nodeLine, same.colors m hm]
  have groups (c : Cluster) : clusterLines g c = clusterLines h c := by
    rw [clusterLines, clusterLines, same.members c]
  rw [bodyLines, bodyLines, nodes, same.edges, groups, groups]

theorem SameDrawing.of_picture_eq {g h : ModuleGraph}
    (same : Picture.ofStatements (ofGraph g) = Picture.ofStatements (ofGraph h)) :
    SameDrawing g h where
  modules := by
    have nodes := congrArg (fun p : Picture => p.nodes.map Prod.fst) same
    simpa [Picture.ofStatements_ofGraph, Function.comp_def] using nodes
  colors m hm := by
    have known : (m, fillColor (g.outDegree m)) ∈ (Picture.ofStatements (ofGraph h)).nodes := by
      rw [← same, Picture.ofStatements_ofGraph]
      exact List.mem_map.2 ⟨m, hm, rfl⟩
    rw [Picture.ofStatements_ofGraph] at known
    obtain ⟨n, -, e⟩ := List.mem_map.1 known
    obtain ⟨rfl, color⟩ := Prod.mk.inj e
    exact color.symm
  edges := by
    have edges := congrArg Picture.edges same
    rwa [Picture.ofStatements_ofGraph, Picture.ofStatements_ofGraph] at edges
  members c := by
    -- A group without members is not drawn, so both sides are looked at.
    have drawn {k l : ModuleGraph}
        (alike : Picture.ofStatements (ofGraph k) = Picture.ofStatements (ofGraph l))
        (inhabited : c.members k ≠ []) : c.members k = c.members l := by
      have mem := Picture.mem_groups_ofGraph.2 ⟨c, rfl, inhabited⟩
      rw [alike] at mem
      obtain ⟨d, e, -⟩ := Picture.mem_groups_ofGraph.1 mem
      obtain ⟨ids, members⟩ := Prod.mk.inj e
      rw [members, Cluster.id_injective ids]
    by_cases empty : c.members g = []
    · by_cases other : c.members h = []
      · rw [empty, other]
      · exact (drawn same.symm other).symm
    · exact drawn same empty

theorem render_eq_iff (d : ModuleDiagram) (g h : ModuleGraph) :
    d.render g = d.render h ↔ SameDrawing g h := by
  constructor
  · intro same
    have pictures := congrArg Picture.ofText? same
    rw [ofText?_render, ofText?_render] at pictures
    exact .of_picture_eq (Option.some.inj pictures)
  · intro same
    rw [render, render, lines_eq, lines_eq, same.bodyLines_eq]

/-- The text of a diagram reads back as a picture of the graph, and graphs have the same text if
and only if they are drawn alike. -/
theorem ofText?_render_depicts (d : ModuleDiagram) (g : ModuleGraph) :
    (∃ p, Picture.ofText? (d.render g) = some p ∧ p.Depicts g ∧ p.Closed) ∧
      ∀ h, d.render g = d.render h ↔ SameDrawing g h :=
  ⟨⟨_, ofText?_render d g, Picture.depicts_ofGraph g, Picture.closed_ofGraph g⟩,
    d.render_eq_iff g⟩

end ModuleDiagram
end Dot
end JarAtlas
