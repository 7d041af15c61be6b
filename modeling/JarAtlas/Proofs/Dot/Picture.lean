import JarAtlas.Dot.ModuleDiagram
import JarAtlas.Proofs.Dot.Escaping
import Mathlib.Data.List.Forall2

/-! What a module diagram shows, as a reader of its lines finds it: nodes with their colors, edges
between nodes, and groups of nodes. -/
namespace JarAtlas
namespace Dot

open Text

/-- What a line behind the header says. -/
inductive Statement where
  | blank
  | node (name color : String)
  | edge (source target : String)
  | opening (group : String)
  | setting (text : String)
  | member (name : String)
  | closing
  | finish
  deriving DecidableEq, Repr

namespace Statement

def ofRest? (name : String) (rest : List Char) : Option Statement :=
  match afterPrefix? " -> ".toList rest with
  | some cs => match readName? cs with
    | some (target, [';']) => some (.edge name target)
    | _ => none
  | none =>
    ((afterPrefix? " [fillcolor=".toList rest).bind (beforeSuffix? "];".toList)).map
      fun color => .node name (.ofList color)

def ofOuter? (cs : List Char) : Option Statement :=
  match readName? cs with
  | some (name, rest) => ofRest? name rest
  | none =>
    if cs = ['\x7d'] then some .closing
    else ((afterPrefix? "subgraph ".toList cs).bind (beforeSuffix? " \x7b".toList)).map
      fun group => .opening (.ofList group)

def ofInner? (cs : List Char) : Option Statement :=
  match readName? cs with
  | some (name, [';']) => some (.member name)
  | some _ => none
  | none => (beforeSuffix? [';'] cs).map fun text => .setting (.ofList text)

/-- The lines of a group are indented by four blanks, those outside groups by two. -/
def ofLine? (line : List Char) : Option Statement :=
  if line = [] then some .blank
  else if line = ['\x7d'] then some .finish
  else match afterPrefix? "    ".toList line with
    | some cs => ofInner? cs
    | none => (afterPrefix? "  ".toList line).bind ofOuter?

def node? : Statement → Option (String × String)
  | .node name color => some (name, color)
  | _ => none

def edge? : Statement → Option (String × String)
  | .edge source target => some (source, target)
  | _ => none

def member? : Statement → Option String
  | .member name => some name
  | _ => none

def groups : List Statement → List (String × List String)
  | [] => []
  | .opening group :: ss => (group, (ss.takeWhile (· ≠ .closing)).filterMap member?) :: groups ss
  | _ :: ss => groups ss

end Statement

/-- Nodes with their colors, edges from source to target, and groups with their members. -/
structure Picture where
  nodes : List (String × String)
  edges : List (String × String)
  groups : List (String × List String)
  deriving DecidableEq, Repr

namespace Picture

def ofStatements (ss : List Statement) : Picture :=
  ⟨ss.filterMap Statement.node?, ss.filterMap Statement.edge?, Statement.groups ss⟩

def edgeDefaults : String := "  edge [color=gray40, arrowsize=0.7];"

/-- The lines behind the header. The direction is written as it stands, so that a header may hold
any lines, but no line behind it is like its last one. -/
def body (ls : List (List Char)) : List (List Char) :=
  (ls.reverse.takeWhile (· ≠ edgeDefaults.toList)).reverse

/-- The picture that a text draws. Every line behind the header must be understood. -/
def ofText? (text : String) : Option Picture :=
  ((body (lines text.toList)).mapM Statement.ofLine?).map ofStatements

end Picture

namespace Statement

def Reads : List String → List Statement → Prop :=
  List.Forall₂ fun l s => ofLine? l.toList = some s

theorem Reads.append {ls ks : List String} {ss ts : List Statement} (h : Reads ls ss)
    (k : Reads ks ts) : Reads (ls ++ ks) (ss ++ ts) := List.rel_append h k

theorem Reads.map {α : Type} {line : α → String} {statement : α → Statement}
    (h : ∀ a, ofLine? (line a).toList = some (statement a)) (as : List α) :
    Reads (as.map line) (as.map statement) := by
  induction as with
  | nil => exact .nil
  | cons a as ih => exact .cons (h a) ih

theorem Reads.mapM {ls : List String} {ss : List Statement} (h : Reads ls ss) :
    (ls.map String.toList).mapM ofLine? = some ss := by
  induction h with
  | nil => rfl
  | cons first _ ih =>
    rw [List.map_cons, List.mapM_cons, first, ih]
    rfl

theorem Reads.isSome {ls : List String} {ss : List Statement} (h : Reads ls ss) :
    ∀ l ∈ ls.map String.toList, (ofLine? l).isSome := by
  induction h with
  | nil => simp
  | cons first _ ih => simpa [first] using ih

def apart (ss : List Statement) : List Statement := if ss.isEmpty then [] else .blank :: ss

theorem Reads.apart {ls : List String} {ss : List Statement} (h : Reads ls ss) :
    Reads (ModuleDiagram.apart ls) (apart ss) := by
  cases h with
  | nil => exact .nil
  | cons first rest => exact .cons rfl (.cons first rest)

theorem ofLine?_outer {cs : List Char} (h : cs.head? ≠ some ' ') :
    ofLine? (' ' :: ' ' :: cs) = ofOuter? cs := by
  cases cs with
  | nil => rfl
  | cons c cs =>
    have notBlank : ' ' ≠ c := fun e => h (by rw [e]; rfl)
    simp [ofLine?, afterPrefix?, notBlank]

theorem ofLine?_inner (cs : List Char) :
    ofLine? (' ' :: ' ' :: ' ' :: ' ' :: cs) = ofInner? cs := by
  simp [ofLine?, afterPrefix?]

theorem ofLine?_node (name color : String) :
    ofLine? ("  " ++ nodeId name ++ " [fillcolor=" ++ color ++ "];").toList =
      some (.node name color) := by
  have line : ("  " ++ nodeId name ++ " [fillcolor=" ++ color ++ "];").toList =
      ' ' :: ' ' :: ((nodeId name).toList ++
        (" [fillcolor=".toList ++ (color.toList ++ "];".toList))) := by simp
  have noArrow : afterPrefix? " -> ".toList
      (" [fillcolor=".toList ++ (color.toList ++ "];".toList)) = none := by simp [afterPrefix?]
  have inner : beforeSuffix? "];".toList (color.toList ++ "];".toList) = some color.toList :=
    beforeSuffix?_eq_some_iff.2 rfl
  rw [line, ofLine?_outer (by simp [toList_nodeId]), ofOuter?, readName?_nodeId_append]
  simp only [ofRest?, noArrow, afterPrefix?_append, Option.bind_some, inner, Option.map_some,
    String.ofList_toList]

theorem ofLine?_edge (source target : String) :
    ofLine? ("  " ++ nodeId source ++ " -> " ++ nodeId target ++ ";").toList =
      some (.edge source target) := by
  have line : ("  " ++ nodeId source ++ " -> " ++ nodeId target ++ ";").toList =
      ' ' :: ' ' :: ((nodeId source).toList ++ (" -> ".toList ++
        ((nodeId target).toList ++ [';']))) := by simp
  rw [line, ofLine?_outer (by simp [toList_nodeId]), ofOuter?, readName?_nodeId_append]
  simp only [ofRest?, afterPrefix?_append, readName?_nodeId_append]

theorem ofLine?_member (name : String) :
    ofLine? ("    " ++ nodeId name ++ ";").toList = some (.member name) := by
  have line : ("    " ++ nodeId name ++ ";").toList =
      ' ' :: ' ' :: ' ' :: ' ' :: ((nodeId name).toList ++ [';']) := by simp
  rw [line, ofLine?_inner]
  simp only [ofInner?, readName?_nodeId_append]

def ofGroup (g : ModuleGraph) (c : Cluster) : List Statement :=
  if (c.members g).isEmpty then []
  else
    [.blank, .opening c.id, .setting ("label=\"" ++ c.label ++ "\""), .setting "style=dashed",
      .setting ("color=" ++ c.color)] ++ (c.members g).map .member ++ [.closing]

theorem reads_clusterLines (g : ModuleGraph) (c : Cluster) :
    Reads (ModuleDiagram.clusterLines g c) (ofGroup g c) := by
  unfold ModuleDiagram.clusterLines ofGroup
  dsimp only
  split
  · exact .nil
  · have head : Reads ["", "  subgraph " ++ c.id ++ " \x7b", "    label=\"" ++ c.label ++ "\";",
        "    style=dashed;", "    color=" ++ c.color ++ ";"]
        [.blank, .opening c.id, .setting ("label=\"" ++ c.label ++ "\""), .setting "style=dashed",
          .setting ("color=" ++ c.color)] := by
      cases c <;> exact .cons rfl (.cons rfl (.cons rfl (.cons rfl (.cons rfl .nil))))
    exact (head.append (.map ofLine?_member _)).append (.cons rfl .nil)

def ofGraph (g : ModuleGraph) : List Statement :=
  apart (g.modules.map fun m => .node m (ModuleDiagram.fillColor (g.outDegree m))) ++
    apart ((ModuleDiagram.innerEdges g).map fun e => .edge e.1 e.2) ++
    ofGroup g .basic ++ ofGroup g .advanced ++ [.finish]

end Statement

namespace ModuleDiagram

open Statement

def header (d : ModuleDiagram) : List String :=
  ["digraph Modules \x7b", "  rankdir=" ++ d.direction ++ ";"] ++ titleLines d.title ++
    ["  fontname=\"Arial\";",
     "  node [shape=box, style=\"rounded,filled\", fontname=\"Arial\", fontsize=12];"]

def bodyLines (g : ModuleGraph) : List String :=
  apart (g.modules.map (nodeLine g)) ++ apart ((innerEdges g).map edgeLine) ++
    clusterLines g .basic ++ clusterLines g .advanced ++ ["\x7d"]

theorem lines_eq (d : ModuleDiagram) (g : ModuleGraph) :
    d.lines g = d.header ++ Picture.edgeDefaults :: bodyLines g := by
  simp [lines, preamble, header, bodyLines, Picture.edgeDefaults]

theorem ofLine?_nodeLine (g : ModuleGraph) (m : String) :
    ofLine? (nodeLine g m).toList = some (.node m (fillColor (g.outDegree m))) := by
  rw [nodeLine, ofLine?_node]

theorem ofLine?_edgeLine (e : String × String) :
    ofLine? (edgeLine e).toList = some (.edge e.1 e.2) := by
  rw [edgeLine, ofLine?_edge]

theorem reads_bodyLines (g : ModuleGraph) : Reads (bodyLines g) (ofGraph g) := by
  have nodes := (Reads.map (ofLine?_nodeLine g) g.modules).apart
  have edges := (Reads.map ofLine?_edgeLine (innerEdges g)).apart
  have last : Reads ["\x7d"] [.finish] := .cons rfl .nil
  exact (((nodes.append edges).append (reads_clusterLines g .basic)).append
    (reads_clusterLines g .advanced)).append last

theorem oneLine_apart {ls : List String} (h : ∀ l ∈ ls, OneLine l) :
    ∀ l ∈ apart ls, OneLine l := by
  intro l hl
  unfold apart at hl
  split at hl
  · simp at hl
  · rcases List.mem_cons.1 hl with rfl | hl
    · decide
    · exact h l hl

theorem oneLine_clusterLines (g : ModuleGraph) (c : Cluster) :
    ∀ l ∈ clusterLines g c, OneLine l := by
  have head : ∀ l ∈ ["", "  subgraph " ++ c.id ++ " \x7b", "    label=\"" ++ c.label ++ "\";",
      "    style=dashed;", "    color=" ++ c.color ++ ";"], OneLine l := by
    cases c <;> decide
  intro l hl
  unfold clusterLines at hl
  dsimp only at hl
  split at hl
  · simp at hl
  · rcases List.mem_append.1 hl with hl | hl
    · rcases List.mem_append.1 hl with hl | hl
      · exact head l hl
      · obtain ⟨m, -, rfl⟩ := List.mem_map.1 hl
        exact ((by decide : OneLine "    ").append (oneLine_nodeId m)).append (by decide)
    · obtain rfl := List.mem_singleton.1 hl
      decide

theorem oneLine_nodeLine (g : ModuleGraph) (m : String) : OneLine (nodeLine g m) := by
  have color : OneLine (fillColor (g.outDegree m)) := by
    unfold fillColor
    split <;> decide
  exact ((((by decide : OneLine "  ").append (oneLine_nodeId m)).append (by decide)).append
    color).append (by decide)

theorem oneLine_edgeLine (e : String × String) : OneLine (edgeLine e) :=
  ((((by decide : OneLine "  ").append (oneLine_nodeId e.1)).append (by decide)).append
    (oneLine_nodeId e.2)).append (by decide)

theorem oneLine_bodyLines (g : ModuleGraph) : ∀ l ∈ bodyLines g, OneLine l := by
  have nodes : ∀ l ∈ g.modules.map (nodeLine g), OneLine l :=
    List.forall_mem_map.2 fun m _ => oneLine_nodeLine g m
  have edges : ∀ l ∈ (innerEdges g).map edgeLine, OneLine l :=
    List.forall_mem_map.2 fun e _ => oneLine_edgeLine e
  have last : ∀ l ∈ ["\x7d"], OneLine l := by decide
  simp only [bodyLines, List.forall_mem_append]
  exact ⟨⟨⟨⟨oneLine_apart nodes, oneLine_apart edges⟩, oneLine_clusterLines g .basic⟩,
    oneLine_clusterLines g .advanced⟩, last⟩

theorem body_lines_render (d : ModuleDiagram) (g : ModuleGraph) :
    Picture.body (Text.lines (d.render g).toList) = (bodyLines g).map String.toList := by
  have fresh : ∀ l ∈ ((bodyLines g).map String.toList).reverse,
      decide (l ≠ Picture.edgeDefaults.toList) = true := by
    intro l hl
    have understood := (reads_bodyLines g).isSome l (List.mem_reverse.1 hl)
    have foreign : ofLine? Picture.edgeDefaults.toList = none := by rfl
    refine decide_eq_true fun e => ?_
    rw [e, foreign] at understood
    exact absurd understood (by simp)
  have text : (d.render g).toList = (unlines d.header).toList ++
      (Picture.edgeDefaults.toList ++ '\n' :: (unlines (bodyLines g)).toList) := by
    simp [render, lines_eq]
  have clean : ∀ l ∈ bodyLines g, '\n' ∉ l.toList ∧ '\r' ∉ l.toList := oneLine_bodyLines g
  have last : dropReturn Picture.edgeDefaults.toList = Picture.edgeDefaults.toList := rfl
  rw [text, lines_unlines_append, lines_append_cons (by decide), lines_unlines clean, last,
    Picture.body, List.reverse_append, List.reverse_cons, List.append_assoc,
    List.takeWhile_append_of_pos fresh]
  simp

theorem ofText?_render (d : ModuleDiagram) (g : ModuleGraph) :
    Picture.ofText? (d.render g) = some (.ofStatements (ofGraph g)) := by
  rw [Picture.ofText?, body_lines_render, (reads_bodyLines g).mapM]
  rfl

end ModuleDiagram
end Dot
end JarAtlas
