import JarAtlas.Dot.Cluster
import JarAtlas.Dot.Quoted
import JarAtlas.Text.Lines

/-! The diagram of a module graph: its modules, the dependencies between them, and two groups. -/
namespace JarAtlas
namespace Dot

open Text

structure ModuleDiagram where
  title : Option String := none
  direction : String := "LR"
  deriving DecidableEq, Repr

namespace ModuleDiagram

def titleLines : Option String → List String
  | none => []
  | some title => ["  label=\"" ++ escape title ++ "\";", "  labelloc=t;"]

def preamble (d : ModuleDiagram) : List String :=
  ["digraph Modules \x7b", "  rankdir=" ++ d.direction ++ ";"] ++ titleLines d.title ++
    ["  fontname=\"Arial\";",
     "  node [shape=box, style=\"rounded,filled\", fontname=\"Arial\", fontsize=12];",
     "  edge [color=gray40, arrowsize=0.7];"]

def fillColor (degree : Nat) : String := if degree = 0 then "lightgrey" else "lightblue"

def nodeLine (g : ModuleGraph) (module : String) : String :=
  "  " ++ nodeId module ++ " [fillcolor=" ++ fillColor (g.outDegree module) ++ "];"

/-- The dependencies whose targets are modules of the graph, in ascending order. -/
def innerEdges (g : ModuleGraph) : List (String × String) :=
  g.entries.flatMap fun e => (e.2.toList.filter g.contains).map fun target => (e.1, target)

def edgeLine (e : String × String) : String := "  " ++ nodeId e.1 ++ " -> " ++ nodeId e.2 ++ ";"

def apart (ls : List String) : List String := if ls.isEmpty then [] else "" :: ls

def clusterLines (g : ModuleGraph) (c : Cluster) : List String :=
  let members := c.members g
  if members.isEmpty then []
  else
    ["", "  subgraph " ++ c.id ++ " \x7b", "    label=\"" ++ c.label ++ "\";",
      "    style=dashed;", "    color=" ++ c.color ++ ";"] ++
      (members.map fun m => "    " ++ nodeId m ++ ";") ++ ["  \x7d"]

def lines (d : ModuleDiagram) (g : ModuleGraph) : List String :=
  d.preamble ++ apart (g.modules.map (nodeLine g)) ++ apart ((innerEdges g).map edgeLine) ++
    clusterLines g .basic ++ clusterLines g .advanced ++ ["\x7d"]

def render (d : ModuleDiagram) (g : ModuleGraph) : String := unlines (d.lines g)

end ModuleDiagram
end Dot
end JarAtlas
