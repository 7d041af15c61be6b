import JarAtlas.Modules.Graph

/-! The two groups in which a diagram shows modules, by how many dependencies they have. -/
namespace JarAtlas
namespace Dot

inductive Cluster where
  | basic
  | advanced
  deriving DecidableEq, Repr

namespace Cluster

/-- A module with two dependencies is in neither group. -/
def ofOutDegree? (degree : Nat) : Option Cluster :=
  if degree ≤ 1 then some .basic else if degree = 2 then none else some .advanced

def id : Cluster → String
  | .basic => "cluster_basic"
  | .advanced => "cluster_advanced"

def label : Cluster → String
  | .basic => "basic"
  | .advanced => "advanced"

def color : Cluster → String
  | .basic => "darkgreen"
  | .advanced => "firebrick"

def members (c : Cluster) (g : ModuleGraph) : List String :=
  g.modules.filter fun m => ofOutDegree? (g.outDegree m) = some c

end Cluster
end Dot
end JarAtlas
