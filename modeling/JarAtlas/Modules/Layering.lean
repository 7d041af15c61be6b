import JarAtlas.Names.Set

/-! Which modules a module is taken to depend on: a fixed table of layers, and two modules on which
everything rests. -/
namespace JarAtlas
namespace Layering

def utilityModule : String := "util"

def exceptionModule : String := "exception"

def table : List (String × List String) :=
  [("linear", ["util"]),
   ("stat", ["distribution", "linear", "util"]),
   ("optim", ["linear", "analysis", "util"]),
   ("ml", ["stat", "linear", "optim", "util"]),
   ("genetics", ["optim", "util"]),
   ("transform", ["linear", "util"])]

def extra (module : String) : List String := (table.lookup module).getD []

/-- The two and what the table says, but never the module itself. -/
def estimate (module : String) : NameSet :=
  .ofList ((utilityModule :: exceptionModule :: extra module).filter (· ≠ module))

theorem mem_estimate {module dep : String} :
    dep ∈ estimate module ↔
      (dep = utilityModule ∨ dep = exceptionModule ∨ dep ∈ extra module) ∧ dep ≠ module := by
  simp [estimate]

end Layering
end JarAtlas
