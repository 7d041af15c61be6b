import JarAtlas.FileTree.Basic
import JarAtlas.Machine.ExitStatus
import JarAtlas.Machine.Fault

/-! Tools as functions: what each does to the files that it finds, and how it ends. -/
namespace JarAtlas

structure ToolRun where
  files : FileTree
  out : String
  complaints : String
  status : ExitStatus

/-- How tools behave, by their names and arguments, on the files that they find from a working
directory. A tool that cannot be started changes nothing. -/
abbrev Toolbox := FileTree → Location → String → List String → Except Fault ToolRun

namespace Toolbox

def empty : Toolbox := fun _ _ _ _ => .error .notFound

end Toolbox
end JarAtlas
