import JarAtlas.Machine.Basic
import JarAtlas.Render.ImagePath

/-! Drawing a description with an outside tool. -/
namespace JarAtlas

structure Renderer where
  tool : String := "dot"
  format : String := "png"
  deriving DecidableEq, Repr

namespace Renderer

inductive Outcome where
  | rendered (image : String)
  | toolUnavailable
  | failed (message : String)
  deriving DecidableEq, Repr

structure BadFormat where
  format : String
  deriving DecidableEq, Repr

variable {m : Type → Type} [Monad m] [Machine m]

/-- The tool is asked for its version. It is there if it starts, however it ends. -/
def isAvailable (r : Renderer) : m Bool := do
  match ← Machine.start r.tool ["-V"] true with
  | .ok _ => return true
  | .error _ => return false

def outcome (r : Renderer) (image : String) : Except Fault ExitStatus → Outcome
  | .ok status =>
    if status.success then .rendered image
    else .failed (r.tool ++ " exited with " ++ status.describe)
  | .error .notFound => .toolUnavailable
  | .error f => .failed f.message

def render (r : Renderer) (description image : String) : m Outcome := do
  Machine.debug
    ("Running " ++ r.tool ++ " -T" ++ r.format ++ " " ++ description ++ " -o " ++ image)
  let answer ← Machine.start r.tool ["-T" ++ r.format, description, "-o", image] false
  return r.outcome image answer

/-- The image goes beside the description. A missing tool is found out before the image is named. -/
def renderBeside (r : Renderer) (description : String) : m (Except BadFormat Outcome) := do
  if ← r.isAvailable then
    match Render.imagePath? r.format description with
    | none => return .error ⟨r.format⟩
    | some image => return .ok (← r.render description image)
  else return .ok .toolUnavailable

end Renderer
end JarAtlas
