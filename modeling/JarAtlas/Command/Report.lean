/-! What is told of a command that failed. -/
namespace JarAtlas

/-- What went wrong, and what lies behind it, the nearest cause first. -/
structure Report where
  top : String
  causes : List String
  deriving DecidableEq, Repr

namespace Report

def numbered : Nat → List String → List String
  | _, [] => []
  | k, c :: cs => ("    " ++ toString k ++ ": " ++ c) :: numbered (k + 1) cs

/-- A single cause has no number. -/
def causeLines : List String → List String
  | [] => []
  | [c] => ["", "Caused by:", "    " ++ c]
  | cs => "" :: "Caused by:" :: numbered 0 cs

def lines (r : Report) : List String := ("Error: " ++ r.top) :: causeLines r.causes

end Report

/-- How a command fails: with a report, or at once, when an image format cannot be used. -/
inductive Failure where
  | reported (r : Report)
  | aborted (format : String)
  deriving DecidableEq, Repr

namespace Failure

def exitCode : Failure → Nat
  | .reported _ => 1
  | .aborted _ => 101

def lines : Failure → List String
  | .reported r => r.lines
  | .aborted format => ["extension cannot contain path separators: \"" ++ format ++ "\""]

end Failure
end JarAtlas
