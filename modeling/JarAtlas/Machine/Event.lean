/-! What a run notes down as it goes. -/
namespace JarAtlas

inductive Level where
  | trace
  | debug
  | info
  | warn
  | error
  deriving DecidableEq, Repr

namespace Level

def rank : Level → Nat
  | .trace => 0
  | .debug => 1
  | .info => 2
  | .warn => 3
  | .error => 4

def name : Level → String
  | .trace => "TRACE"
  | .debug => "DEBUG"
  | .info => "INFO"
  | .warn => "WARN"
  | .error => "ERROR"

end Level

structure Event where
  level : Level
  message : String
  deriving DecidableEq, Repr

inductive Verbosity where
  | off
  | atLeast (level : Level)
  deriving DecidableEq, Repr

namespace Verbosity

def shows : Verbosity → Level → Bool
  | .off, _ => false
  | .atLeast threshold, level => decide (threshold.rank ≤ level.rank)

def ofName? (name : String) : Option Verbosity :=
  match name with
  | "off" | "OFF" => some .off
  | "trace" | "TRACE" => some (.atLeast .trace)
  | "debug" | "DEBUG" => some (.atLeast .debug)
  | "info" | "INFO" => some (.atLeast .info)
  | "warn" | "WARN" => some (.atLeast .warn)
  | "error" | "ERROR" => some (.atLeast .error)
  | _ => none

end Verbosity
end JarAtlas
