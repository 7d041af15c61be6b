/-! How a process ended. -/
namespace JarAtlas

inductive ExitStatus where
  | exited (code : Nat)
  | killed (signal : Nat)
  deriving DecidableEq, Repr

namespace ExitStatus

def success (s : ExitStatus) : Bool := s == .exited 0

def signalNames : List String :=
  ["HUP", "INT", "QUIT", "ILL", "TRAP", "ABRT", "BUS", "FPE", "KILL", "USR1", "SEGV", "USR2",
   "PIPE", "ALRM", "TERM", "STKFLT", "CHLD", "CONT", "STOP", "TSTP", "TTIN", "TTOU", "URG",
   "XCPU", "XFSZ", "VTALRM", "PROF", "WINCH", "IO", "PWR", "SYS"]

def signalName? (signal : Nat) : Option String :=
  if signal = 0 then none else signalNames[signal - 1]?

def signalNumber? (name : String) : Option Nat := (signalNames.idxOf? name).map (· + 1)

def describe : ExitStatus → String
  | .exited code => "exit status: " ++ toString code
  | .killed signal =>
    "signal: " ++ toString signal ++
      match signalName? signal with
      | some name => " (SIG" ++ name ++ ")"
      | none => ""

end ExitStatus
end JarAtlas
