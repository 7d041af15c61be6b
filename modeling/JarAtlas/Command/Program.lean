import JarAtlas.Command.Arguments
import JarAtlas.Command.Run

/-! The whole program: arguments and environment in, an exit code out. -/
namespace JarAtlas
namespace Program

def versionLine : String := "jarmap 0.1.0"

def usage : String :=
  Text.unlines
    ["Usage: jarmap <COMMAND>", "",
     "  graph <JAR> [-o FILE] [--root NAMESPACE] [-r] [--format FORMAT] [--json]",
     "  manifest <JAR> [-o FILE [-r]] [--format FORMAT] [--json]",
     "  fetch <COORDINATE> [-d DIR] [--local-repo [DIR]] [--json]",
     "  inspect <COORDINATE> [-d DIR] [--local-repo [DIR]] [--root NAMESPACE] [-r]" ++
       " [--format FORMAT]"]

variable {m : Type → Type} [Monad m] [Machine m]

/-- What is told when the arguments ask for no command. Only wrong arguments are a failure. -/
def stop : Arguments.Stop → m Nat
  | .version => do
    Machine.printLine versionLine
    return 0
  | .help => do
    Machine.print usage
    return 0
  | .usage => do
    Machine.complain usage
    return 2

variable [Url.HostNames]

def runCommand (e : Environment) (c : Command) : m Nat := do
  match FetchSettings.warning? e with
  | some message => Machine.warn message
  | none => pure ()
  match ← (Command.run e (Settings.ofEnvironment e) c : ExceptT Failure m Unit).run with
  | .ok () => return 0
  | .error f =>
    Machine.complain (Text.unlines f.lines)
    return f.exitCode

def run (e : Environment) (args : List String) : m Nat :=
  match Arguments.command args with
  | .error s => stop s
  | .ok c => runCommand e c

end Program
end JarAtlas
