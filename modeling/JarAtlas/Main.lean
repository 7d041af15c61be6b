import JarAtlas.Command.Program

/-! The command line on a real machine. It reads and writes files, but asks no servers and starts no
tools: each is reported as one that is not there. -/
namespace JarAtlas

def faultOf : IO.Error → Fault
  | .noFileOrDirectory .. => .notFound
  | .permissionDenied .. => .permissionDenied
  | .alreadyExists .. => .alreadyExists
  | .inappropriateType .. => .notDirectory
  | e => .other (toString e)

def attempt {α : Type} (act : IO α) : IO (Except Fault α) := do
  match ← act.toBaseIO with
  | .ok a => return .ok a
  | .error e => return .error (faultOf e)

def isThere (path : String) : IO (Except Fault Bool) := do
  match ← attempt (IO.FS.Handle.mk path .read) with
  | .ok _ => return .ok true
  | .error .notFound => return .ok false
  | .error f => return .error f

abbrev Console := ReaderT Verbosity IO

instance : Machine Console where
  fileExists path := fun _ => isThere path
  readFile path := fun _ => attempt do return (← IO.FS.readBinFile path).toList
  writeFile path content := fun _ => attempt (IO.FS.writeBinFile path ⟨content.toArray⟩)
  appendFile path content := fun _ => attempt do
    (← IO.FS.Handle.mk path .append).write ⟨content.toArray⟩
  makeDirs path := fun _ => attempt (if path = "" then return () else IO.FS.createDirAll path)
  request r := fun _ => return noWeb.answer r
  start _ _ _ := fun _ => return .error .notFound
  note e := fun verbosity =>
    if verbosity.shows e.level then IO.eprintln (e.level.name ++ " " ++ e.message) else return ()
  print text := fun _ => IO.print text
  complain text := fun _ => IO.eprint text

def readEnvironment : IO Environment := do
  let held ← Environment.allVariables.mapM fun name => return (name, ← IO.getEnv name)
  return ⟨fun name => (held.lookup name).join, (← IO.getEnv "HOME").filter (· ≠ "")⟩

def readVerbosity : IO Verbosity := do
  return ((← IO.getEnv "JARMAP_LOG").bind Verbosity.ofName?).getD (.atLeast .info)

end JarAtlas

open JarAtlas in
def main (args : List String) : IO UInt32 := do
  let code ← (Program.run (← readEnvironment) args : Console Nat).run (← readVerbosity)
  return UInt32.ofNat code
