import JarAtlas.Bytes
import JarAtlas.Machine.Event
import JarAtlas.Machine.ExitStatus
import JarAtlas.Machine.Fault
import JarAtlas.Machine.Web

/-! What the commands ask of the machine that they run on. -/
namespace JarAtlas

/-- Files are named by paths, and each operation on them may be refused. Written content takes the
place of what was there, and appended content goes behind it. A server is asked once for each
request. A tool is started by its name with its arguments and ends with a status; a quiet tool has
nobody listening to it. Events are noted down, texts are printed as they stand, and complaints go
elsewhere. -/
class Machine (m : Type → Type) where
  fileExists : String → m (Except Fault Bool)
  readFile : String → m (Except Fault Bytes)
  writeFile : String → Bytes → m (Except Fault Unit)
  appendFile : String → Bytes → m (Except Fault Unit)
  makeDirs : String → m (Except Fault Unit)
  request : Request → m (Except TransferFault Response)
  start : (tool : String) → (args : List String) → (quiet : Bool) → m (Except Fault ExitStatus)
  note : Event → m Unit
  print : String → m Unit
  complain : String → m Unit

namespace Machine

variable {m : Type → Type} [Machine m]

def trace (message : String) : m Unit := note ⟨.trace, message⟩

def debug (message : String) : m Unit := note ⟨.debug, message⟩

def info (message : String) : m Unit := note ⟨.info, message⟩

def warn (message : String) : m Unit := note ⟨.warn, message⟩

def printLine (line : String) : m Unit := print (line ++ "\n")

instance {ε : Type} [Monad m] : Machine (ExceptT ε m) where
  fileExists path := ExceptT.lift (fileExists path)
  readFile path := ExceptT.lift (readFile path)
  writeFile path content := ExceptT.lift (writeFile path content)
  appendFile path content := ExceptT.lift (appendFile path content)
  makeDirs path := ExceptT.lift (makeDirs path)
  request r := ExceptT.lift (request r)
  start tool args quiet := ExceptT.lift (start tool args quiet)
  note e := ExceptT.lift (note e)
  print text := ExceptT.lift (print text)
  complain text := ExceptT.lift (complain text)

end Machine
end JarAtlas
