import JarAtlas.FileTree.Access
import JarAtlas.Machine.Basic
import JarAtlas.Machine.Toolbox

/-! A machine as a value: a tree of files, a working directory, tools that may do anything to the
tree, and all that was printed and noted down. -/
namespace JarAtlas

structure World where
  files : FileTree
  here : Location
  tools : Toolbox
  /-- The texts that were printed, the latest first. -/
  printed : List String
  /-- The complaints, those of tools among them, the latest first. -/
  complaints : List String
  /-- What was noted down, the latest first. -/
  events : List Event

namespace World

def output (w : World) : String := String.join w.printed.reverse

def errors (w : World) : String := String.join w.complaints.reverse

def start (tool : String) (args : List String) (quiet : Bool) (w : World) :
    Except Fault ExitStatus × World :=
  match w.tools w.files w.here tool args with
  | .error f => (.error f, w)
  | .ok r =>
    let w := { w with files := r.files }
    (.ok r.status,
      if quiet then w
      else { w with printed := r.out :: w.printed, complaints := r.complaints :: w.complaints })

def change (act : FileTree → Location → Except Fault FileTree) (w : World) :
    Except Fault Unit × World :=
  match act w.files w.here with
  | .error f => (.error f, w)
  | .ok files => (.ok (), { w with files })

def makeDirs (path : String) (w : World) : Except Fault Unit × World :=
  let (files, answer) := w.files.makeDirs w.here path
  (answer, { w with files })

instance [Web] : Machine (StateM World) where
  fileExists path := fun w => (w.files.fileExists w.here path, w)
  readFile path := fun w => (w.files.readFile w.here path, w)
  writeFile path content := change fun t here => t.writeFile here path content
  appendFile path content := change fun t here => t.appendFile here path content
  makeDirs path := makeDirs path
  request r := fun w => (Web.answer r, w)
  start tool args quiet := start tool args quiet
  note e := fun w => ((), { w with events := e :: w.events })
  print text := fun w => ((), { w with printed := text :: w.printed })
  complain text := fun w => ((), { w with complaints := text :: w.complaints })

end World
end JarAtlas
