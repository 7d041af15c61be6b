import JarAtlas.FileTree.Access
import JarAtlas.Machine.ExitStatus
import JarAtlas.Script.Basic

/-! Running a script on a tree of files. -/
namespace JarAtlas
namespace Script

structure Setting where
  here : Location
  name : String
  args : List String

/-- What a script has done so far, with the status of its last command. -/
structure Process where
  files : FileTree
  out : String
  complaints : String
  status : Nat

structure Progress where
  process : Process
  ended? : Option ExitStatus

namespace Process

def finish (p : Process) (status : Nat) : Progress := ⟨{ p with status }, none⟩

def say (p : Process) (text : String) : Process := { p with out := p.out ++ text }

def complain (p : Process) (text : String) : Progress :=
  { p with complaints := p.complaints ++ text ++ "\n" }.finish 1

end Process

/-- The process's own number is not known before it runs, so that it stands for itself. -/
def ownNumber : String := "$$"

def Piece.expand (s : Setting) : Piece → String
  | .chars t => t
  | .argument 0 => s.name
  | .argument (n + 1) => s.args.getD n ""
  | .argumentCount => toString s.args.length
  | .allArguments => Text.join " " s.args
  | .processId => ownNumber

def expand (s : Setting) (w : Word) : String := String.join (w.map (Piece.expand s))

def faultName : Fault → String
  | .notFound => "No such file or directory"
  | .notDirectory => "Not a directory"
  | .isDirectory => "Is a directory"
  | .nameTooLong => "File name too long"
  | f => f.message

def quote (s : String) : String := "'" ++ s ++ "'"

def copy (here : Location) (source dest : String) (p : Process) : Progress :=
  match p.files.readFile here source with
  | .error .isDirectory =>
    p.complain ("cp: -r not specified; omitting directory " ++ quote source)
  | .error f => p.complain ("cp: cannot stat " ++ quote source ++ ": " ++ faultName f)
  | .ok content =>
    let dest :=
      if p.files.leadsToDirectory here dest then
        Path.append dest ((Path.fileName? source).getD source)
      else dest
    let same := match p.files.resolve here source, p.files.resolve here dest with
      | .ok a, .ok b => a == b
      | _, _ => false
    if same then
      p.complain ("cp: " ++ quote source ++ " and " ++ quote dest ++ " are the same file")
    else match p.files.writeFile here dest content with
      | .ok files => { p with files }.finish 0
      | .error f =>
        p.complain ("cp: cannot create regular file " ++ quote dest ++ ": " ++ faultName f)

def test (args : List String) (p : Process) : Progress :=
  match args with
  | [a, "=", b] => p.finish (if a = b then 0 else 1)
  | [a, "!=", b] => p.finish (if a = b then 1 else 0)
  | _ => p.finish 2

/-- A signal ends the process when it is sent to its own number. -/
def kill (args : List String) (p : Process) : Progress :=
  match args with
  | [option, number] =>
    match ExitStatus.signalNumber? (String.ofList (option.toList.drop 1)),
        (String.ofList (option.toList.drop 1)).toNat? with
    | some signal, _ | none, some signal =>
      if number = ownNumber then ⟨p, some (.killed signal)⟩ else p.finish 1
    | none, none => p.finish 1
  | _ => p.finish 1

def exit (args : List String) (p : Process) : Progress :=
  match args with
  | [code] => ⟨p, some (.exited (code.toNat?.getD 2 % 256))⟩
  | _ => ⟨p, some (.exited p.status)⟩

def simple (s : Setting) (words : List String) (p : Process) : Progress :=
  match words with
  | [] => p.finish 0
  | "echo" :: args => (p.say (Text.join " " args ++ "\n")).finish 0
  | "exit" :: args => exit args p
  | "kill" :: args => kill args p
  | "[" :: args =>
    if args.getLast? = some "]" then test args.dropLast p else p.finish 2
  | "test" :: args => test args p
  | ["cp", source, dest] => copy s.here source dest p
  | "true" :: _ | ":" :: _ => p.finish 0
  | "false" :: _ => p.finish 1
  | name :: _ =>
    let failed := p.complain (s.name ++ ": " ++ name ++ ": not found")
    failed.process.finish 127

/-- What the command prints goes behind a file, which is made when it is not there. -/
def simpleInto (s : Setting) (words : List String) (log : String) (p : Process) : Progress :=
  let before := match p.files.readFile s.here log with
    | .ok content => content
    | .error _ => []
  match p.files.writeFile s.here log before with
  | .error f => p.complain (s.name ++ ": cannot create " ++ log ++ ": " ++ faultName f)
  | .ok files =>
    let after := simple s words { p with files, out := "" }
    let process := match after.process.files.writeFile s.here log
        (before ++ Utf8.encode after.process.out) with
      | .ok files => { after.process with files, out := p.out }
      | .error _ => { after.process with out := p.out }
    ⟨process, after.ended?⟩

def Progress.continue (g : Progress) (next : Process → Progress) : Progress :=
  if g.ended?.isSome then g else next g.process

def run (s : Setting) : Command → Process → Progress
  | .nothing, p => ⟨p, none⟩
  | .simple words none, p => simple s (words.map (expand s)) p
  | .simple words (some log), p => simpleInto s (words.map (expand s)) (expand s log) p
  | .sequence a b, p => (run s a p).continue (run s b)
  | .orElse a b, p => (run s a p).continue fun p => if p.status = 0 then ⟨p, none⟩ else run s b p
  | .andThen a b, p => (run s a p).continue fun p => if p.status = 0 then run s b p else ⟨p, none⟩
  | .whenever condition body, p =>
    (run s condition p).continue fun p => if p.status = 0 then run s body p else p.finish 0

/-- How a script ends: as it says, or with the status of its last command. -/
def Progress.status (g : Progress) : ExitStatus := g.ended?.getD (.exited g.process.status)

end Script
end JarAtlas
