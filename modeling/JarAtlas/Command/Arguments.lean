import JarAtlas.Command.Basic
import JarAtlas.Repository.Local
import JarAtlas.Text.Pieces

/-! Arguments: options by their names or letters, each at most once, and one plain argument. -/
namespace JarAtlas
namespace Arguments

open Text

/-- What an option takes: nothing, a value, or a value that may be left out for another. -/
inductive Arity where
  | flag
  | value
  | optionalValue (missing : String)
  deriving DecidableEq, Repr

/-- An option that names a file or a directory cannot have the empty value. The plain argument is
an option without a name. -/
structure Opt where
  name : String
  letter? : Option Char
  arity : Arity
  path : Bool
  deriving DecidableEq, Repr

inductive Stop where
  | usage
  | help
  | version
  deriving DecidableEq, Repr

/-- The values that were given, and an option that waits for its own. -/
structure Reading where
  values : List (String × String)
  pending? : Option Opt
  deriving DecidableEq, Repr

def Reading.start : Reading := ⟨[], none⟩

/-- An option gets its value. It must not have one already. -/
def Reading.give (r : Reading) (o : Opt) (value : String) : Except Stop Reading :=
  if (r.values.lookup o.name).isSome ∨ (o.path ∧ value = "") then .error .usage
  else .ok { r with values := (o.name, value) :: r.values, pending? := none }

def Reading.settle (r : Reading) : Except Stop Reading :=
  match r.pending? with
  | none => .ok r
  | some o => match o.arity with
    | .optionalValue missing => r.give o missing
    | _ => .error .usage

def Reading.begin (r : Reading) (o : Opt) : Except Stop Reading :=
  if o.arity = .flag then r.give o "" else .ok { r with pending? := some o }

def helpLetter : Char := 'h'

def helpName : String := "help"

def long (opts : List Opt) (cs : List Char) (r : Reading) : Except Stop Reading := do
  let (name, value?) := match cut? '=' cs with
    | none => (String.ofList cs, none)
    | some (name, value) => (.ofList name, some (String.ofList value))
  match opts.find? fun o => o.name == name with
  | none => if name = helpName ∧ value?.isNone then throw .help else throw .usage
  | some o => match value? with
    | none => r.begin o
    | some value => if o.arity = .flag then throw .usage else r.give o value

/-- An equals sign between a letter and its value is dropped. -/
def dropEquals : List Char → List Char
  | '=' :: cs => cs
  | cs => cs

/-- Letters in one argument: flags, and last of all an option with what is left as its value. -/
def short (opts : List Opt) : List Char → Reading → Except Stop Reading
  | [], r => .ok r
  | c :: cs, r =>
    match opts.find? fun o => o.letter? == some c with
    | none => if c = helpLetter then .error .help else .error .usage
    | some o =>
      if o.arity = .flag then
        match r.give o "" with
        | .error e => .error e
        | .ok r => short opts cs r
      else if cs.isEmpty then r.begin o
      else r.give o (.ofList (dropEquals cs))

/-- What a command can be told: its plain argument and its options. -/
structure Form where
  word : Opt
  opts : List Opt

def Form.plain (f : Form) (arg : String) (r : Reading) : Except Stop Reading :=
  r.give (r.pending?.getD f.word) arg

def Form.readFrom (f : Form) : List String → Reading → Except Stop Reading
  | [], r => r.settle
  | arg :: args, r =>
    match arg.toList with
    | ['-', '-'] => do
      let r ← r.settle
      args.foldlM (fun r arg => r.give f.word arg) r
    | '-' :: '-' :: cs => do
      let r ← r.settle
      let r ← long f.opts cs r
      f.readFrom args r
    | '-' :: c :: cs => do
      let r ← r.settle
      let r ← short f.opts (c :: cs) r
      f.readFrom args r
    | _ => do
      let r ← f.plain arg r
      f.readFrom args r

def Form.read (f : Form) (args : List String) : Except Stop Reading := f.readFrom args .start

def jarWord : Opt := ⟨"", none, .value, true⟩

def coordinateWord : Opt := ⟨"", none, .value, false⟩

def outputOpt : Opt := ⟨"output", some 'o', .value, true⟩

def rootOpt : Opt := ⟨"root", none, .value, false⟩

def renderOpt : Opt := ⟨"render", some 'r', .flag, false⟩

def formatOpt : Opt := ⟨"format", none, .value, false⟩

def jsonOpt : Opt := ⟨"json", none, .flag, false⟩

def dirOpt : Opt := ⟨"dir", some 'd', .value, true⟩

def localRepoOpt : Opt :=
  ⟨"local-repo", none, .optionalValue LocalRepository.defaultWord, false⟩

namespace Reading

def value? (r : Reading) (o : Opt) : Option String := r.values.lookup o.name

def has (r : Reading) (o : Opt) : Bool := (r.value? o).isSome

def need (r : Reading) (o : Opt) : Except Stop String :=
  match r.value? o with
  | some value => .ok value
  | none => .error .usage

end Reading

def graph (args : List String) : Except Stop Command := do
  let r ← Form.read ⟨jarWord, [outputOpt, rootOpt, renderOpt, formatOpt, jsonOpt]⟩ args
  return .graph
    { jar := ← r.need jarWord
      output := (r.value? outputOpt).getD "modules.dot"
      root? := r.value? rootOpt
      render := r.has renderOpt
      format? := r.value? formatOpt
      json := r.has jsonOpt }

/-- Nothing can be drawn without an output. -/
def manifest (args : List String) : Except Stop Command := do
  let r ← Form.read ⟨jarWord, [outputOpt, renderOpt, formatOpt, jsonOpt]⟩ args
  if r.has renderOpt ∧ ¬ r.has outputOpt then throw .usage
  return .manifest
    { jar := ← r.need jarWord
      output? := r.value? outputOpt
      render := r.has renderOpt
      format? := r.value? formatOpt
      json := r.has jsonOpt }

def fetch (args : List String) : Except Stop Command := do
  let r ← Form.read ⟨coordinateWord, [dirOpt, localRepoOpt, jsonOpt]⟩ args
  return .fetch
    { coordinate := ← r.need coordinateWord
      dir := (r.value? dirOpt).getD "."
      localRepo? := r.value? localRepoOpt
      json := r.has jsonOpt }

def inspect (args : List String) : Except Stop Command := do
  let r ← Form.read ⟨coordinateWord, [dirOpt, localRepoOpt, rootOpt, renderOpt, formatOpt]⟩ args
  return .inspect
    { coordinate := ← r.need coordinateWord
      dir := (r.value? dirOpt).getD "."
      localRepo? := r.value? localRepoOpt
      root? := r.value? rootOpt
      render := r.has renderOpt
      format? := r.value? formatOpt }

def named? (name : String) : Option (List String → Except Stop Command) :=
  match name with
  | "graph" => some graph
  | "manifest" => some manifest
  | "fetch" => some fetch
  | "inspect" => some inspect
  | _ => none

def help (args : List String) : Stop :=
  match args with
  | [] => .help
  | [name] => if (named? name).isSome ∨ name = helpName then .help else .usage
  | _ => .usage

def command (args : List String) : Except Stop Command :=
  match args with
  | [] => .error .usage
  | arg :: rest =>
    if arg = "--version" then .error .version
    else if arg = "--help" then .error .help
    else match arg.toList with
      | '-' :: c :: _ =>
        if c = 'V' then .error .version else if c = helpLetter then .error .help
        else .error .usage
      | _ =>
        if arg = helpName then .error (help rest)
        else match named? arg with
          | none => .error .usage
          | some parse => parse rest

end Arguments
end JarAtlas
