import JarAtlas.Machine.Toolbox
import JarAtlas.Script.Parse
import JarAtlas.Script.Run

/-! Tools that are scripts in the tree of files. -/
namespace JarAtlas
namespace Script

def mark : String := "#!/bin/sh\n"

/-- The two tools that are found without a path do nothing, one in success and one in failure. -/
def plainTool (files : FileTree) (name : String) : Except Fault ToolRun :=
  if name = "true" then .ok ⟨files, "", "", .exited 0⟩
  else if name = "false" then .ok ⟨files, "", "", .exited 1⟩
  else .error .notFound

def runText (s : Setting) (files : FileTree) (text : String) : Except Fault ToolRun :=
  if ¬ mark.toList.isPrefixOf text.toList then .error (.other "Exec format error (os error 8)")
  else match parse? text with
    | none => .ok ⟨files, "", s.name ++ ": Syntax error\n", .exited 2⟩
    | some command =>
      let g := run s command ⟨files, "", "", 0⟩
      .ok ⟨g.process.files, g.process.out, g.process.complaints, g.status⟩

/-- Tools whose names have a slash are scripts in the tree. -/
def tools : Toolbox := fun files here name args =>
  if (name :: args).any fun s => s.toList.contains '\x00' then .error .nulInArgument
  else if ¬ name.toList.contains '/' then plainTool files name
  else match files.resolve here name with
    | .error f => .error f
    | .ok place => match files.find? place with
      | some (.file content true) => runText ⟨here, name, args⟩ files (Utf8.decodeLossy content)
      | _ => .error .permissionDenied

end Script
end JarAtlas
