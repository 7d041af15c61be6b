import JarAtlas.Proofs.Dot.Label
import Mathlib.Data.List.Forall2

/-! The shape of a manifest diagram: which lines it has, and in which of them, between which two
quotes, a text of the archive can stand. -/
namespace JarAtlas
namespace Dot
namespace ManifestDiagram

open Text

/-- A node of the diagram: how it is called, and what follows its label. -/
structure LabelledNode where
  name : String
  style : String
  nameOneLine : OneLine name
  styleOneLine : OneLine style

namespace LabelledNode

def line (n : LabelledNode) (label : String) : String :=
  "  " ++ n.name ++ " [label=\"" ++ label ++ "\"" ++ n.style

def main : LabelledNode :=
  ⟨"main", ", shape=ellipse, style=filled, fillcolor=lightblue, fontsize=16, width=3, height=1.5];",
    oneLine_ofList (by decide), oneLine_ofList (by decide)⟩

def info : LabelledNode :=
  ⟨"info", ", fillcolor=lightyellow, style=filled, fontsize=12, width=3, height=2];",
    oneLine_ofList (by decide), oneLine_ofList (by decide)⟩

def exported : LabelledNode :=
  ⟨"export", ", fillcolor=lightgreen, style=filled, fontsize=12, width=3.5, height=3];",
    oneLine_ofList (by decide), oneLine_ofList (by decide)⟩

def hidden : LabelledNode :=
  ⟨"private", ", fillcolor=lightcoral, style=filled, fontsize=12, width=3, height=1.5];",
    oneLine_ofList (by decide), oneLine_ofList (by decide)⟩

def version : LabelledNode :=
  ⟨"version", ", fillcolor=orange, style=filled, fontsize=12, width=3, height=2];",
    oneLine_ofList (by decide), oneLine_ofList (by decide)⟩

theorem toList_line (n : LabelledNode) (label : String) :
    (n.line label).toList =
      ("  " ++ n.name ++ " [label=").toList ++ '"' :: (label.toList ++ '"' :: n.style.toList) := by
  simp [line]

theorem oneLine_line (n : LabelledNode) (s : String) : OneLine (n.line (escape s)) :=
  (((((oneLine_ofList (by decide) : OneLine "  ").append n.nameOneLine).append
    (oneLine_ofList (by decide))).append (oneLine_escape s)).append
    (oneLine_ofList (by decide))).append n.styleOneLine

end LabelledNode

theorem mainLines_eq (m : Manifest) (name : String) :
    mainLines m name = [LabelledNode.main.line (mainLabel m name), ""] := by
  simp [mainLines, LabelledNode.line, LabelledNode.main, String.append_assoc]

theorem infoLines_eq (m : Manifest) :
    infoLines m = [LabelledNode.info.line (infoLabel m), "  main -> info [color=blue];", ""] := by
  simp [infoLines, LabelledNode.line, LabelledNode.info, String.append_assoc]

theorem exportLines_eq (limit : Nat) (packages : List String) :
    exportLines limit packages = if packages.isEmpty then [] else
      [LabelledNode.exported.line (exportLabel limit packages), "  main -> export [color=green];",
        ""] := by
  simp [exportLines, LabelledNode.line, LabelledNode.exported, String.append_assoc]

theorem privateLines_eq (packages : List String) :
    privateLines packages = if packages.isEmpty then [] else
      [LabelledNode.hidden.line (privateLabel packages), "  main -> private [color=red];", ""] := by
  simp [privateLines, LabelledNode.line, LabelledNode.hidden, String.append_assoc]

theorem versionLines_eq (m : Manifest) :
    versionLines m =
      [LabelledNode.version.line (versionLabel m), "  main -> version [color=orange];"] := by
  simp [versionLines, LabelledNode.line, LabelledNode.version, String.append_assoc]

/-- What stands at a place of the diagram: a line that is always the same, or a node whose label
depends on the manifest. -/
inductive Slot where
  | fixed (text : String)
  | node (n : LabelledNode)

namespace Slot

/-- The line of a node is fixed but for its label, and a scanner that starts at the first quote of
the label stops at the quote right before the node's style. -/
def Fits : Slot → List Char → Prop
  | fixed text, line => line = text.toList
  | node n, line => ∃ label,
      line = ("  " ++ n.name ++ " [label=").toList ++ '"' :: (label ++ '"' :: n.style.toList) ∧
        closing? (label ++ '"' :: n.style.toList) = some (label, n.style.toList)

theorem fits_fixed (text : String) : (fixed text).Fits text.toList := rfl

theorem fits_line (n : LabelledNode) (s : String) : (node n).Fits (n.line (escape s)).toList := by
  refine ⟨(escape s).toList, n.toList_line _, ?_⟩
  rw [toList_escape, closing?_escapeChars]

def all (exported hidden : Bool) : List Slot :=
  preamble.map fixed ++ [node .main, fixed ""] ++
    [node .info, fixed "  main -> info [color=blue];", fixed ""] ++
    (if exported then [node .exported, fixed "  main -> export [color=green];", fixed ""]
      else []) ++
    (if hidden then [node .hidden, fixed "  main -> private [color=red];", fixed ""] else []) ++
    [node .version, fixed "  main -> version [color=orange];"] ++ [fixed "\x7d"]

theorem length_all (exported hidden : Bool) :
    (all exported hidden).length =
      18 + (if exported then 3 else 0) + (if hidden then 3 else 0) := by
  cases exported <;> cases hidden <;> rfl

/-- The lines stand at these places, one by one. -/
def Fill (slots : List Slot) (ls : List String) : Prop :=
  List.Forall₂ (fun s l => s.Fits l.toList ∧ OneLine l) slots ls

theorem Fill.oneLine {slots : List Slot} {ls : List String} (filled : Fill slots ls) :
    ∀ l ∈ ls, OneLine l := by
  induction filled with
  | nil => simp
  | cons first _ ih => exact List.forall_mem_cons.2 ⟨first.2, ih⟩

theorem fill_map_fixed {ls : List String} (oneLine : ∀ l ∈ ls, OneLine l) :
    Fill (ls.map fixed) ls := by
  induction ls with
  | nil => exact .nil
  | cons l ls ih =>
    have first := oneLine l List.mem_cons_self
    have rest := ih fun k hk => oneLine k (List.mem_cons_of_mem _ hk)
    exact .cons ⟨fits_fixed l, first⟩ rest

theorem fill_node (n : LabelledNode) (s : String) {ls : List String}
    (oneLine : ∀ l ∈ ls, OneLine l) :
    Fill (node n :: ls.map fixed) (n.line (escape s) :: ls) :=
  .cons ⟨fits_line n s, n.oneLine_line s⟩ (fill_map_fixed oneLine)

theorem oneLine_preamble : ∀ l ∈ preamble, OneLine l := by
  simp only [preamble, List.forall_mem_cons]
  refine ⟨?_, ?_, ?_, ?_, ?_, ?_, ?_, ?_, ?_, ?_, by simp⟩ <;> exact oneLine_ofList (by decide)

theorem fill_mainLines (m : Manifest) (name : String) :
    Fill [node .main, fixed ""] (mainLines m name) := by
  have behind : ∀ l ∈ [""], OneLine l := by decide
  rw [mainLines_eq, mainLabel_eq]
  exact fill_node _ _ behind

theorem fill_infoLines (m : Manifest) :
    Fill [node .info, fixed "  main -> info [color=blue];", fixed ""] (infoLines m) := by
  have behind : ∀ l ∈ ["  main -> info [color=blue];", ""], OneLine l := by decide
  rw [infoLines_eq, infoLabel_eq]
  exact fill_node _ _ behind

theorem fill_exportLines (limit : Nat) (packages : List String) :
    Fill (if !packages.isEmpty then
        [node .exported, fixed "  main -> export [color=green];", fixed ""] else [])
      (exportLines limit packages) := by
  have behind : ∀ l ∈ ["  main -> export [color=green];", ""], OneLine l := by decide
  rw [exportLines_eq, exportLabel_eq]
  cases packages with
  | nil => exact .nil
  | cons p ps => exact fill_node _ _ behind

theorem fill_privateLines (packages : List String) :
    Fill (if !packages.isEmpty then
        [node .hidden, fixed "  main -> private [color=red];", fixed ""] else [])
      (privateLines packages) := by
  have behind : ∀ l ∈ ["  main -> private [color=red];", ""], OneLine l := by decide
  rw [privateLines_eq, privateLabel_eq]
  cases packages with
  | nil => exact .nil
  | cons p ps => exact fill_node _ _ behind

theorem fill_versionLines (m : Manifest) :
    Fill [node .version, fixed "  main -> version [color=orange];"] (versionLines m) := by
  have behind : ∀ l ∈ ["  main -> version [color=orange];"], OneLine l := by decide
  rw [versionLines_eq, versionLabel_eq]
  exact fill_node _ _ behind

theorem fill_lines (d : ManifestDiagram) (m : Manifest) (name : String) :
    Fill (all (!(packages (valueContaining m "Export-Package")).isEmpty)
      (!(packages (valueContaining m "Private-Package")).isEmpty)) (d.lines m name) := by
  have front := fill_map_fixed oneLine_preamble
  have last : Fill [fixed "\x7d"] ["\x7d"] :=
    fill_map_fixed (by decide : ∀ l ∈ ["\x7d"], OneLine l)
  have upToMain := List.rel_append front (fill_mainLines m name)
  have upToInfo := List.rel_append upToMain (fill_infoLines m)
  have upToExports := List.rel_append upToInfo (fill_exportLines d.maxExports
    (packages (valueContaining m "Export-Package")))
  have upToPrivate := List.rel_append upToExports (fill_privateLines
    (packages (valueContaining m "Private-Package")))
  exact List.rel_append (List.rel_append upToPrivate (fill_versionLines m)) last

end Slot

/-- The text of a diagram is made of 18 lines, and of three more for each list of packages that is
not empty. Which line stands where does not depend on the manifest or the archive: only the label
of a node does, and that ends where it should. -/
theorem render_fits (d : ManifestDiagram) (m : Manifest) (name : String) :
    let exported := packages (valueContaining m "Export-Package")
    let hidden := packages (valueContaining m "Private-Package")
    ∃ ls : List (List Char), (d.render m name).toList = ls.flatMap (· ++ ['\n']) ∧
      (∀ l ∈ ls, '\n' ∉ l ∧ '\r' ∉ l) ∧
      ls.length = 18 + (if exported = [] then 0 else 3) + (if hidden = [] then 0 else 3) ∧
      List.Forall₂ Slot.Fits (Slot.all (!exported.isEmpty) (!hidden.isEmpty)) ls := by
  intro exported hidden
  have filled := Slot.fill_lines d m name
  have count : (d.lines m name).length = 18 + (if exported = [] then 0 else 3) +
      (if hidden = [] then 0 else 3) := by
    rw [← filled.length_eq, Slot.length_all]
    simp [exported, hidden]
  refine ⟨(d.lines m name).map String.toList, ?_, ?_, ?_, ?_⟩
  · rw [render, toList_unlines, List.flatMap_map]
  · exact List.forall_mem_map.2 filled.oneLine
  · rw [List.length_map, count]
  · rw [List.forall₂_map_right_iff]
    exact List.Forall₂.imp (fun _ _ h => h.1) filled

end ManifestDiagram
end Dot
end JarAtlas
