import JarAtlas.Dot.PackageList
import JarAtlas.Dot.Quoted
import JarAtlas.Manifest.Basic
import JarAtlas.Text.Lines

/-! The diagram of a manifest: the bundle in the middle, and nodes that sum up who made it, which
packages it has, and its versions and licences. -/
namespace JarAtlas
namespace Dot

open Text

/-- How many exported packages are listed by name. -/
structure ManifestDiagram where
  maxExports : Nat := 15
  deriving DecidableEq, Repr

namespace ManifestDiagram

/-- The attributes that the node on the manifest itself shows, letter for letter. -/
def importantNames : List String :=
  ["Manifest-Version", "Implementation-Title", "Built-By", "Implementation-Vendor",
   "Specification-Title", "Bundle-Name", "Created-By", "Build-Jdk", "Bundle-SymbolicName",
   "Bundle-Description"]

def maxInfoItems : Nat := 8

def maxVersionItems : Nat := 5

def lineBreak : String := "\\n"

def rule : String := "─────────────────"

/-- A title and the items below it, each ended by a line break. Only the items are escaped. -/
def labelledList (title : String) (items : List String) : String :=
  String.join ([title, lineBreak, rule, lineBreak] ++ items.map fun i => escape i ++ lineBreak)

/-- The value of the last attribute whose name has the needle in it. -/
def valueContaining (m : Manifest) (needle : String) : String :=
  (((m.attributes.filter fun a => occurs needle.toList a.name.toList).getLast?).map
    Attribute.value).getD ""

def item (nameWidth valueWidth : Nat) (a : Attribute) : String :=
  shorten nameWidth a.name ++ ": " ++ shorten valueWidth a.value

def bullet (text : String) : String := "• " ++ text

def preamble : List String :=
  ["digraph Manifest \x7b", "  rankdir=TB;", "  size=\"11,8.5\";", "  ratio=fill;", "  dpi=150;",
   "  ranksep=0.5;", "  nodesep=0.3;",
   "  node [shape=box, style=rounded, fontname=\"Arial\", fontsize=14];", "  edge [fontsize=12];",
   ""]

/-- The name of the bundle is that of the archive unless the manifest gives one. -/
def mainLabel (m : Manifest) (name : String) : String :=
  escape ((m.get? "Bundle-Name").getD name) ++ lineBreak ++ escape name ++ lineBreak ++
    "Version: " ++ escape ((m.get? "Bundle-Version").getD "")

def mainLines (m : Manifest) (name : String) : List String :=
  ["  main [label=\"" ++ mainLabel m name ++
    "\", shape=ellipse, style=filled, fillcolor=lightblue, fontsize=16, width=3, height=1.5];", ""]

def infoLabel (m : Manifest) : String :=
  labelledList "MANIFEST INFO"
    (((m.attributes.filter fun a => a.name ∈ importantNames).take maxInfoItems).map (item 25 20))

def infoLines (m : Manifest) : List String :=
  ["  info [label=\"" ++ infoLabel m ++
    "\", fillcolor=lightyellow, style=filled, fontsize=12, width=3, height=2];",
   "  main -> info [color=blue];", ""]

def exportItems (limit : Nat) (packages : List String) : List String :=
  (packages.take limit).map (fun p => bullet (shortPackage p)) ++
    if limit < packages.length then
      [bullet ("... and " ++ toString (packages.length - limit) ++ " more")]
    else []

def countedTitle (title : String) (count : Nat) : String :=
  title ++ lineBreak ++ "(" ++ toString count ++ " packages)"

def exportLabel (limit : Nat) (packages : List String) : String :=
  labelledList (countedTitle "EXPORT PACKAGES" packages.length) (exportItems limit packages)

def exportLines (limit : Nat) (packages : List String) : List String :=
  if packages.isEmpty then []
  else
    ["  export [label=\"" ++ exportLabel limit packages ++
      "\", fillcolor=lightgreen, style=filled, fontsize=12, width=3.5, height=3];",
     "  main -> export [color=green];", ""]

def privateLabel (packages : List String) : String :=
  labelledList (countedTitle "PRIVATE PACKAGES" packages.length)
    (packages.map fun p => bullet (shortPackage p))

def privateLines (packages : List String) : List String :=
  if packages.isEmpty then []
  else
    ["  private [label=\"" ++ privateLabel packages ++
      "\", fillcolor=lightcoral, style=filled, fontsize=12, width=3, height=1.5];",
     "  main -> private [color=red];", ""]

def tellsVersion (a : Attribute) : Bool :=
  -- ASCII letters are enough here: of the other capitals only the Kelvin sign and the dotted I have
  -- ASCII letters in their small forms, and neither form is part of these two words.
  occursIgnoringCase "version" a.name || occursIgnoringCase "license" a.name

def versionLabel (m : Manifest) : String :=
  labelledList "VERSION & LICENSE"
    (((m.attributes.filter tellsVersion).take maxVersionItems).map (item 20 25))

def versionLines (m : Manifest) : List String :=
  ["  version [label=\"" ++ versionLabel m ++
    "\", fillcolor=orange, style=filled, fontsize=12, width=3, height=2];",
   "  main -> version [color=orange];"]

def lines (d : ManifestDiagram) (m : Manifest) (name : String) : List String :=
  preamble ++ mainLines m name ++ infoLines m ++
    exportLines d.maxExports (packages (valueContaining m "Export-Package")) ++
    privateLines (packages (valueContaining m "Private-Package")) ++ versionLines m ++ ["\x7d"]

def render (d : ManifestDiagram) (m : Manifest) (name : String) : String :=
  unlines (d.lines m name)

end ManifestDiagram
end Dot
end JarAtlas
