import JarAtlas.Text.Blank
import JarAtlas.Text.Lines
import JarAtlas.Manifest.Basic

/-! Reading a manifest. Its main section ends at the first empty line. A line that starts with a
blank continues the value before it, and a line with a colon is an attribute. -/
namespace JarAtlas
namespace Manifest

open Text

inductive Line where
  | continuation (rest : String)
  | attribute (name value : String)
  | malformed (text : String)
  deriving DecidableEq, Repr

def dropBlank : List Char → List Char
  | ' ' :: cs => cs
  | cs => cs

/-- The name of an attribute is trimmed. Its value loses one blank at the front. -/
def Line.ofChars : List Char → Line
  | ' ' :: rest => .continuation (.ofList rest)
  | cs => match cut? ':' cs with
    | some (name, value) =>
      .attribute (.ofList (trimChars name)) (.ofList (dropBlank value))
    | none => .malformed (.ofList cs)

def dropMark : List Char → List Char
  | '\uFEFF' :: cs => cs
  | cs => cs

def mainSection (text : String) : List Line :=
  ((lines (dropMark text.toList)).takeWhile fun l => !l.isEmpty).map Line.ofChars

/-- A continuation goes to the last attribute in the list, also when the line before it gave a
new value to an earlier one. -/
def read (m : Manifest) : Line → Manifest
  | .continuation rest => m.extendLast rest
  | .attribute name value => m.put name value
  | .malformed _ => m

def parse (text : String) : Manifest := (mainSection text).foldl read empty

def Line.malformed? : Line → Option String
  | .malformed text => some text
  | _ => none

def skippedLines (text : String) : List String := (mainSection text).filterMap Line.malformed?

end Manifest
end JarAtlas
