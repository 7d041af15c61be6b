import JarAtlas.Text.Case
import JarAtlas.Json

/-! The main section of a manifest: attributes in the order of the file, of which no two have
names that are equal but for the case of ASCII letters. -/
namespace JarAtlas

structure Attribute where
  name : String
  value : String
  deriving DecidableEq, Repr

structure Manifest where
  attributes : List Attribute
  deriving DecidableEq, Repr

namespace Manifest

open Text

def empty : Manifest := ⟨[]⟩

instance : Inhabited Manifest := ⟨empty⟩

def size (m : Manifest) : Nat := m.attributes.length

def isEmpty (m : Manifest) : Bool := m.attributes.isEmpty

/-- The attribute has this name, but perhaps in other letters of the same kind. -/
def named (name : String) (a : Attribute) : Bool := sameIgnoringCase a.name name

def get? (m : Manifest) (name : String) : Option String :=
  (m.attributes.find? (named name)).map Attribute.value

/-- The first attribute of the name gets the value and keeps its spelling. If there is none, a
new one comes last. -/
def putIn (name value : String) : List Attribute → List Attribute
  | [] => [⟨name, value⟩]
  | a :: as => if named name a then { a with value } :: as else a :: putIn name value as

def put (m : Manifest) (name value : String) : Manifest := ⟨putIn name value m.attributes⟩

def ofPairs (pairs : List (String × String)) : Manifest :=
  pairs.foldl (fun m p => m.put p.1 p.2) empty

/-- The value of the last attribute in the list grows by a text. -/
def extendIn (more : String) : List Attribute → List Attribute
  | [] => []
  | [a] => [{ a with value := a.value ++ more }]
  | a :: b :: as => a :: extendIn more (b :: as)

def extendLast (m : Manifest) (more : String) : Manifest := ⟨extendIn more m.attributes⟩

def toJson (m : Manifest) : Json := .object (m.attributes.map fun a => (a.name, .text a.value))

theorem named_self (a : Attribute) : named a.name a = true := sameIgnoringCase_refl a.name

theorem named_congr {name other : String} (same : sameIgnoringCase name other = true) :
    named name = named other := by
  funext a
  rw [named, named, Bool.eq_iff_iff, sameIgnoringCase_iff, sameIgnoringCase_iff,
    sameIgnoringCase_iff.1 same]

theorem map_name_putIn (name value : String) (as : List Attribute) :
    (putIn name value as).map Attribute.name =
      if as.any (named name) then as.map Attribute.name else as.map Attribute.name ++ [name] := by
  induction as with
  | nil => rfl
  | cons a as ih =>
    cases h : named name a with
    | true => simp [putIn, h]
    | false => cases k : as.any (named name) <;> simp_all [putIn]

theorem get?_put_self (m : Manifest) (name value : String) :
    (m.put name value).get? name = some value := by
  obtain ⟨as⟩ := m
  simp only [get?, put]
  induction as with
  | nil => simp [putIn, named]
  | cons a as ih =>
    by_cases h : named name a = true
    · have k : named name ⟨a.name, value⟩ = true := h
      simp [putIn, h, k]
    · simpa [putIn, h] using ih

@[simp] theorem map_name_extendIn (more : String) (as : List Attribute) :
    (extendIn more as).map Attribute.name = as.map Attribute.name := by
  induction as with
  | nil => rfl
  | cons a as ih => cases as with
    | nil => rfl
    | cons b as => simpa [extendIn] using ih

end Manifest
end JarAtlas
