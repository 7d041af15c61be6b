import JarAtlas.Text.Pieces

/-! Letter case of the ASCII letters. Other letters are never equal to anything but themselves. -/
namespace JarAtlas
namespace Text

def lower (s : String) : String := .ofList (s.toList.map Char.toLower)

def sameIgnoringCase (a b : String) : Bool := lower a == lower b

/-- The small-lettered needle occurs once ASCII capitals are made small. -/
def occursIgnoringCase (needle : String) (s : String) : Bool :=
  occurs needle.toList (lower s).toList

@[simp] theorem sameIgnoringCase_refl (a : String) : sameIgnoringCase a a = true := by
  simp [sameIgnoringCase]

theorem sameIgnoringCase_comm (a b : String) : sameIgnoringCase a b = sameIgnoringCase b a := by
  simp [sameIgnoringCase, Bool.beq_comm]

theorem sameIgnoringCase_iff {a b : String} : sameIgnoringCase a b = true ↔ lower a = lower b := by
  simp [sameIgnoringCase]

theorem sameIgnoringCase_trans {a b c : String} (h : sameIgnoringCase a b = true)
    (k : sameIgnoringCase b c = true) : sameIgnoringCase a c = true := by
  rw [sameIgnoringCase_iff] at *
  exact h.trans k

end Text
end JarAtlas
