import JarAtlas.Proofs.Dot.ManifestShape
import JarAtlas.Proofs.Dot.PackageList
import JarAtlas.Proofs.Manifest.WellFormed
import Mathlib.Data.List.Infix
import Mathlib.Data.List.Pairwise

/-! What a manifest diagram shows, as a reader of its text finds it: the nodes that have a label,
and the lines of each label. -/
namespace JarAtlas

open Text

namespace Manifest

/-- The value of an attribute with this name, in letters of either kind, or else the given one. -/
def Gives (m : Manifest) (name otherwise value : String) : Prop :=
  (∃ a ∈ m.attributes, sameIgnoringCase a.name name = true ∧ a.value = value) ∨
    (∀ a ∈ m.attributes, sameIgnoringCase a.name name = false) ∧ value = otherwise

end Manifest

namespace Dot

namespace ManifestDiagram

end ManifestDiagram
end Dot
end JarAtlas
