import JarAtlas.Proofs.FileTree.Access
import JarAtlas.Proofs.Path.Descent
import JarAtlas.Proofs.Path.Joined

/-! Where paths lead that are seen from a directory: first to the directory, then on from there. -/
namespace JarAtlas
namespace FileTree

open JarAtlas.Path

variable {t : FileTree} {here place base : Location} {dir path name : String}

theorem isDirectory_of_walk {pieces : List String} (filled : pieces ≠ [])
    (h : walk t place pieces = .ok base) : t.isDirectory place = true := by
  cases pieces with
  | nil => exact absurd rfl filled
  | cons piece pieces =>
    obtain ⟨next, step, -⟩ := walk_cons_eq_ok_iff.1 h
    exact (stepTo_eq_ok_iff.1 step).1

/-- The path of a directory, which may be empty, leads to a place. -/
def Leads (t : FileTree) (here : Location) (dir : String) (place : Location) : Prop :=
  walk t (origin here dir) (parts dir) = .ok place ∧ t.isDirectory place = true

theorem leads_of_front (h : walk t (origin here dir) (front dir) = .ok place)
    (directory : t.isDirectory place = true) : Leads t here dir place := by
  refine ⟨?_, directory⟩
  rcases parts_eq_front dir with same | slash
  · rw [same]
    exact h
  · rw [slash]
    exact walk_append_eq_ok_iff.2 ⟨place, h, walk_slashes directory 1⟩

theorem resolve_append (relative : rooted path = false)
    (h : resolve t here (append dir path) = .ok place) :
    ∃ base, Leads t here dir base ∧ walk t base (parts path) = .ok place := by
  obtain ⟨-, walked⟩ := resolve_eq_ok_iff.1 h
  rw [origin, rooted_append_dir relative, parts_append relative] at walked
  obtain ⟨base, first, rest⟩ := walk_append_eq_ok_iff.1 walked
  have filled : parts path ≠ [] := by simpa [parts, Text.split] using Text.pieces_ne_nil _ _
  exact ⟨base, leads_of_front first (isDirectory_of_walk filled rest), rest⟩

theorem resolve_append_name (isName : IsName name)
    (h : resolve t here (append dir name) = .ok place) :
    ∃ base, Leads t here dir base ∧ place = base ++ [name] := by
  obtain ⟨base, leads, walked⟩ := resolve_append isName.relative h
  rw [isName.parts_eq] at walked
  obtain ⟨next, step, ends⟩ := walk_cons_eq_ok_iff.1 walked
  obtain rfl : next = place := Except.ok.inj ends
  refine ⟨base, leads, ?_⟩
  obtain ⟨-, stay | up | ⟨-, -, -, -, rfl⟩⟩ := stepTo_eq_ok_iff.1 step
  · simp [isName.named] at stay
  · exact absurd up.2.1 isName.notUp
  · rfl

/-- Steps that do not go above where they began lead to below it. -/
theorem walk_descends {extra : Location} {pieces : List String}
    (below : descends (· == "..") idle extra.length pieces = true)
    (h : walk t (base ++ extra) pieces = .ok place) : base <+: place := by
  induction pieces generalizing extra with
  | nil =>
    obtain rfl := Except.ok.inj h
    exact List.prefix_append ..
  | cons piece pieces ih =>
    obtain ⟨next, step, walked⟩ := walk_cons_eq_ok_iff.1 h
    obtain ⟨-, ⟨stays, rfl⟩ | ⟨moves, rfl, rfl⟩ | ⟨moves, notUp, -, -, rfl⟩⟩ :=
      stepTo_eq_ok_iff.1 step
    · exact ih (by simpa [descends, stays] using below) walked
    · obtain ⟨deep, rest⟩ : extra ≠ [] ∧
          descends (· == "..") idle (extra.length - 1) pieces = true := by
        simpa [descends, moves] using below
      rw [List.dropLast_append_of_ne_nil deep] at walked
      exact ih (by rwa [List.length_dropLast]) walked
    · rw [List.append_assoc] at walked
      refine ih ?_ walked
      simpa [descends, moves, notUp] using below

theorem resolve_append_below (relative : rooted path = false) (below : staysBelow path = true)
    (h : resolve t here (append dir path) = .ok place) :
    ∃ base, Leads t here dir base ∧ base <+: place := by
  obtain ⟨base, leads, walked⟩ := resolve_append relative h
  have from_base : walk t (base ++ []) (parts path) = .ok place := by rwa [List.append_nil]
  refine ⟨base, leads, walk_descends ?_ from_base⟩
  exact below

end FileTree
end JarAtlas
