import JarAtlas.Path

/-! Going down and up. Steps that never go above where they began stay below it, wherever that is. -/
namespace JarAtlas
namespace Path

/-- Some steps are idle and some lead up. All others lead down, and no step leads up from where one
began, which is so many steps above. -/
def descends {α : Type} (up idle : α → Bool) : Nat → List α → Bool
  | _, [] => true
  | depth, s :: ss =>
    if idle s then descends up idle depth ss
    else if up s then depth != 0 && descends up idle (depth - 1) ss
    else descends up idle (depth + 1) ss

def staysBelow (path : String) : Bool := descends (· == "..") idle 0 (parts path)

theorem descends_of_no_up {α : Type} {up idle : α → Bool} {ss : List α}
    (none : ∀ s ∈ ss, up s = false) (depth : Nat) : descends up idle depth ss = true := by
  induction ss generalizing depth with
  | nil => rfl
  | cons s ss ih =>
    obtain ⟨first, rest⟩ := List.forall_mem_cons.1 none
    simp only [descends, first, Bool.false_eq_true, if_false, ih rest, ite_self]

end Path
end JarAtlas
