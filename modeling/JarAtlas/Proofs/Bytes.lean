import JarAtlas.Bytes
import Mathlib.Algebra.GroupWithZero.Nat

/-! Numbers written into fields, one after the other, and read back from their places. -/
namespace JarAtlas
namespace Bytes

def fields (fs : List (Nat × Nat)) : Bytes := fs.flatMap fun f => ofNumber f.1 f.2

@[simp] theorem length_fields (fs : List (Nat × Nat)) :
    (fields fs).length = (fs.map Prod.fst).sum := by
  induction fs with
  | nil => rfl
  | cons f fs ih =>
    have rest : (fs.flatMap fun f => ofNumber f.1 f.2).length = (fs.map Prod.fst).sum := ih
    simp [fields, rest]

variable {xs ys rest : Bytes} {fs : List (Nat × Nat)} {start width w n : Nat}

theorem field_append (far : xs.length ≤ start) :
    field (xs ++ ys) start width = field ys (start - xs.length) width := by
  rw [field, field, List.drop_append, List.drop_eq_nil_of_le far, List.nil_append]

theorem fields_cons_append (w n : Nat) (fs : List (Nat × Nat)) (rest : Bytes) :
    fields ((w, n) :: fs) ++ rest = ofNumber w n ++ (fields fs ++ rest) := by
  rw [← List.append_assoc]
  rfl

theorem field_fields_skip (far : w ≤ start) :
    field (fields ((w, n) :: fs) ++ rest) start width =
      field (fields fs ++ rest) (start - w) width := by
  rw [fields_cons_append, field_append (by simpa using far), length_ofNumber]

theorem field_fields_here (fits : n < 256 ^ w) :
    field (fields ((w, n) :: fs) ++ rest) 0 w = n := by
  have bits : 1 <<< (8 * w) = 256 ^ w := by
    rw [Nat.shiftLeft_eq, Nat.pow_mul, Nat.one_mul]
  have front : (ofNumber w n ++ (fields fs ++ rest)).take w = ofNumber w n :=
    List.take_left' (length_ofNumber w n)
  rw [fields_cons_append, field, List.drop_zero, front, number_ofNumber (bits ▸ fits)]

end Bytes
end JarAtlas
