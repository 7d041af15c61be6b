/-! Octet strings, and numbers written in them with the least significant octet first. -/
namespace JarAtlas

abbrev Bytes := List UInt8

namespace Bytes

/-- The number whose octets these are, the least significant first. -/
def number : Bytes → Nat
  | [] => 0
  | b :: bs => b.toNat + 256 * number bs

def ofNumber : Nat → Nat → Bytes
  | 0, _ => []
  | k + 1, n => UInt8.ofNat n :: ofNumber k (n / 256)

/-- The number in a field at a distance from the front. -/
def field (bs : Bytes) (start width : Nat) : Nat := number ((bs.drop start).take width)

def hexOctet (b : UInt8) : List Char :=
  [Nat.digitChar (b.toNat / 16), Nat.digitChar (b.toNat % 16)]

def hex (bs : Bytes) : String := .ofList (bs.flatMap hexOctet)

@[simp] theorem length_ofNumber (k n : Nat) : (ofNumber k n).length = k := by
  induction k generalizing n with
  | zero => rfl
  | succ k ih => simp [ofNumber, ih]

theorem shift_octet (k : Nat) : 1 <<< (8 * (k + 1)) = 256 * 1 <<< (8 * k) := by
  rw [Nat.shiftLeft_eq, Nat.shiftLeft_eq, Nat.mul_succ, Nat.pow_add]
  omega

theorem number_ofNumber {k n : Nat} (fits : n < 1 <<< (8 * k)) : number (ofNumber k n) = n := by
  induction k generalizing n with
  | zero => simp at fits; simp [ofNumber, number, fits]
  | succ k ih =>
    have octet : (UInt8.ofNat n).toNat = n % 256 := UInt8.toNat_ofNat'
    rw [shift_octet] at fits
    rw [ofNumber, number, ih (by omega), octet]
    omega

def hexDigits : List Char := "0123456789abcdef".toList

theorem digitChar_mem_hexDigits {n : Nat} (digit : n < 16) : Nat.digitChar n ∈ hexDigits := by
  have all : ∀ k < 16, Nat.digitChar k ∈ hexDigits := by decide
  exact all n digit

theorem length_hex (bs : Bytes) : (hex bs).toList.length = 2 * bs.length := by
  induction bs with
  | nil => rfl
  | cons b bs ih => simp_all [hex, hexOctet]; omega

theorem mem_hexDigits_of_mem_hex {bs : Bytes} {c : Char} (h : c ∈ (hex bs).toList) :
    c ∈ hexDigits := by
  rw [hex, String.toList_ofList, List.mem_flatMap] at h
  obtain ⟨b, -, digit⟩ := h
  have octet : b.toNat < 256 := b.toNat_lt
  simp only [hexOctet, List.mem_cons, List.not_mem_nil, or_false] at digit
  rcases digit with rfl | rfl
  · exact digitChar_mem_hexDigits (by omega)
  · exact digitChar_mem_hexDigits (by omega)

end Bytes
end JarAtlas
