import JarAtlas.Text.Utf8

/-! Octets that a text is written in read back as that text, without a fault. -/
namespace JarAtlas
namespace Utf8

theorem start_one : ∀ n < 0x80, start (.ofNat n) = ([some (Char.ofNat n)], .between) := by decide

theorem start_two : ∀ h < 0x20, 2 ≤ h →
    start (.ofNat (h + 0xC0)) = ([], .within h 1 0x80 0xBF) := by decide

/-- Behind the least first octet the second is not small, or a shorter form would do, and behind one
other it is not large, for these are surrogates. -/
theorem start_three : ∀ h < 0x10, start (.ofNat (h + 0xE0)) =
    ([], .within h 2 (if h = 0 then 0xA0 else 0x80) (if h = 0xD then 0x9F else 0xBF)) := by decide

theorem start_four : ∀ h < 5, start (.ofNat (h + 0xF0)) =
    ([], .within h 3 (if h = 0 then 0x90 else 0x80) (if h = 4 then 0x8F else 0xBF)) := by decide

theorem readFrom_within {value owed t : Nat} {low high : UInt8} (small : t < 64)
    (above : low.toNat ≤ t + 0x80) (below : t + 0x80 ≤ high.toNat) (bs : Bytes) :
    readFrom (.within value owed low high) (.ofNat (t + 0x80) :: bs) =
      if owed ≤ 1 then some (Char.ofNat (value * 64 + t)) :: readFrom .between bs
      else readFrom (.within (value * 64 + t) (owed - 1) 0x80 0xBF) bs := by
  have octet : (UInt8.ofNat (t + 0x80)).toNat = t + 0x80 := by
    rw [UInt8.toNat_ofNat']
    omega
  have inside : low ≤ UInt8.ofNat (t + 0x80) ∧ UInt8.ofNat (t + 0x80) ≤ high := by
    rw [UInt8.le_iff_toNat_le, UInt8.le_iff_toNat_le, octet]
    exact ⟨above, below⟩
  have added : value * 64 + (t + 0x80 - 0x80) = value * 64 + t := by omega
  simp only [readFrom, step, inside, octet, added, and_self, if_true]
  split <;> rfl

theorem readFrom_between_cons (b : UInt8) (bs : Bytes) :
    readFrom .between (b :: bs) = (start b).1 ++ readFrom (start b).2 bs := rfl

theorem readFrom_last {value t : Nat} (small : t < 64) (bs : Bytes) :
    readFrom (.within value 1 0x80 0xBF) (.ofNat (t + 0x80) :: bs) =
      some (Char.ofNat (value * 64 + t)) :: readFrom .between bs := by
  have top : (0xBF : UInt8).toNat = 0xBF := rfl
  have bottom : (0x80 : UInt8).toNat = 0x80 := rfl
  rw [readFrom_within small (by omega) (by omega)]
  rfl

theorem readFrom_one {v : Nat} (small : v < 0x80) (bs : Bytes) :
    readFrom .between (.ofNat v :: bs) = some (Char.ofNat v) :: readFrom .between bs := by
  rw [readFrom_between_cons, start_one v small]
  rfl

theorem readFrom_two {v : Nat} (large : 0x80 ≤ v) (small : v < 0x800) (bs : Bytes) :
    readFrom .between (.ofNat (v / 64 % 0x20 + 0xC0) :: .ofNat (v % 64 + 0x80) :: bs) =
      some (Char.ofNat v) :: readFrom .between bs := by
  have whole : v / 64 % 32 * 64 + v % 64 = v := by omega
  rw [readFrom_between_cons, start_two _ (by omega) (by omega), List.nil_append,
    readFrom_last (by omega), whole]

theorem readFrom_three {v : Nat} (large : 0x800 ≤ v) (small : v < 0x10000)
    (scalar : v < 0xD800 ∨ 0xDFFF < v) (bs : Bytes) :
    readFrom .between (.ofNat (v / 4096 % 0x10 + 0xE0) :: .ofNat (v / 64 % 64 + 0x80) ::
      .ofNat (v % 64 + 0x80) :: bs) = some (Char.ofNat v) :: readFrom .between bs := by
  have whole : (v / 4096 % 16 * 64 + v / 64 % 64) * 64 + v % 64 = v := by omega
  have low : (if v / 4096 % 16 = 0 then 0xA0 else 0x80 : UInt8).toNat ≤ v / 64 % 64 + 0x80 := by
    rw [apply_ite UInt8.toNat]
    change (if _ then 0xA0 else 0x80) ≤ _
    split <;> omega
  have high : v / 64 % 64 + 0x80 ≤
      (if v / 4096 % 16 = 0xD then 0x9F else 0xBF : UInt8).toNat := by
    rw [apply_ite UInt8.toNat]
    change _ ≤ if _ then 0x9F else 0xBF
    split <;> omega
  rw [readFrom_between_cons, start_three _ (by omega), List.nil_append,
    readFrom_within (by omega) low high, if_neg (by decide), readFrom_last (by omega), whole]

theorem readFrom_four {v : Nat} (large : 0x10000 ≤ v) (small : v < 0x110000) (bs : Bytes) :
    readFrom .between (.ofNat (v / 262144 % 8 + 0xF0) :: .ofNat (v / 4096 % 64 + 0x80) ::
      .ofNat (v / 64 % 64 + 0x80) :: .ofNat (v % 64 + 0x80) :: bs) =
      some (Char.ofNat v) :: readFrom .between bs := by
  have whole : ((v / 262144 % 8 * 64 + v / 4096 % 64) * 64 + v / 64 % 64) * 64 + v % 64 = v := by
    omega
  have low : (if v / 262144 % 8 = 0 then 0x90 else 0x80 : UInt8).toNat ≤
      v / 4096 % 64 + 0x80 := by
    rw [apply_ite UInt8.toNat]
    change (if _ then 0x90 else 0x80) ≤ _
    split <;> omega
  have high : v / 4096 % 64 + 0x80 ≤
      (if v / 262144 % 8 = 4 then 0x8F else 0xBF : UInt8).toNat := by
    rw [apply_ite UInt8.toNat]
    change _ ≤ if _ then 0x8F else 0xBF
    split <;> omega
  have bottom : (0x80 : UInt8).toNat = 0x80 := rfl
  have top : (0xBF : UInt8).toNat = 0xBF := rfl
  rw [readFrom_between_cons, start_four _ (by omega), List.nil_append,
    readFrom_within (by omega) low high, if_neg (by decide),
    readFrom_within (by omega) (by omega) (by omega), if_neg (by decide),
    readFrom_last (by omega), whole]

theorem readFrom_char (c : Char) (bs : Bytes) :
    readFrom .between (String.utf8EncodeChar c ++ bs) = some c :: readFrom .between bs := by
  have point : Char.ofNat c.val.toNat = c := Char.ofNat_toNat c
  have valid := c.valid
  simp only [UInt32.isValidChar, Nat.isValidChar] at valid
  unfold String.utf8EncodeChar
  dsimp only
  generalize c.val.toNat = v at point valid ⊢
  rw [← point]
  split
  · next small => exact readFrom_one (by omega) bs
  split
  · next large small => exact readFrom_two (by omega) (by omega) bs
  split
  · next large small => exact readFrom_three (by omega) (by omega) (by omega) bs
  · next large => exact readFrom_four (by omega) (by omega) bs

theorem read_encode_append (s : String) (bs : Bytes) :
    read (encode s ++ bs) = s.toList.map some ++ read bs := by
  have chars (cs : List Char) : readFrom .between (cs.flatMap String.utf8EncodeChar ++ bs) =
      cs.map some ++ readFrom .between bs := by
    induction cs with
    | nil => rfl
    | cons c cs ih => rw [List.flatMap_cons, List.append_assoc, readFrom_char, ih, List.map_cons,
        List.cons_append]
  exact chars s.toList

theorem decodeLossy_encode_append (s : String) (bs : Bytes) :
    decodeLossy (encode s ++ bs) = s ++ decodeLossy bs := by
  have kept : (fun c : Option Char => c.getD '\uFFFD') ∘ some = id := rfl
  rw [decodeLossy, read_encode_append, List.map_append, List.map_map, kept, List.map_id,
    String.ofList_append, String.ofList_toList, decodeLossy]

/-- What is written as text reads back as that text. -/
@[simp] theorem decodeLossy_encode (s : String) : decodeLossy (encode s) = s := by
  simpa using decodeLossy_encode_append s []

end Utf8
end JarAtlas
