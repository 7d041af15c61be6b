/-! Finite sets of names, kept in ascending order so that equal sets are equal values. -/
namespace JarAtlas

theorem name_lt_of_ne {a b : String} (ne : a ≠ b) (h : ¬ b < a) : a < b :=
  Decidable.byContradiction fun k => ne (String.le_antisymm h k)

theorem name_ne_of_lt {a b : String} (lt : a < b) : a ≠ b :=
  fun same => String.lt_irrefl b (same ▸ lt)

/-- Names in strictly ascending order, by code points. -/
structure NameSet where
  toList : List String
  ascending : toList.Pairwise (· < ·)
  deriving DecidableEq

namespace NameSet

@[ext] theorem ext {s t : NameSet} (h : s.toList = t.toList) : s = t := by
  cases s; cases t; cases h; rfl

def empty : NameSet := ⟨[], .nil⟩

instance : EmptyCollection NameSet := ⟨empty⟩

instance : Inhabited NameSet := ⟨empty⟩

instance : Membership String NameSet := ⟨fun s a => a ∈ s.toList⟩

instance (a : String) (s : NameSet) : Decidable (a ∈ s) :=
  inferInstanceAs (Decidable (a ∈ s.toList))

def size (s : NameSet) : Nat := s.toList.length

def isEmpty (s : NameSet) : Bool := s.toList.isEmpty

def insertInto (a : String) : List String → List String
  | [] => [a]
  | b :: bs => if a < b then a :: b :: bs else if a = b then b :: bs else b :: insertInto a bs

@[simp] theorem mem_insertInto {a x : String} {bs : List String} :
    x ∈ insertInto a bs ↔ x = a ∨ x ∈ bs := by
  induction bs with
  | nil => simp [insertInto]
  | cons b bs ih => grind [insertInto]

theorem insertInto_ascending {a : String} {bs : List String} (h : bs.Pairwise (· < ·)) :
    (insertInto a bs).Pairwise (· < ·) := by
  induction bs with
  | nil => simp [insertInto]
  | cons b bs ih =>
    rw [List.pairwise_cons] at h
    unfold insertInto
    split
    · next lt =>
      refine .cons (fun x hx => ?_) (.cons h.1 h.2)
      rcases List.mem_cons.1 hx with rfl | hx
      · exact lt
      · exact String.lt_trans lt (h.1 x hx)
    · next nlt =>
      split
      · exact .cons h.1 h.2
      · next ne =>
        refine .cons (fun x hx => ?_) (ih h.2)
        rcases mem_insertInto.1 hx with rfl | hx
        · exact name_lt_of_ne (Ne.symm ne) nlt
        · exact h.1 x hx

def insert (s : NameSet) (a : String) : NameSet :=
  ⟨insertInto a s.toList, insertInto_ascending s.ascending⟩

def ofList (names : List String) : NameSet := names.foldl insert empty

theorem mem_def {a : String} {s : NameSet} : a ∈ s ↔ a ∈ s.toList := Iff.rfl

@[simp] theorem not_mem_empty {a : String} : ¬ a ∈ empty := by simp [mem_def, empty]

@[simp] theorem mem_insert {a x : String} {s : NameSet} : x ∈ s.insert a ↔ x = a ∨ x ∈ s :=
  mem_insertInto

theorem mem_foldl_insert {x : String} {names : List String} {s : NameSet} :
    x ∈ names.foldl insert s ↔ x ∈ names ∨ x ∈ s := by
  induction names generalizing s with
  | nil => simp
  | cons a names ih => simp [ih, or_assoc, or_left_comm]

@[simp] theorem mem_ofList {x : String} {names : List String} : x ∈ ofList names ↔ x ∈ names := by
  simp [ofList, mem_foldl_insert]

theorem eq_of_ascending {xs ys : List String} (hx : xs.Pairwise (· < ·))
    (hy : ys.Pairwise (· < ·)) (same : ∀ a, a ∈ xs ↔ a ∈ ys) : xs = ys := by
  induction xs generalizing ys with
  | nil =>
    cases ys with
    | nil => rfl
    | cons y ys => exact absurd ((same y).2 (by simp)) (by simp)
  | cons x xs ih =>
    cases ys with
    | nil => exact absurd ((same x).1 (by simp)) (by simp)
    | cons y ys =>
      rw [List.pairwise_cons] at hx hy
      have heads : x = y := by
        have hxy := (same x).1 (by simp)
        have hyx := (same y).2 (by simp)
        rcases List.mem_cons.1 hxy with h | h
        · exact h
        rcases List.mem_cons.1 hyx with k | k
        · exact k.symm
        · exact absurd (String.lt_trans (hx.1 y k) (hy.1 x h)) (String.lt_irrefl x)
      subst heads
      congr 1
      refine ih hx.2 hy.2 fun a => ⟨fun h => ?_, fun h => ?_⟩
      · rcases List.mem_cons.1 ((same a).1 (.tail _ h)) with rfl | k
        · exact absurd (hx.1 a h) (String.lt_irrefl a)
        · exact k
      · rcases List.mem_cons.1 ((same a).2 (.tail _ h)) with rfl | k
        · exact absurd (hy.1 a h) (String.lt_irrefl a)
        · exact k

theorem eq_of_mem_iff {s t : NameSet} (same : ∀ a, a ∈ s ↔ a ∈ t) : s = t :=
  ext (eq_of_ascending s.ascending t.ascending same)

end NameSet
end JarAtlas
