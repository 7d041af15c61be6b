import JarAtlas.Names.Set

/-! Finite tables from names to values, kept in ascending order of the names. -/
namespace JarAtlas

/-- Entries in strictly ascending order of their names. -/
structure NameTable (α : Type) where
  entries : List (String × α)
  ascending : (entries.map Prod.fst).Pairwise (· < ·)

namespace NameTable

variable {α : Type}

@[ext] theorem ext {s t : NameTable α} (h : s.entries = t.entries) : s = t := by
  cases s; cases t; cases h; rfl

theorem nil_ascending : (([] : List (String × α)).map Prod.fst).Pairwise (· < ·) := .nil

def empty : NameTable α := ⟨[], nil_ascending⟩

instance : EmptyCollection (NameTable α) := ⟨empty⟩

instance : Inhabited (NameTable α) := ⟨empty⟩

instance [DecidableEq α] : DecidableEq (NameTable α) := fun s t =>
  decidable_of_iff (s.entries = t.entries) ⟨ext, fun h => h ▸ rfl⟩

def names (t : NameTable α) : List String := t.entries.map Prod.fst

def size (t : NameTable α) : Nat := t.entries.length

def isEmpty (t : NameTable α) : Bool := t.entries.isEmpty

def lookup (a : String) : List (String × α) → Option α
  | [] => none
  | (b, v) :: es => if a = b then some v else lookup a es

def find? (t : NameTable α) (a : String) : Option α := lookup a t.entries

def contains (t : NameTable α) (a : String) : Bool := (t.find? a).isSome

/-- The value of a name is worked out from the one that it has, if any. A new name takes its
place in the order. -/
def alterIn (a : String) (f : Option α → α) : List (String × α) → List (String × α)
  | [] => [(a, f none)]
  | (b, v) :: es =>
    if a < b then (a, f none) :: (b, v) :: es
    else if a = b then (b, f (some v)) :: es
    else (b, v) :: alterIn a f es

theorem map_fst_alterIn (a : String) (f : Option α → α) (es : List (String × α)) :
    (alterIn a f es).map Prod.fst = NameSet.insertInto a (es.map Prod.fst) := by
  induction es with
  | nil => rfl
  | cons e es ih => grind [alterIn, NameSet.insertInto]

def alter (t : NameTable α) (a : String) (f : Option α → α) : NameTable α where
  entries := alterIn a f t.entries
  ascending := by
    rw [map_fst_alterIn]
    exact NameSet.insertInto_ascending t.ascending

def insert (t : NameTable α) (a : String) (v : α) : NameTable α := t.alter a fun _ => v

theorem lookup_eq_none_of_lt {a : String} {es : List (String × α)}
    (h : ∀ x ∈ es.map Prod.fst, a < x) : lookup a es = none := by
  induction es with
  | nil => rfl
  | cons e es ih =>
    have ne : a ≠ e.1 := fun k => String.lt_irrefl a (k ▸ h e.1 (by simp))
    simp only [lookup, ne, if_false]
    exact ih fun x hx => h x (List.mem_cons_of_mem _ hx)

theorem lookup_alterIn {a x : String} {f : Option α → α} {es : List (String × α)}
    (h : (es.map Prod.fst).Pairwise (· < ·)) :
    lookup x (alterIn a f es) = if x = a then some (f (lookup a es)) else lookup x es := by
  induction es with
  | nil => by_cases hx : x = a <;> simp [alterIn, lookup, hx]
  | cons e es ih =>
    obtain ⟨b, v⟩ := e
    rw [List.map_cons, List.pairwise_cons] at h
    by_cases lt : a < b
    · have missing : lookup a ((b, v) :: es) = none := by
        refine lookup_eq_none_of_lt fun y hy => ?_
        rcases List.mem_cons.1 hy with rfl | hy
        · exact lt
        · exact String.lt_trans lt (h.1 y hy)
      rw [missing]
      simp only [alterIn, lt, if_true, lookup]
    · by_cases eq : a = b
      · subst eq
        simp only [alterIn, lt, if_false, if_true, lookup]
        split <;> rfl
      · simp only [alterIn, lt, eq, if_false, lookup, ih h.2]
        by_cases hb : x = b
        · simp [hb, Ne.symm eq]
        · simp [hb]

@[simp] theorem find?_empty (x : String) : (empty : NameTable α).find? x = none := rfl

@[simp] theorem find?_alter (t : NameTable α) (a x : String) (f : Option α → α) :
    (t.alter a f).find? x = if x = a then some (f (t.find? a)) else t.find? x :=
  lookup_alterIn t.ascending

@[simp] theorem find?_insert (t : NameTable α) (a x : String) (v : α) :
    (t.insert a v).find? x = if x = a then some v else t.find? x :=
  find?_alter t a x _

theorem mem_names_iff {t : NameTable α} {a : String} : a ∈ t.names ↔ (t.find? a).isSome := by
  obtain ⟨es, h⟩ := t
  simp only [names, find?]
  clear h
  induction es with
  | nil => simp [lookup]
  | cons e es ih => by_cases h : a = e.1 <;> simp_all [lookup]

@[simp] theorem mem_names_alter {t : NameTable α} {a x : String} {f : Option α → α} :
    x ∈ (t.alter a f).names ↔ x = a ∨ x ∈ t.names := by
  simp [names, alter, map_fst_alterIn]

theorem lookup_of_mem {a : String} {v : α} {es : List (String × α)}
    (h : (es.map Prod.fst).Pairwise (· < ·)) (mem : (a, v) ∈ es) : lookup a es = some v := by
  induction es with
  | nil => simp at mem
  | cons e es ih =>
    rw [List.map_cons, List.pairwise_cons] at h
    rcases List.mem_cons.1 mem with rfl | mem
    · simp [lookup]
    · have lt : e.1 < a := h.1 a (List.mem_map.2 ⟨(a, v), mem, rfl⟩)
      have ne : a ≠ e.1 := fun k => String.lt_irrefl a (k ▸ lt)
      simp only [lookup, ne, if_false]
      exact ih h.2 mem

theorem mem_of_lookup {a : String} {v : α} {es : List (String × α)} (h : lookup a es = some v) :
    (a, v) ∈ es := by
  induction es with
  | nil => simp [lookup] at h
  | cons e es ih =>
    obtain ⟨b, w⟩ := e
    simp only [lookup] at h
    split at h
    · next eq => simp [eq, Option.some.inj h]
    · exact .tail _ (ih h)

theorem mem_entries_iff {t : NameTable α} {a : String} {v : α} :
    (a, v) ∈ t.entries ↔ t.find? a = some v :=
  ⟨lookup_of_mem t.ascending, mem_of_lookup⟩

theorem nodup_names (t : NameTable α) : t.names.Nodup := t.ascending.imp name_ne_of_lt

theorem map_names (t : NameTable α) :
    t.names.map (fun a => (a, t.find? a)) = t.entries.map fun e => (e.1, some e.2) := by
  rw [names, List.map_map]
  refine List.map_congr_left fun e he => ?_
  exact congrArg (Prod.mk e.1) (mem_entries_iff.1 he)

theorem ext_find? {s t : NameTable α} (same : ∀ a, s.find? a = t.find? a) : s = t := by
  have names : s.names = t.names := NameSet.eq_of_ascending s.ascending t.ascending fun a =>
    mem_names_iff.trans (by rw [same, ← mem_names_iff, names])
  have find : s.find? = t.find? := funext same
  have listed : s.entries.map (fun e => (e.1, some e.2)) =
      t.entries.map fun e => (e.1, some e.2) := by
    rw [← map_names s, ← map_names t, names, find]
  refine ext ((List.map_inj_right fun e e' h => ?_).1 listed)
  obtain ⟨name, value⟩ := Prod.mk.inj h
  exact Prod.ext name (Option.some.inj value)

end NameTable
end JarAtlas
