import JarAtlas.Manifest.Parse

/-! What every manifest that was read is like: its names are trimmed, hold no colon and differ by
more than the case of letters, and no name or value holds a line feed. -/
namespace JarAtlas

open Text

/-- The attribute can be written as a line. -/
structure Attribute.Clean (a : Attribute) : Prop where
  trimmed : trim a.name = a.name
  noColon : ':' ∉ a.name.toList
  nameOnOneLine : '\n' ∉ a.name.toList
  valueOnOneLine : '\n' ∉ a.value.toList

instance (a : Attribute) : Decidable a.Clean :=
  decidable_of_iff (trim a.name = a.name ∧ ':' ∉ a.name.toList ∧ '\n' ∉ a.name.toList ∧
      '\n' ∉ a.value.toList)
    ⟨fun ⟨h₁, h₂, h₃, h₄⟩ => ⟨h₁, h₂, h₃, h₄⟩, fun ⟨h₁, h₂, h₃, h₄⟩ => ⟨h₁, h₂, h₃, h₄⟩⟩

namespace Manifest

/-- No two names are equal but for the case of ASCII letters. -/
def Distinct (as : List Attribute) : Prop :=
  as.Pairwise fun a b => sameIgnoringCase a.name b.name = false

structure WellFormed (m : Manifest) : Prop where
  distinct : Distinct m.attributes
  clean : ∀ a ∈ m.attributes, a.Clean

instance (as : List Attribute) : Decidable (Distinct as) :=
  inferInstanceAs (Decidable (as.Pairwise _))

instance (m : Manifest) : Decidable m.WellFormed :=
  decidable_of_iff (Distinct m.attributes ∧ ∀ a ∈ m.attributes, a.Clean)
    ⟨fun ⟨h₁, h₂⟩ => ⟨h₁, h₂⟩, fun ⟨h₁, h₂⟩ => ⟨h₁, h₂⟩⟩

theorem distinct_iff_names {as : List Attribute} :
    Distinct as ↔ (as.map Attribute.name).Pairwise fun a b => sameIgnoringCase a b = false := by
  simp only [Distinct, List.pairwise_map]

theorem get?_of_mem {m : Manifest} (distinct : Distinct m.attributes) {a : Attribute}
    (mem : a ∈ m.attributes) : m.get? a.name = some a.value := by
  obtain ⟨as⟩ := m
  simp only [get?, Option.map_eq_some_iff]
  refine ⟨a, ?_, rfl⟩
  induction as with
  | nil => cases mem
  | cons b as ih =>
    obtain ⟨apart, rest⟩ := List.pairwise_cons.1 distinct
    rcases List.mem_cons.1 mem with rfl | mem
    · exact List.find?_cons_of_pos (named_self a)
    · have other : ¬ named a.name b = true := Bool.eq_false_iff.1 (apart a mem)
      rw [List.find?_cons_of_neg other, ih rest mem]

theorem distinct_putIn {name value : String} {as : List Attribute} (h : Distinct as) :
    Distinct (putIn name value as) := by
  rw [distinct_iff_names] at h ⊢
  rw [map_name_putIn]
  split
  · exact h
  · next missing =>
    refine List.pairwise_append.2 ⟨h, List.pairwise_singleton _ _, fun x hx y hy => ?_⟩
    obtain ⟨a, ha, rfl⟩ := List.mem_map.1 hx
    obtain rfl := List.mem_singleton.1 hy
    exact Bool.eq_false_iff.2 fun same => missing (List.any_eq_true.2 ⟨a, ha, same⟩)

theorem distinct_extendIn {more : String} {as : List Attribute} (h : Distinct as) :
    Distinct (extendIn more as) := by
  rw [distinct_iff_names] at h ⊢
  rwa [map_name_extendIn]

theorem clean_putIn {name value : String} {as : List Attribute}
    (new : (⟨name, value⟩ : Attribute).Clean) (old : ∀ a ∈ as, a.Clean) :
    ∀ a ∈ putIn name value as, a.Clean := by
  induction as with
  | nil => simpa [putIn] using new
  | cons b as ih =>
    have rest := ih fun a ha => old a (List.mem_cons_of_mem _ ha)
    have first := old b List.mem_cons_self
    unfold putIn
    split
    · have changed : ({ b with value } : Attribute).Clean :=
        ⟨first.trimmed, first.noColon, first.nameOnOneLine, new.valueOnOneLine⟩
      intro a ha
      rcases List.mem_cons.1 ha with rfl | ha
      · exact changed
      · exact old a (List.mem_cons_of_mem _ ha)
    · intro a ha
      rcases List.mem_cons.1 ha with rfl | ha
      · exact first
      · exact rest a ha

theorem clean_extendIn {more : String} {as : List Attribute} (new : '\n' ∉ more.toList)
    (old : ∀ a ∈ as, a.Clean) : ∀ a ∈ extendIn more as, a.Clean := by
  induction as with
  | nil => exact old
  | cons b as ih =>
    have first := old b List.mem_cons_self
    cases as with
    | nil =>
      have grown : '\n' ∉ (b.value ++ more).toList := by
        simpa using ⟨first.valueOnOneLine, new⟩
      intro a ha
      obtain rfl := List.mem_singleton.1 ha
      exact ⟨first.trimmed, first.noColon, first.nameOnOneLine, grown⟩
    | cons c as =>
      intro a ha
      rcases List.mem_cons.1 ha with rfl | ha
      · exact first
      · exact ih (fun d hd => old d (List.mem_cons_of_mem _ hd)) a ha

/-- What a line must be like so that reading it keeps a manifest well-formed. -/
def Line.Clean : Line → Prop
  | .continuation rest => '\n' ∉ rest.toList
  | .attribute name value => (⟨name, value⟩ : Attribute).Clean
  | .malformed _ => True

theorem wellFormed_empty : empty.WellFormed := ⟨.nil, by simp [empty]⟩

theorem WellFormed.read {m : Manifest} (h : m.WellFormed) {l : Line} (clean : l.Clean) :
    (m.read l).WellFormed :=
  match l, clean with
  | .continuation _, clean => ⟨distinct_extendIn h.distinct, clean_extendIn clean h.clean⟩
  | .attribute _ _, clean => ⟨distinct_putIn h.distinct, clean_putIn clean h.clean⟩
  | .malformed _, _ => h

theorem WellFormed.foldl_read {ls : List Line} (clean : ∀ l ∈ ls, l.Clean) {m : Manifest}
    (h : m.WellFormed) : (ls.foldl Manifest.read m).WellFormed := by
  induction ls generalizing m with
  | nil => exact h
  | cons l ls ih =>
    exact ih (fun k hk => clean k (List.mem_cons_of_mem _ hk)) (h.read (clean l List.mem_cons_self))

theorem mem_of_mem_dropBlank {c : Char} {cs : List Char} (h : c ∈ dropBlank cs) : c ∈ cs := by
  unfold dropBlank at h
  split at h
  · exact List.mem_cons_of_mem _ h
  · exact h

theorem Line.clean_ofChars {l : List Char} (oneLine : '\n' ∉ l) : (Line.ofChars l).Clean := by
  unfold Line.ofChars
  split
  · next rest => simpa [Line.Clean] using oneLine
  · split
    · next name value e =>
      obtain ⟨rfl, noColon⟩ := eq_append_of_cut? e
      simp only [List.mem_append, List.mem_cons, not_or] at oneLine
      refine ⟨by simp [trim], ?_, ?_, ?_⟩
      · exact fun h => noColon (mem_of_mem_trimChars (by simpa using h))
      · exact fun h => oneLine.1 (mem_of_mem_trimChars (by simpa using h))
      · exact fun h => oneLine.2.2 (mem_of_mem_dropBlank (by simpa using h))
    · trivial

theorem wellFormed_parse (text : String) : (parse text).WellFormed := by
  refine wellFormed_empty.foldl_read fun l hl => ?_
  obtain ⟨cs, hcs, rfl⟩ := List.mem_map.1 hl
  exact Line.clean_ofChars (not_mem_of_mem_lines ((List.takeWhile_sublist _).subset hcs))

end Manifest
end JarAtlas
