import JarAtlas.Proofs.Manifest.Description
import JarAtlas.Proofs.Manifest.Rendering
import Mathlib.Data.Finset.Card
import Mathlib.Data.Finset.Dedup

/-! Manifests made of pairs. A manifest is an ordered table in which names are equal whatever the
case of their letters: a name stands where it came first and is spelled as it was then, and its value
is the one that came last. -/
namespace JarAtlas
namespace Manifest

open Text

def pairs (m : Manifest) : List (String × String) := m.attributes.map fun a => (a.name, a.value)

variable {name value other : String}

theorem get?_congr (m : Manifest) (same : sameIgnoringCase name other = true) :
    m.get? name = m.get? other := by
  rw [get?, get?, named_congr same]

theorem get?_put_of_ne (m : Manifest) (apart : sameIgnoringCase name other = false)
    (value : String) : (m.put name value).get? other = m.get? other := by
  obtain ⟨as⟩ := m
  simp only [get?, put]
  induction as with
  | nil => simp [putIn, named, apart]
  | cons a as ih =>
    by_cases same : named name a = true
    · have missed : named other a = false := by
        refine Bool.eq_false_iff.2 fun found => Bool.eq_false_iff.1 apart ?_
        rw [named, sameIgnoringCase_iff] at same found
        rw [sameIgnoringCase_iff, ← same, found]
      have stillMissed : named other { a with value } = false := missed
      simp only [putIn, same, if_true, List.find?_cons, missed, stillMissed]
    · rw [putIn, if_neg same]
      by_cases found : named other a = true
      · rw [List.find?_cons_of_pos found, List.find?_cons_of_pos found]
      · rw [List.find?_cons_of_neg found, List.find?_cons_of_neg found, ih]

theorem get?_put (m : Manifest) (name value other : String) : (m.put name value).get? other =
    if sameIgnoringCase name other then some value else m.get? other := by
  split
  · next same => rw [← get?_congr _ same, get?_put_self]
  · next apart => exact get?_put_of_ne m (Bool.eq_false_iff.2 apart) value

theorem isSome_get?_iff {m : Manifest} :
    (m.get? name).isSome = true ↔ ∃ a ∈ m.attributes, sameIgnoringCase a.name name = true := by
  rw [get?, Option.isSome_map, List.find?_isSome]
  rfl

theorem ofPairs_concat (ps : List (String × String)) (p : String × String) :
    ofPairs (ps ++ [p]) = (ofPairs ps).put p.1 p.2 := by
  simp [ofPairs]

theorem ofPairs_eq_foldl_read (ps : List (String × String)) :
    ofPairs ps = (ps.map fun p => Line.attribute p.1 p.2).foldl read empty := by
  rw [ofPairs, List.foldl_map]
  rfl

theorem describes_ofPairs (ps : List (String × String)) :
    Describes (ps.map fun p => Line.attribute p.1 p.2) (ofPairs ps) := by
  rw [ofPairs_eq_foldl_read]
  exact describes_foldl_read _

theorem map_name_ofPairs (ps : List (String × String)) :
    (ofPairs ps).attributes.map Attribute.name =
      (ps.map Prod.fst).eraseDupsBy sameIgnoringCase := by
  rw [(describes_ofPairs ps).names, spellings, List.filterMap_map, ← List.filterMap_eq_map]
  rfl

theorem get?_ofPairs (ps : List (String × String)) (name : String) : (ofPairs ps).get? name =
    ((ps.filter fun p => sameIgnoringCase p.1 name).getLast?).map Prod.snd := by
  induction ps using List.reverseRecOn with
  | nil => rfl
  | append_singleton ps p ih =>
    rw [ofPairs_concat, get?_put, ih, List.filter_append]
    split
    · next same => simp [same]
    · next apart => simp [apart]

theorem exists_name_ofPairs_iff {ps : List (String × String)} :
    (∃ a ∈ (ofPairs ps).attributes, sameIgnoringCase a.name name = true) ↔
      ∃ p ∈ ps, sameIgnoringCase p.1 name = true := by
  rw [← isSome_get?_iff, get?_ofPairs, Option.isSome_map, List.getLast?_isSome, ne_eq,
    List.filter_eq_nil_iff]
  simp

theorem nodup_lower {as : List Attribute} (distinct : Distinct as) :
    (as.map fun a => lower a.name).Nodup := by
  rw [List.Nodup, List.pairwise_map]
  refine distinct.imp fun apart same => ?_
  rw [sameIgnoringCase_iff.2 same] at apart
  cases apart

theorem size_ofPairs (ps : List (String × String)) :
    (ofPairs ps).size = (ps.map fun p => lower p.1).toFinset.card := by
  have names : ((ofPairs ps).attributes.map fun a => lower a.name).toFinset =
      (ps.map fun p => lower p.1).toFinset := by
    ext small
    simp only [List.mem_toFinset, List.mem_map]
    constructor
    · rintro ⟨a, ha, rfl⟩
      obtain ⟨p, hp, same⟩ := exists_name_ofPairs_iff.1 ⟨a, ha, sameIgnoringCase_refl a.name⟩
      exact ⟨p, hp, sameIgnoringCase_iff.1 same⟩
    · rintro ⟨p, hp, rfl⟩
      obtain ⟨a, ha, same⟩ := exists_name_ofPairs_iff.2 ⟨p, hp, sameIgnoringCase_refl p.1⟩
      exact ⟨a, ha, sameIgnoringCase_iff.1 same⟩
  rw [size, ← names, List.toFinset_card_of_nodup (nodup_lower (describes_ofPairs ps).distinct),
    List.length_map]

theorem ofPairs_pairs {m : Manifest} (distinct : Distinct m.attributes) : ofPairs m.pairs = m := by
  obtain ⟨as⟩ := m
  induction as using List.reverseRecOn with
  | nil => rfl
  | append_singleton as a ih =>
    obtain ⟨front, -, apart⟩ := List.pairwise_append.1 distinct
    have new : ∀ b ∈ as, named a.name b = false := fun b hb => apart b hb a List.mem_cons_self
    have cut : pairs ⟨as ++ [a]⟩ = pairs ⟨as⟩ ++ [(a.name, a.value)] := by simp [pairs]
    rw [cut, ofPairs_concat, ih front, put, putIn_of_new new]

/-- Pairs make an ordered table. Its names differ by more than the case of their letters. Each stands
where it came first and is spelled as it was then. Looked up in letters of any case, it has the value
that came last, and there are no other names. The table comes back from its own pairs, and so does
every manifest that was read. -/
theorem ofPairs_ordered (ps : List (String × String)) (text : String) :
    Distinct (ofPairs ps).attributes ∧
    (ofPairs ps).attributes.map Attribute.name =
      (ps.map Prod.fst).eraseDupsBy sameIgnoringCase ∧
    (∀ name, (ofPairs ps).get? name =
      ((ps.filter fun p => sameIgnoringCase p.1 name).getLast?).map Prod.snd) ∧
    (ofPairs ps).size = (ps.map fun p => lower p.1).toFinset.card ∧
    ofPairs (ofPairs ps).pairs = ofPairs ps ∧
    Distinct (parse text).attributes ∧ ofPairs (parse text).pairs = parse text := by
  have distinct := (describes_ofPairs ps).distinct
  have read := (wellFormed_parse text).distinct
  exact ⟨distinct, map_name_ofPairs ps, get?_ofPairs ps, size_ofPairs ps, ofPairs_pairs distinct,
    read, ofPairs_pairs read⟩

/-- A name that comes again in other letters has its first spelling and its last value. -/
example : ofPairs [("A", "1"), ("b", "2"), ("a", "3")] = ⟨[⟨"A", "3"⟩, ⟨"b", "2"⟩]⟩ := by decide

end Manifest
end JarAtlas
