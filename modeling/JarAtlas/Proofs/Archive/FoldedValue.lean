import JarAtlas.Proofs.Archive.PlainImage
import JarAtlas.Proofs.Manifest.Folding

/-! What an archive shows of a manifest whose values are folded by a count of octets. A value is
there as it was written if and only if none of its folds is within a character. -/
namespace JarAtlas
namespace Archive

open Manifest

/-- The file is an archive that opens, and these octets are the manifest that counts in it. -/
inductive HoldsManifest (w : World) (path : String) (data : Bytes) : Prop where
  | last {content : Bytes} {before after : List Zip.Member} {m : Zip.Member} :
      w.files.readFile w.here path = .ok content →
      Zip.members content = .ok (before ++ m :: after) →
      (∀ x ∈ before ++ m :: after, Readable x) →
      EntryKind.ofPath m.name = .manifest → m.data = .ok data →
      (∀ x ∈ after, EntryKind.ofPath x.name ≠ .manifest) → HoldsManifest w path data

theorem find?_reverse_last (before : List Zip.Member) {after : List Zip.Member} {m : Zip.Member}
    (kind : EntryKind.ofPath m.name = .manifest)
    (later : ∀ x ∈ after, EntryKind.ofPath x.name ≠ .manifest) :
    (before ++ m :: after).reverse.find? (fun x => EntryKind.ofPath x.name = .manifest) =
      some m := by
  have none : after.reverse.find? (fun x => EntryKind.ofPath x.name = .manifest) = none := by
    simpa using later
  rw [List.reverse_append, List.reverse_cons, List.append_assoc, List.find?_append, none]
  simp [kind]

theorem LastManifest.eq_of_last {members before after : List Zip.Member} {m : Zip.Member}
    {content : Bytes} {found : Option Manifest} (h : LastManifest members found)
    (split : members = before ++ m :: after) (kind : EntryKind.ofPath m.name = .manifest)
    (later : ∀ x ∈ after, EntryKind.ofPath x.name ≠ .manifest) (read : m.data = .ok content) :
    found = some (parse (Utf8.decodeLossy content)) := by
  have last := find?_reverse_last before kind later
  rw [← split] at last
  cases h with
  | missing none => exact absurd kind (none m (by simp [split]))
  | last kind' read' later' =>
    have same := Option.some.inj ((find?_reverse_last _ kind' later').symm.trans last)
    rw [same, read] at read'
    cases read'
    rfl

variable {w : World} {path : String} {data : Bytes}

theorem load_manifest [Web] (holds : HoldsManifest w path data) :
    ∃ a events, (load path : StateM World (Except OpenError Archive)) w =
      (.ok a, { w with events }) ∧ a.manifest = some (parse (Utf8.decodeLossy data)) := by
  cases holds with
  | last stored found readable kind read later =>
    obtain ⟨a, events, loaded, gathers⟩ := load_of_readable stored found readable
    exact ⟨a, events, loaded, gathers.manifest.eq_of_last rfl kind later read⟩

theorem holdsManifest_image {before after : List Zip.Plain} {m : Zip.Plain}
    (fits : Zip.Fits (before ++ m :: after))
    (distinct : ((before ++ m :: after).map Zip.Plain.name).Nodup)
    (kind : EntryKind.ofPath m.name = .manifest)
    (later : ∀ x ∈ after, EntryKind.ofPath x.name ≠ .manifest)
    (stored : w.files.readFile w.here path = .ok (Zip.image (before ++ m :: after))) :
    HoldsManifest w path m.content := by
  have found := Zip.members_image fits distinct
  rw [List.map_append, List.map_cons] at found
  refine .last stored found ?_ kind rfl (List.forall_mem_map.2 later)
  rw [← List.map_cons, ← List.map_append]
  exact List.forall_mem_map.2 fun x _ => readable_member x

def manifestMember (data : Bytes) : Zip.Plain := { name := manifestPath, content := data }

def manifestWorld (data : Bytes) : World :=
  ⟨⟨[(["x.jar"], .file (Zip.image [manifestMember data]) false)]⟩, [], .empty, [], [], []⟩

theorem fits_manifestMember (short : data.length < 0xFFFF) : Zip.Fits [manifestMember data] := by
  have twenty : (Utf8.encode manifestPath).length = 20 := by decide
  have name : (Utf8.encode (manifestMember data).name).length = 20 := twenty
  have content : (manifestMember data).content.length < 0xFFFF := short
  constructor
  · refine List.forall_mem_singleton.2 ⟨?_, ?_⟩ <;> omega
  · show 1 < 0xFFFF
    decide
  · rw [Zip.directoryFrom, Zip.directoryFrom, List.append_nil, Zip.Plain.length_directoryHeader,
      name]
    decide
  · rw [Zip.entries, List.flatMap_singleton, Zip.Plain.entry, List.length_append,
      Zip.Plain.length_localHeader, name]
    omega

theorem holdsManifest_manifestWorld (short : data.length < 0xFFFF) :
    HoldsManifest (manifestWorld data) "x.jar" data := by
  have kind : EntryKind.ofPath manifestPath = .manifest := by decide
  have fits : Zip.Fits ([] ++ manifestMember data :: []) := fits_manifestMember short
  exact holdsManifest_image fits (List.nodup_singleton _) kind (by simp) rfl

/-- An archive opens to all attributes of its manifest, however their values are folded. Each has
the pieces of its value, each piece read by itself, and this is the value if and only if no fold is
within a character. -/
theorem load_folded [Web] {cuts : List Cut}
    (shape : (⟨cuts.map Cut.toAttribute⟩ : Manifest).WellFormed)
    (unmarked : (⟨cuts.map Cut.toAttribute⟩ : Manifest).Unmarked)
    (stands : Written cuts data) (holds : HoldsManifest w path data) :
    ∃ a m events, (load path : StateM World (Except OpenError Archive)) w =
      (.ok a, { w with events }) ∧ a.manifest = some m ∧
      m.attributes.map Attribute.name = cuts.map (fun c => c.name) ∧
      ∀ c ∈ cuts, m.get? c.name = some (String.join (c.pieces.map Utf8.decodeLossy)) ∧
        (m.get? c.name = some c.value ↔ c.BetweenCharacters) := by
  obtain ⟨a, events, loaded, manifest⟩ := load_manifest holds
  rw [parse_decodeLossy shape unmarked stands] at manifest
  refine ⟨a, _, events, loaded, manifest, ?_, fun c mem => ?_⟩
  · rw [List.map_map]
    rfl
  · have listed : c.read.attribute ∈ cuts.map fun c => c.read.attribute := List.mem_map_of_mem mem
    have got := get?_of_mem (wellFormed_read shape).distinct listed
    change Manifest.get? _ c.name = _ at got
    rw [got]
    exact ⟨congrArg some (value_read c), Option.some_inj.trans (value_read_eq_iff c)⟩

/-- A value without a fold, one that is folded before its last character, and one that is folded
within its only character. -/
def foldedCuts : List Cut :=
  [⟨⟨"Manifest-Version", "1.0"⟩, Utf8.encode "1.0", [], by decide⟩,
    ⟨⟨"Bundle-Name", "né"⟩, Utf8.encode "n", [Utf8.encode "é"], by decide⟩,
    ⟨⟨"Vendor", "é"⟩, [0xC3], [[0xA9]], by decide⟩]

theorem load_folded_thrice :
    ∃ a m events, (load "x.jar" : StateM World (Except OpenError Archive))
      (manifestWorld (sectionBytes foldedCuts)) =
        (.ok a, { manifestWorld (sectionBytes foldedCuts) with events }) ∧
      a.manifest = some m ∧ m.get? "Manifest-Version" = some "1.0" ∧
      m.get? "Bundle-Name" = some "né" ∧ m.get? "Vendor" = some "\uFFFD\uFFFD" := by
  have shape : (⟨foldedCuts.map Cut.toAttribute⟩ : Manifest).WellFormed := by decide
  have unmarked : (⟨foldedCuts.map Cut.toAttribute⟩ : Manifest).Unmarked := by
    intro a first
    obtain rfl : (⟨"Manifest-Version", "1.0"⟩ : Attribute) = a := Option.some.inj first
    decide
  have holds : HoldsManifest (manifestWorld (sectionBytes foldedCuts)) "x.jar"
      (sectionBytes foldedCuts) := holdsManifest_manifestWorld (by decide)
  obtain ⟨a, m, events, loaded, manifest, -, values⟩ := load_folded shape unmarked .ended holds
  simp only [foldedCuts, List.forall_mem_cons] at values
  obtain ⟨version, name, vendor, -⟩ := values
  refine ⟨a, m, events, loaded, manifest, ?_, ?_, ?_⟩
  · exact version.2.2 (List.forall_mem_singleton.2 ⟨"1.0", rfl⟩)
  · exact name.2.2 (List.forall_mem_cons.2 ⟨⟨"n", rfl⟩, List.forall_mem_singleton.2 ⟨"é", rfl⟩⟩)
  · rw [vendor.1]
    decide

/-- A value that is folded within a character is not found as it was written: two faults stand in
the place of the character. -/
theorem load_folded_within_character :
    ¬ ∀ (w : World) (path : String) (c : Cut), c.toAttribute.Clean →
      c.name.toList.head? ≠ some '\uFEFF' → HoldsManifest w path c.bytes →
      ∃ a m events, (load path : StateM World (Except OpenError Archive)) w =
        (.ok a, { w with events }) ∧ a.manifest = some m ∧ m.get? c.name = some c.value := by
  intro claim
  let c : Cut := ⟨⟨"K", "é"⟩, [0xC3], [[0xA9]], by decide⟩
  have holds : HoldsManifest (manifestWorld c.bytes) "x.jar" c.bytes :=
    holdsManifest_manifestWorld (by decide)
  obtain ⟨a, events, loaded, manifest⟩ := load_manifest holds
  obtain ⟨a', m, events', loaded', manifest', got⟩ := claim _ _ c (by decide) (by decide) holds
  obtain rfl : a = a' := Except.ok.inj (congrArg Prod.fst (loaded.symm.trans loaded'))
  obtain rfl : parse (Utf8.decodeLossy c.bytes) = m :=
    Option.some.inj (manifest.symm.trans manifest')
  revert got
  decide

end Archive
end JarAtlas
