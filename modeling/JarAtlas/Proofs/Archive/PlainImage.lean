import JarAtlas.Proofs.Archive.Opening
import JarAtlas.Proofs.Zip.Reading
import Mathlib.Data.List.Nodup

/-! An archive that is plainly written opens, and what was written into it is what is found: the
names of its members in their order, and the text of its manifest. -/
namespace JarAtlas
namespace Archive

open Text

variable {ms : List Zip.Plain}

/-- Only the name counts, for the path of a manifest does not end in a slash. -/
theorem kind_manifest_iff {path : String} :
    EntryKind.ofPath path = .manifest ↔ sameIgnoringCase path manifestPath = true := by
  constructor
  · intro kind
    rw [EntryKind.ofPath] at kind
    split at kind
    · cases kind
    split at kind
    · assumption
    split at kind <;> cases kind
  · intro same
    have small : (lower path).toList.getLast? = some 'f' := by
      rw [sameIgnoringCase_iff.1 same]
      decide
    have closed : path.toList.getLast? ≠ some '/' := by
      intro slash
      rw [lower, String.toList_ofList, List.getLast?_map, slash] at small
      revert small
      decide
    rw [EntryKind.ofPath, if_neg closed, if_pos same]

theorem LastManifest.eq_of_single {members : List Zip.Member} {found : Option Manifest}
    (h : LastManifest members found) {m : Zip.Member} (mem : m ∈ members)
    (kind : EntryKind.ofPath m.name = .manifest)
    (single : ∀ n ∈ members, EntryKind.ofPath n.name = .manifest → n = m)
    {content : Bytes} (data : m.data = .ok content) :
    found = some (Manifest.parse (Utf8.decodeLossy content)) := by
  cases h with
  | missing none => exact absurd kind (none m mem)
  | last last read later =>
    have same := single _ (by simp) last
    rw [same, data] at read
    cases read
    rfl

theorem readable_member (m : Zip.Plain) : Readable m.member :=
  ⟨rfl, fun _ => ⟨m.content, rfl⟩⟩

section Runs

variable [Web]

theorem load_members {w : World} {path : String} (fits : Zip.Fits ms)
    (distinct : (ms.map Zip.Plain.name).Nodup)
    (stored : w.files.readFile w.here path = .ok (Zip.image ms)) :
    ∃ a events, (load path : StateM World (Except OpenError Archive)) w =
      (.ok a, { w with events }) ∧ Gathers (nameOf path) (ms.map Zip.Plain.member) a := by
  have readable : ∀ m ∈ ms.map Zip.Plain.member, Readable m := by
    intro m mem
    obtain ⟨plain, -, rfl⟩ := List.mem_map.1 mem
    exact readable_member plain
  exact load_of_readable stored (Zip.members_image fits distinct) readable

/-- An archive that is plainly written opens, without a change to any file. It has the name of its
file, all entries in their order, and the manifest that was written as a text, if there is one. -/
theorem load_image {w : World} {path stem : String} (fits : Zip.Fits ms)
    (distinct : (ms.map Zip.Plain.name).Nodup)
    (single : ∀ m ∈ ms, ∀ n ∈ ms, sameIgnoringCase m.name manifestPath = true →
      sameIgnoringCase n.name manifestPath = true → m.name = n.name)
    (named : Path.fileStem? path = some stem)
    (stored : w.files.readFile w.here path = .ok (Zip.image ms)) :
    ∃ a events, (load path : StateM World (Except OpenError Archive)) w =
      (.ok a, { w with events }) ∧
      a.name = stem ∧
      a.entries = ms.map (fun m => (m.name, EntryKind.ofPath m.name)) ∧
      (∀ m ∈ ms, sameIgnoringCase m.name manifestPath = true →
        ∀ text, m.content = Utf8.encode text → a.manifest = some (Manifest.parse text)) ∧
      ((∀ m ∈ ms, sameIgnoringCase m.name manifestPath = false) → a.manifest = none) := by
  obtain ⟨a, events, loaded, gathers⟩ := load_members fits distinct stored
  refine ⟨a, events, loaded, ?_, ?_, fun m mem manifest text written => ?_, fun absent => ?_⟩
  · rw [gathers.name, nameOf, named, Option.getD_some]
  · rw [gathers.entries, List.map_map]
    rfl
  · have only : ∀ n ∈ ms.map Zip.Plain.member, EntryKind.ofPath n.name = .manifest →
        n = m.member := by
      intro n found kind
      obtain ⟨plain, here, rfl⟩ := List.mem_map.1 found
      have same : plain.name = m.name :=
        single plain here m mem (kind_manifest_iff.1 kind) manifest
      rw [List.inj_on_of_nodup_map distinct here mem same]
    have parsed := gathers.manifest.eq_of_single (List.mem_map_of_mem mem)
      (kind_manifest_iff.2 manifest) only rfl
    rw [parsed, written, Utf8.decodeLossy_encode]
  · refine gathers.manifest.eq_none_iff.2 fun n found kind => ?_
    obtain ⟨plain, here, rfl⟩ := List.mem_map.1 found
    have manifest : sameIgnoringCase plain.name manifestPath = true := kind_manifest_iff.1 kind
    rw [absent plain here] at manifest
    cases manifest

end Runs

def markedMembers : List Zip.Plain :=
  [{ name := "META-INF/MANIFEST.MF", content := Utf8.encode "Bundle-Name: Math\r\n" },
    { name := "a/B.class", content := Zip.directoryMark ++ Zip.endMark }]

def markedWorld : World :=
  ⟨⟨[(["x.jar"], .file (Zip.image markedMembers) false)]⟩, [], .empty, [], [], []⟩

theorem load_image_marked :
    ∃ a events, (load "x.jar" : StateM World (Except OpenError Archive)) markedWorld =
      (.ok a, { markedWorld with events }) ∧
      a.name = "x" ∧
      a.entries = [("META-INF/MANIFEST.MF", .manifest), ("a/B.class", .classFile)] ∧
      a.manifest = some (Manifest.parse "Bundle-Name: Math\r\n") := by
  have fits : Zip.Fits markedMembers := by
    constructor
    · simp only [markedMembers, List.forall_mem_cons]
      exact ⟨⟨by decide, by decide⟩, ⟨by decide, by decide⟩, by simp⟩
    · decide
    · decide +kernel
    · decide +kernel
  have single : ∀ m ∈ markedMembers, ∀ n ∈ markedMembers,
      sameIgnoringCase m.name manifestPath = true →
      sameIgnoringCase n.name manifestPath = true → m.name = n.name := by decide
  have named : Path.fileStem? "x.jar" = some "x" := by decide
  have stored : markedWorld.files.readFile markedWorld.here "x.jar" =
      .ok (Zip.image markedMembers) := rfl
  obtain ⟨a, events, loaded, name, entries, manifest, -⟩ :=
    load_image fits (by decide) single named stored
  refine ⟨a, events, loaded, name, entries, ?_⟩
  exact manifest _ List.mem_cons_self rfl _ rfl

end Archive
end JarAtlas
