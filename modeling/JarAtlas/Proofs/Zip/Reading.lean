import JarAtlas.Proofs.Zip.Image
import Mathlib.Data.List.Induction

/-! Plainly written archives read back. The search for the end record starts behind the last member,
so that marks within the members are never come to, and those within the record are too near the
end of the file. -/
namespace JarAtlas
namespace Zip

open Bytes

def headersFrom : Nat → List Plain → List Header
  | _, [] => []
  | place, m :: ms => m.header place :: headersFrom (place + m.entry.length) ms

variable {ms : List Plain} {bs mark : Bytes} {place : Nat}

theorem map_name_headersFrom (place : Nat) (ms : List Plain) :
    (headersFrom place ms).map Header.name = ms.map Plain.name := by
  induction ms generalizing place with
  | nil => rfl
  | cons m ms ih =>
    rw [headersFrom, List.map_cons, List.map_cons, ih]
    rfl

theorem length_entries_cons (m : Plain) (ms : List Plain) :
    (entries (m :: ms)).length = m.entry.length + (entries ms).length := by
  rw [entries, List.flatMap_cons, List.length_append]
  rfl

theorem readHeaders?_directoryFrom (each : ∀ m ∈ ms, m.Fits)
    (short : place + (entries ms).length < 0xFFFFFFFF) (rest : Bytes) :
    readHeaders? 0 ms.length (directoryFrom place ms ++ rest) = some (headersFrom place ms) := by
  induction ms generalizing place with
  | nil => rfl
  | cons m ms ih =>
    obtain ⟨first, others⟩ := List.forall_mem_cons.1 each
    rw [length_entries_cons] at short
    have here : place < 0xFFFFFFFF := by omega
    have behind : place + m.entry.length + (entries ms).length < 0xFFFFFFFF := by omega
    have head := Plain.read?_directoryHeader first here
      (directoryFrom (place + m.entry.length) ms ++ rest)
    have tail := ih others behind
    rw [directoryFrom, List.append_assoc, List.length_cons, readHeaders?, head]
    dsimp only [bind, Option.bind]
    rw [tail]
    rfl

namespace Plain

variable {m : Plain}

theorem localHeader_append (m : Plain) (rest : Bytes) :
    m.localHeader ++ rest = localMark ++ (fields
      [(2, m.needed), (2, utf8Flag), (2, storedMethod), (2, m.time), (2, m.date),
       (4, (Crc32.checksum m.content).toNat), (4, m.content.length), (4, m.content.length),
       (2, (Utf8.encode m.name).length), (2, 0)] ++ (Utf8.encode m.name ++ rest)) := by
  simp [localHeader, description]

theorem drop_localHeader (fits : m.Fits) (rest : Bytes) :
    (m.localHeader ++ rest).drop (30 + field (m.localHeader ++ rest) 26 2 +
      field (m.localHeader ++ rest) 28 2) = rest := by
  obtain ⟨name, -⟩ := fits
  have lengths : field (m.localHeader ++ rest) 26 2 = (Utf8.encode m.name).length ∧
      field (m.localHeader ++ rest) 28 2 = 0 := by
    rw [localHeader_append]
    constructor <;>
      simp (disch := first | decide | omega) only
        [field_behind_mark, field_fields_skip, field_fields_here, Nat.reduceSub]
  rw [lengths.1, lengths.2, Nat.add_zero]
  exact List.drop_left' m.length_localHeader

/-- A member is found where its header says, wherever it stands. -/
theorem member_header (fits : m.Fits) (front rest : Bytes) :
    (m.header front.length).member (front ++ (m.entry ++ rest)) = m.member := by
  have here : (front ++ (m.entry ++ rest)).drop front.length =
      m.localHeader ++ (m.content ++ rest) := by
    rw [List.drop_left' rfl, entry, List.append_assoc]
  have long : ¬ (m.localHeader ++ (m.content ++ rest)).length < 30 := by
    rw [List.length_append, m.length_localHeader]
    omega
  have marked : localMark.isPrefixOf (m.localHeader ++ (m.content ++ rest)) = true := by
    rw [localHeader_append]
    exact isPrefixOf_append _ _
  have refusal : (m.header front.length).refusal? (front ++ (m.entry ++ rest)) = none := by
    simp only [Header.refusal?, header, here, long, marked]
    rfl
  have raw : (m.header front.length).rawData (front ++ (m.entry ++ rest)) = m.content := by
    simp only [Header.rawData, header, here, drop_localHeader fits]
    exact List.take_left' rfl
  have stored : storedMethod ≠ deflateMethod := by decide
  have data : (m.header front.length).data (front ++ (m.entry ++ rest)) = .ok m.content := by
    rw [Header.data, raw]
    simp only [header, stored, if_false]
    exact if_pos rfl
  rw [Header.member, refusal, data]
  rfl

end Plain

theorem map_member_headersFrom (each : ∀ m ∈ ms, m.Fits) (front rest : Bytes) :
    (headersFrom front.length ms).map (Header.member (front ++ (entries ms ++ rest))) =
      ms.map Plain.member := by
  induction ms generalizing front with
  | nil => rfl
  | cons m ms ih =>
    obtain ⟨first, others⟩ := List.forall_mem_cons.1 each
    -- To the members behind it, this one is part of what stands in front.
    have here : front ++ (entries (m :: ms) ++ rest) =
        front ++ (m.entry ++ (entries ms ++ rest)) := by
      rw [entries, List.flatMap_cons, List.append_assoc]
      rfl
    have behind := ih others (front ++ m.entry)
    rw [List.length_append, List.append_assoc] at behind
    rw [here, headersFrom, List.map_cons, List.map_cons, Plain.member_header first, behind]

@[simp] theorem length_endRecord (count size start : Nat) :
    (endRecord count size start).length = 22 := by
  simp [endRecord, endMark]

/-- What stands in the fields of an end record. -/
structure EndTells (bs : Bytes) (count start : Nat) : Prop where
  disk : field bs 4 2 = 0
  directoryDisk : field bs 6 2 = 0
  entriesHere : field bs 8 2 = count
  entries : field bs 10 2 = count
  start : field bs 16 4 = start
  commentLength : field bs 20 2 = 0

theorem tells_endRecord {count start : Nat} (few : count < 0xFFFF) (near : start < 0xFFFFFFFF)
    (size : Nat) : EndTells (endRecord count size start) count start := by
  have told : endRecord count size start = endMark ++ (fields
      [(2, 0), (2, 0), (2, count), (2, count), (4, size), (4, start), (2, 0)] ++ []) := by
    rw [List.append_nil, endRecord]
  rw [told]
  constructor <;>
    simp (disch := first | decide | omega) only
      [field_behind_mark, field_fields_skip, field_fields_here, Nat.reduceSub]

/-- The end record reads back. The size of the directory is not looked at. -/
theorem read_endRecord {count start : Nat} (few : count < 0xFFFF) (near : start < 0xFFFFFFFF)
    (size : Nat) :
    EndRecord.read (endRecord count size start) = .ok ⟨0, 0, count, count, start⟩ := by
  have tells := tells_endRecord few near size
  have whole : ¬ (endRecord count size start).length < 22 := by simp
  simp only [EndRecord.read, whole, tells.commentLength, tells.disk, tells.directoryDisk,
    tells.entriesHere, tells.entries, tells.start, Nat.add_zero, if_false]

theorem read_of_short (short : bs.length < 22) : EndRecord.read bs = .error .truncated :=
  if_pos short

theorem le_of_mem_placesFrom {i : Nat} (h : place ∈ placesFrom mark i bs) : i ≤ place := by
  induction bs generalizing i with
  | nil => cases h
  | cons b bs ih =>
    rw [placesFrom] at h
    split at h
    · rcases List.mem_cons.1 h with rfl | later
      · exact Nat.le_refl _
      · exact Nat.le_of_succ_le (ih later)
    · exact Nat.le_of_succ_le (ih h)

theorem placesFrom_append (mark front rest : Bytes) (i : Nat) :
    ∃ before, placesFrom mark i (front ++ rest) =
      before ++ placesFrom mark (i + front.length) rest := by
  induction front generalizing i with
  | nil => exact ⟨[], rfl⟩
  | cons b front ih =>
    obtain ⟨before, found⟩ := ih (i + 1)
    have place : i + (b :: front).length = i + 1 + front.length := by
      rw [List.length_cons]
      omega
    rw [List.cons_append, placesFrom, found, place]
    split
    · exact ⟨i :: before, rfl⟩
    · exact ⟨before, rfl⟩

theorem placesFrom_of_marked {b : UInt8} (marked : mark.isPrefixOf (b :: bs) = true) (i : Nat) :
    placesFrom mark i (b :: bs) = i :: placesFrom mark (i + 1) bs := by
  rw [placesFrom, if_pos marked]

/-- Where the file ends too soon for an end record, the search goes on. -/
theorem searchDirectory_skip {later : List Nat} (problem : Option Error) (more : List Nat)
    (short : ∀ place ∈ later, (bs.drop place).length < 22) :
    ∃ kept, searchDirectory bs problem (later ++ more) = searchDirectory bs kept more := by
  induction later generalizing problem with
  | nil => exact ⟨problem, rfl⟩
  | cons place later ih =>
    obtain ⟨first, others⟩ := List.forall_mem_cons.1 short
    rw [List.cons_append, searchDirectory, read_of_short first]
    exact ih (some (problem.getD .truncated)) others

theorem searchDirectory_found {record : EndRecord} {start : Nat} {headers : List Header}
    (read : EndRecord.read (bs.drop place) = .ok record)
    (starts : archiveStart bs place record = .ok start)
    (found : directoryAt? bs start record = some headers) (problem : Option Error)
    (more : List Nat) : searchDirectory bs problem (place :: more) = .ok headers := by
  simp only [searchDirectory, read, starts, found]

def front (ms : List Plain) : Bytes := entries ms ++ directoryFrom 0 ms

def lastRecord (ms : List Plain) : Bytes :=
  endRecord ms.length (directoryFrom 0 ms).length (entries ms).length

theorem image_eq (ms : List Plain) : image ms = front ms ++ lastRecord ms := by
  rw [front, List.append_assoc]
  rfl

/-- The end record is the last place from which an end record could be read. -/
theorem places_image (ms : List Plain) : ∃ before after,
    places endMark (image ms) = before ++ (front ms).length :: after ∧
    ∀ place ∈ after, ((image ms).drop place).length < 22 := by
  obtain ⟨before, found⟩ := placesFrom_append endMark (front ms) (lastRecord ms) 0
  rw [Nat.zero_add] at found
  obtain ⟨b, rest, record⟩ : ∃ b rest, lastRecord ms = b :: rest := ⟨_, _, rfl⟩
  -- What is found behind the first octet of the record leaves less than a record.
  refine ⟨before, placesFrom endMark ((front ms).length + 1) rest, ?_, fun place later => ?_⟩
  · rw [places, image_eq, found, record, placesFrom_of_marked]
    rw [← record]
    exact isPrefixOf_append _ _
  · have behind := le_of_mem_placesFrom later
    rw [image_eq, List.length_drop, List.length_append, lastRecord, length_endRecord]
    omega

theorem directoryFrom_marked (m : Plain) (ms : List Plain) (place : Nat) :
    ∃ b rest, directoryFrom place (m :: ms) = b :: rest ∧
      directoryMark.isPrefixOf (b :: rest) = true :=
  ⟨_, _, rfl, rfl⟩

theorem archiveStart_image (ms : List Plain) :
    archiveStart (image ms) (front ms).length ⟨0, 0, ms.length, ms.length, (entries ms).length⟩ =
      .ok 0 := by
  -- Without members no directory is looked for, and it would start where the record does.
  cases ms with
  | nil => rfl
  | cons m ms =>
    obtain ⟨b, rest, directory, marked⟩ := directoryFrom_marked m ms 0
    have between : ((image (m :: ms)).take (front (m :: ms)).length).drop
        (entries (m :: ms)).length = b :: rest := by
      rw [image_eq, List.take_left' rfl, front, List.drop_left' rfl, directory]
    have behind : ¬ (front (m :: ms)).length ≤ (entries (m :: ms)).length := by
      rw [front, directory, List.length_append, List.length_cons]
      omega
    have nonempty : (m :: ms).length ≠ 0 := Nat.succ_ne_zero _
    rw [archiveStart, if_neg nonempty, if_neg behind, between, placesFrom_of_marked marked]

theorem directoryAt?_image (fits : Fits ms) :
    directoryAt? (image ms) 0 ⟨0, 0, ms.length, ms.length, (entries ms).length⟩ =
      some (headersFrom 0 ms) := by
  have here : (image ms).drop (0 + (entries ms).length) = directoryFrom 0 ms ++ lastRecord ms := by
    rw [Nat.zero_add]
    exact List.drop_left' rfl
  have short : 0 + (entries ms).length < 0xFFFFFFFF := (Nat.zero_add _).symm ▸ fits.entries
  rw [directoryAt?, if_neg (by simp), here]
  exact readHeaders?_directoryFrom fits.each short _

theorem searchDirectory_image (fits : Fits ms) :
    searchDirectory (image ms) none (places endMark (image ms)).reverse =
      .ok (headersFrom 0 ms) := by
  obtain ⟨before, after, found, short⟩ := places_image ms
  have order : (places endMark (image ms)).reverse =
      after.reverse ++ (front ms).length :: before.reverse := by
    simp [found]
  obtain ⟨kept, skipped⟩ := searchDirectory_skip none ((front ms).length :: before.reverse)
    (fun place later => short place (List.mem_reverse.1 later))
  have read : EndRecord.read ((image ms).drop (front ms).length) =
      .ok ⟨0, 0, ms.length, ms.length, (entries ms).length⟩ := by
    rw [image_eq, List.drop_left' rfl]
    exact read_endRecord fits.count fits.entries _
  rw [order, skipped]
  exact searchDirectory_found read (archiveStart_image ms) (directoryAt?_image fits) kept _

theorem replaceNamesake_of_new {h : Header} {hs : List Header}
    (new : h.name ∉ hs.map Header.name) : replaceNamesake h hs = hs ++ [h] := by
  induction hs with
  | nil => rfl
  | cons g gs ih =>
    rw [List.map_cons, List.mem_cons, not_or] at new
    rw [replaceNamesake, if_neg (Ne.symm new.1), ih new.2, List.cons_append]

theorem foldl_replaceNamesake {hs : List Header} (distinct : (hs.map Header.name).Nodup) :
    hs.foldl (fun hs h => replaceNamesake h hs) [] = hs := by
  induction hs using List.reverseRecOn with
  | nil => rfl
  | append_singleton hs h ih =>
    rw [List.map_append, List.nodup_append] at distinct
    obtain ⟨front, -, apart⟩ := distinct
    have new : h.name ∉ hs.map Header.name := by
      intro earlier
      exact apart _ earlier _ (List.mem_singleton_self h.name) rfl
    rw [List.foldl_append, List.foldl_cons, List.foldl_nil, ih front, replaceNamesake_of_new new]

/-- The members of an archive read back in their order. -/
theorem members_image (fits : Fits ms) (distinct : (ms.map Plain.name).Nodup) :
    members (image ms) = .ok (ms.map Plain.member) := by
  have once : (headersFrom 0 ms).foldl (fun hs h => replaceNamesake h hs) [] =
      headersFrom 0 ms := by
    apply foldl_replaceNamesake
    rw [map_name_headersFrom]
    exact distinct
  have whole := map_member_headersFrom fits.each [] (directoryFrom 0 ms ++ lastRecord ms)
  rw [members, directory, searchDirectory_image fits]
  change Except.ok ((List.foldl _ [] (headersFrom 0 ms)).map _) = _
  rw [once]
  exact congrArg Except.ok whole

end Zip
end JarAtlas
