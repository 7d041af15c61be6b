import JarAtlas.Proofs.FileTree.Directories
import JarAtlas.Proofs.Machine.Files
import JarAtlas.Repository.Source

/-! What a fetch does to files: it makes the directory and writes one file. From a directory, that is
once the artifact has been read; from the web, it is piece by piece. -/
namespace JarAtlas

open Files

variable [Web] {here place : Location} {t t' : FileTree}

namespace LocalRepository

theorem play_store (content : Bytes) (dir path : String) (here : Location) (t : FileTree) :
    play (store content dir path) here t = match t.makeDirs here dir with
      | (t₁, .error f) => (.ok (.error (.file f)), t₁)
      | (t₁, .ok ()) => match t₁.writeFile here path content with
        | .error f => (.ok (.error (.file f)), t₁)
        | .ok t₂ => (.ok (.ok (.ofContent path content)), t₂) := by
  rw [store, play_bind, play_makeDirs]
  obtain ⟨t₁, _ | _⟩ := t.makeDirs here dir
  · rfl
  · dsimp only
    rw [play_bind, play_writeFile]
    cases t₁.writeFile here path content <;> rfl

theorem play_fetch (r : LocalRepository) (c : Coordinate) (dir : String) (here : Location)
    (t : FileTree) :
    play (r.fetch c dir) here t = match t.fileExists here (r.artifactPath c) with
      | .error f => (.ok (.error (.file f)), t)
      | .ok false => (.ok (.error (.notFound (r.artifactPath c))), t)
      | .ok true => match t.readFile here (r.artifactPath c) with
        | .error f => (.ok (.error (.file f)), t)
        | .ok content => play (store content dir (Path.append dir c.fileName)) here t := by
  rw [fetch, play_bind, play_fileExists]
  cases t.fileExists here (r.artifactPath c) with
  | error f => rfl
  | ok found =>
    cases found with
    | false => rfl
    | true =>
      simp only [info_eq, pure_bind]
      rw [play_bind, play_readFile]
      cases t.readFile here (r.artifactPath c) <;> rfl

/-- A fetch succeeds if and only if the artifact can be read, the directory can be made, and the
content can be written into it. -/
theorem play_fetch_eq_ok_iff {r : LocalRepository} {c : Coordinate} {dir : String} {a : Artifact} :
    play (r.fetch c dir) here t = (.ok (.ok a), t') ↔
      ∃ content t₁, t.readFile here (r.artifactPath c) = .ok content ∧
        t.makeDirs here dir = (t₁, .ok ()) ∧
        t₁.writeFile here (Path.append dir c.fileName) content = .ok t' ∧
        a = .ofContent (Path.append dir c.fileName) content := by
  constructor
  · intro h
    rw [play_fetch] at h
    split at h
    · simp at h
    · simp at h
    · split at h
      · simp at h
      · next content read =>
        rw [play_store] at h
        split at h
        · simp at h
        · next t₁ made =>
          split at h
          · simp at h
          · next t₂ written =>
            obtain ⟨rfl, rfl⟩ : Artifact.ofContent (Path.append dir c.fileName) content = a ∧
                t₂ = t' := by simpa using h
            exact ⟨content, t₁, read, made, written, rfl⟩
  · rintro ⟨content, t₁, read, made, written, rfl⟩
    obtain ⟨place, executable, resolved, stands⟩ := FileTree.readFile_eq_ok_iff.1 read
    have found : t.fileExists here (r.artifactPath c) = .ok true := by
      rw [FileTree.fileExists, resolved]
    simp only [play_fetch, found, read, play_store, made, written]

end LocalRepository

namespace RemoteRepository

variable {path dir : String} {before : Bytes} {response : Response}

theorem play_receive (total? : Option Nat) (told : Nat) (pieces : List Bytes)
    (stands : t.Standing here path place before) :
    ∃ t', play (receive total? path told before pieces) here t =
        (.ok (.ok (before ++ pieces.flatten)), t') ∧
      t'.Standing here path place (before ++ pieces.flatten) ∧
      ∀ p, p ≠ place → t'.find? p = t.find? p := by
  induction pieces generalizing told before t with
  | nil => exact ⟨t, by simp only [List.flatten_nil, List.append_nil]; rfl, by simpa, fun _ _ => rfl⟩
  | cons piece pieces ih =>
    obtain ⟨t₁, appended, more, others⟩ := stands.appendFile piece
    rw [receive, play_bind, play_appendFile, appended, List.flatten_cons, ← List.append_assoc]
    have rest (told : Nat) : ∃ t', play (receive total? path told (before ++ piece) pieces) here t₁ =
          (.ok (.ok (before ++ piece ++ pieces.flatten)), t') ∧
        t'.Standing here path place (before ++ piece ++ pieces.flatten) ∧
        ∀ p, p ≠ place → t'.find? p = t.find? p := by
      obtain ⟨t', received, stands', others'⟩ := ih told more
      exact ⟨t', received, stands', fun p other => (others' p other).trans (others p other)⟩
    dsimp only
    cases progress? total? told (before ++ piece).length with
    | none => exact rest told
    | some percent => exact rest percent

/-- Once its file is there, a response is stored as far as it comes. -/
theorem play_store_of_made {t₁ t₂ : FileTree} (response : Response)
    (made : t.makeDirs here dir = (t₁, .ok ()))
    (written : t₁.writeFile here path [] = .ok t₂) :
    ∃ t' place, t'.Standing here path place response.pieces.flatten ∧
      (∀ p, p ≠ place → t'.find? p = t₁.find? p) ∧
      play (store response dir path) here t =
        (.ok (match response.fault? with
          | some f => .error (.broken f)
          | none => .ok (.ofContent path response.pieces.flatten)), t') := by
  obtain ⟨place, empty, others⟩ := FileTree.Standing.of_writeFile written
  obtain ⟨t', received, stands, others'⟩ := play_receive response.total? 0 response.pieces empty
  refine ⟨t', place, stands, fun p other => (others' p other).trans (others p other), ?_⟩
  rw [store, play_bind, play_makeDirs, made]
  dsimp only
  rw [play_bind, play_writeFile, written]
  dsimp only
  rw [play_bind, received]
  cases response.fault? <;> rfl

theorem play_store_ok {a : Artifact}
    (h : play (store response dir path) here t = (.ok (.ok a), t')) :
    response.fault? = none ∧ a = .ofContent path response.pieces.flatten ∧
      ∃ t₁ place, t.makeDirs here dir = (t₁, .ok ()) ∧
        t'.Standing here path place response.pieces.flatten ∧
        ∀ p, p ≠ place → t'.find? p = t₁.find? p := by
  rcases made : t.makeDirs here dir with ⟨t₁, _ | _⟩
  · rw [store, play_bind, play_makeDirs, made] at h
    cases h
  · cases written : t₁.writeFile here path [] with
    | error f =>
      rw [store, play_bind, play_makeDirs, made] at h
      dsimp only at h
      rw [play_bind, play_writeFile, written] at h
      cases h
    | ok t₂ =>
      obtain ⟨t₃, place, stands, others, stored⟩ := play_store_of_made response made written
      rw [stored] at h
      cases fault : response.fault? with
      | some f =>
        rw [fault] at h
        cases h
      | none =>
        rw [fault] at h
        cases h
        exact ⟨rfl, rfl, t₁, place, rfl, stands, others⟩

variable [Url.HostNames] {r : RemoteRepository} {c : Coordinate} {a : Artifact}

theorem play_fetch (r : RemoteRepository) (c : Coordinate) (dir : String) (here : Location)
    (t : FileTree) :
    play (r.fetch c dir) here t = match r.artifactUrl c with
      | .error e => (.ok (.error e), t)
      | .ok url => match Web.answer ⟨url.toString, r.credentials?⟩ with
        | .error f => (.ok (.error (.broken f)), t)
        | .ok response =>
          if response.fine then play (store response dir (Path.append dir c.fileName)) here t
          else (.ok (.error (.refused response.status url.toString)), t) := by
  rw [fetch]
  cases r.artifactUrl c with
  | error e => rfl
  | ok url =>
    simp only [info_eq, pure_bind]
    rw [play_bind, play_request]
    cases Web.answer ⟨url.toString, r.credentials?⟩ with
    | error f => rfl
    | ok response =>
      dsimp only
      split <;> rfl

theorem play_fetch_ok (h : play (r.fetch c dir) here t = (.ok (.ok a), t')) :
    ∃ url response, r.artifactUrl c = .ok url ∧
      Web.answer ⟨url.toString, r.credentials?⟩ = .ok response ∧ response.fine = true ∧
      response.fault? = none ∧ a = .ofContent (Path.append dir c.fileName) response.pieces.flatten ∧
      ∃ t₁ place, t.makeDirs here dir = (t₁, .ok ()) ∧
        t'.Standing here (Path.append dir c.fileName) place response.pieces.flatten ∧
        ∀ p, p ≠ place → t'.find? p = t₁.find? p := by
  rw [play_fetch] at h
  split at h
  · cases h
  · next url located =>
    split at h
    · cases h
    · next response answered =>
      split at h
      · next fine =>
        obtain ⟨whole, content, stored⟩ := play_store_ok h
        exact ⟨url, response, located, answered, fine, whole, content, stored⟩
      · cases h

end RemoteRepository

/-- Wherever an artifact comes from, one file is written for it. -/
theorem Repository.Source.play_fetch_ok [Url.HostNames] {source : Repository.Source}
    {c : Coordinate} {dir : String} {a : Artifact}
    (h : play (source.fetch c dir) here t = (.ok (.ok a), t')) :
    a.path = Path.append dir c.fileName ∧
      ∃ place, t'.resolve here (Path.append dir c.fileName) = .ok place ∧
        FileTree.SameFilesBut place t t' := by
  cases source with
  | inDirectory r =>
    have fetched : play (r.fetch c dir) here t = (.ok (.ok a), t') := h
    obtain ⟨content, t₁, -, made, written, rfl⟩ := LocalRepository.play_fetch_eq_ok_iff.1 fetched
    obtain ⟨place, stands, others⟩ := FileTree.Standing.of_writeFile written
    exact ⟨rfl, place, stands.resolve, FileTree.sameFilesBut_of_makeDirs made others⟩
  | onWeb r =>
    have fetched : play (r.fetch c dir) here t = (.ok (.ok a), t') := h
    obtain ⟨url, response, -, -, -, -, rfl, t₁, place, made, stands, others⟩ :=
      RemoteRepository.play_fetch_ok fetched
    exact ⟨rfl, place, stands.resolve, FileTree.sameFilesBut_of_makeDirs made others⟩

end JarAtlas
