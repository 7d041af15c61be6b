import JarAtlas.Proofs.Command.Files
import JarAtlas.Proofs.FileTree.Directories

/-! A fetch from a directory copies one file and leaves everything else alone. The content is known
before anything is made, so that the target may be the source itself, and so that nothing is left
behind when there is nothing to copy. -/
namespace JarAtlas
namespace LocalRepository

open Files FileTree

variable {here : Location} {t t' : FileTree} {r : LocalRepository} {c : Coordinate}
  {dir source target : String} {content : Bytes}

/-- The content of the source stands at the target as well. Else the later tree differs in nothing
but directories that were not there, and these are on the way to the target's directory. -/
structure Copied (source dir target : String) (here : Location) (content : Bytes)
    (t t' : FileTree) : Prop where
  read : t.readFile here source = .ok content
  kept : t'.readFile here source = .ok content
  stored : t'.readFile here target = .ok content
  made : dir = "" ∨ t'.leadsToDirectory here dir = true
  rest : ∃ place, t'.resolve here target = .ok place ∧ ∀ p, p ≠ place →
    t'.find? p = t.find? p ∨
      t.find? p = none ∧ t'.find? p = some .directory ∧ OnTheWay t' here dir p

theorem copied_of_store {t₁ : FileTree} (read : t.readFile here source = .ok content)
    (made : t.makeDirs here dir = (t₁, .ok ()))
    (written : t₁.writeFile here target content = .ok t') :
    Copied source dir target here content t t' := by
  have way : MakesWay here dir t t₁ := by
    have h := makeDirs_makesWay t here dir
    rwa [made] at h
  have leads := leadsToDirectory_of_makeDirsUpTo made
  have again := readFile_writeFile written
  obtain ⟨place, resolved, file, rfl⟩ := writeFile_eq_ok written
  obtain ⟨executable, find⟩ := find?_putContent file content
  have keeps := keeps_putContent file content
  refine ⟨read, ?_, again, leads.imp_right keeps.leadsToDirectory, place, resolved, fun p ne => ?_⟩
  · obtain ⟨p, x, led, stands⟩ := readFile_eq_ok_iff.1 read
    have still := keeps.resolve ((Keeps.of_find? way.kept).resolve led)
    by_cases same : p = place
    · exact readFile_eq_ok_iff.2 ⟨p, executable, still, by rw [find, if_pos same]⟩
    · refine readFile_eq_ok_iff.2 ⟨p, x, still, ?_⟩
      rw [find, if_neg same]
      exact way.kept p _ stands
  · rw [find, if_neg ne]
    cases old : t.find? p with
    | some n => exact .inl (way.kept p n old)
    | none =>
      cases stands : t₁.find? p with
      | none => exact .inl rfl
      | some n =>
        rcases way.new p n stands with before | ⟨rfl, on⟩
        · rw [old] at before
          cases before
        · exact .inr ⟨rfl, rfl, on.keep keeps⟩

section Runs

variable [Web]

theorem play_fetch_missing (missing : t.resolve here (r.artifactPath c) = .error .notFound) :
    play (r.fetch c dir) here t = (.ok (.error (.notFound (r.artifactPath c))), t) := by
  rw [play_fetch, fileExists, missing]

theorem play_fetch_refused {f : Fault} (refused : t.resolve here (r.artifactPath c) = .error f)
    (other : f ≠ .notFound) :
    play (r.fetch c dir) here t = (.ok (.error (.file f)), t) := by
  rw [play_fetch, fileExists, refused]
  cases f with
  | notFound => exact absurd rfl other
  | _ => rfl

theorem play_fetch_no_file {place : Location}
    (resolved : t.resolve here (r.artifactPath c) = .ok place)
    (no : ∀ content executable, t.find? place ≠ some (.file content executable)) :
    ∃ f, play (r.fetch c dir) here t = (.ok (.error (.file f)), t) := by
  have found : t.fileExists here (r.artifactPath c) = .ok true := by rw [fileExists, resolved]
  cases read : t.readFile here (r.artifactPath c) with
  | error f => exact ⟨f, by simp only [play_fetch, found, read]⟩
  | ok content =>
    obtain ⟨p, executable, led, stands⟩ := readFile_eq_ok_iff.1 read
    obtain rfl : place = p := Except.ok.inj (resolved.symm.trans led)
    exact absurd stands (no content executable)

/-- A fetch that fails has made directories at most. -/
theorem play_fetch_error {e : Repository.Error}
    (h : play (r.fetch c dir) here t = (.ok (.error e), t')) :
    (e = .notFound (r.artifactPath c) ∨ ∃ f, e = .file f) ∧ MakesWay here dir t t' := by
  rw [play_fetch] at h
  split at h
  · next f _ =>
    obtain ⟨rfl, rfl⟩ : .file f = e ∧ t = t' := by simpa using h
    exact ⟨.inr ⟨f, rfl⟩, .refl here dir t⟩
  · obtain ⟨rfl, rfl⟩ : .notFound (r.artifactPath c) = e ∧ t = t' := by simpa using h
    exact ⟨.inl rfl, .refl here dir t⟩
  · split at h
    · next f _ =>
      obtain ⟨rfl, rfl⟩ : .file f = e ∧ t = t' := by simpa using h
      exact ⟨.inr ⟨f, rfl⟩, .refl here dir t⟩
    · next content _ =>
      have way := makeDirs_makesWay t here dir
      rw [play_store] at h
      split at h
      · next t₁ f made =>
        rw [made] at way
        obtain ⟨rfl, rfl⟩ : .file f = e ∧ t₁ = t' := by simpa using h
        exact ⟨.inr ⟨f, rfl⟩, way⟩
      · next t₁ made =>
        rw [made] at way
        split at h
        · next f _ =>
          obtain ⟨rfl, rfl⟩ : .file f = e ∧ t₁ = t' := by simpa using h
          exact ⟨.inr ⟨f, rfl⟩, way⟩
        · simp at h

theorem play_fetch_again {a : Artifact}
    (h : play (r.fetch c dir) here t = (.ok (.ok a), t')) :
    ∃ t₂, play (r.fetch c dir) here t' = (.ok (.ok a), t₂) ∧ ∀ p, t₂.find? p = t'.find? p := by
  obtain ⟨content, t₁, read, made, written, rfl⟩ := play_fetch_eq_ok_iff.1 h
  have copied := copied_of_store read made written
  obtain ⟨t₂, rewritten, same⟩ := writeFile_again written
  exact ⟨t₂, play_fetch_eq_ok_iff.2
    ⟨content, t', copied.kept, makeDirs_of_leads copied.made, rewritten, rfl⟩, same⟩

/-- A fetch from a directory copies faithfully and touches nothing else. -/
theorem fetch_faithful (r : LocalRepository) (c : Coordinate) (dir : String) (w : World) :
    (w.files.resolve w.here (r.artifactPath c) = .error .notFound →
      World.outcome (r.fetch c dir) w = (.ok (.error (.notFound (r.artifactPath c))), w.files)) ∧
    (∀ f, w.files.resolve w.here (r.artifactPath c) = .error f → f ≠ .notFound →
      World.outcome (r.fetch c dir) w = (.ok (.error (.file f)), w.files)) ∧
    (∀ place, w.files.resolve w.here (r.artifactPath c) = .ok place →
      (∀ content executable, w.files.find? place ≠ some (.file content executable)) →
      ∃ f, World.outcome (r.fetch c dir) w = (.ok (.error (.file f)), w.files)) ∧
    (∀ e t', World.outcome (r.fetch c dir) w = (.ok (.error e), t') →
      (e = .notFound (r.artifactPath c) ∨ ∃ f, e = .file f) ∧ MakesWay w.here dir w.files t') ∧
    ∀ a t', World.outcome (r.fetch c dir) w = (.ok (.ok a), t') →
      (∃ content,
        Copied (r.artifactPath c) dir (Path.append dir c.fileName) w.here content w.files t' ∧
        a = ⟨Path.append dir c.fileName, content.length, Sha256.hexDigest content⟩) ∧
      (a.digest.toList.length = 64 ∧ ∀ x ∈ a.digest.toList, x ∈ Bytes.hexDigits) ∧
      ∀ w', w'.files = t' → w'.here = w.here → ∃ t₂,
        World.outcome (r.fetch c dir) w' = (.ok (.ok a), t₂) ∧ ∀ p, t₂.find? p = t'.find? p := by
  have fetched (w : World) := (World.Follows.fetchLocally r c dir).outcome_eq w
  simp only [fetched]
  refine ⟨play_fetch_missing, fun f => play_fetch_refused, fun place => play_fetch_no_file,
    fun e t' => play_fetch_error, fun a t' done => ⟨?_, ?_, fun w' files here => ?_⟩⟩
  · obtain ⟨content, t₁, read, made, written, rfl⟩ := play_fetch_eq_ok_iff.1 done
    exact ⟨content, copied_of_store read made written, rfl⟩
  · obtain ⟨content, t₁, -, -, -, rfl⟩ := play_fetch_eq_ok_iff.1 done
    exact Sha256.hexDigest_digits content
  · rw [files, here]
    exact play_fetch_again done

end Runs

def oneArtifact : FileTree :=
  ⟨[(["g"], .directory), (["g", "a"], .directory), (["g", "a", "1"], .directory),
    (["g", "a", "1", "a-1.jar"], .file [0] false)]⟩

def oneArtifactCopied : FileTree :=
  ((oneArtifact.put ["d"] .directory).put ["d", "e"] .directory).put ["d", "e", "a-1.jar"]
    (.file [0] false)

theorem fetch_faithful_one_artifact :
    World.outcome (fetch ⟨""⟩ ⟨"g", "a", "1"⟩ "d/e") ⟨.empty, [], .empty, [], [], []⟩ =
      (.ok (.error (.notFound "g/a/1/a-1.jar")), .empty) ∧
    ∃ t₂, World.outcome (fetch ⟨""⟩ ⟨"g", "a", "1"⟩ "d/e")
        ⟨oneArtifactCopied, [], .empty, [], [], []⟩ =
      (.ok (.ok (.ofContent "d/e/a-1.jar" [0])), t₂) ∧
      ∀ p, t₂.find? p = oneArtifactCopied.find? p := by
  have path : artifactPath ⟨""⟩ ⟨"g", "a", "1"⟩ = "g/a/1/a-1.jar" := by decide
  constructor
  · have spec := fetch_faithful ⟨""⟩ ⟨"g", "a", "1"⟩ "d/e" ⟨.empty, [], .empty, [], [], []⟩
    rw [path] at spec
    exact spec.1 rfl
  · have fetched : World.outcome (fetch ⟨""⟩ ⟨"g", "a", "1"⟩ "d/e")
        ⟨oneArtifact, [], .empty, [], [], []⟩ =
        (.ok (.ok (.ofContent "d/e/a-1.jar" [0])), oneArtifactCopied) := by rfl
    have spec := fetch_faithful ⟨""⟩ ⟨"g", "a", "1"⟩ "d/e" ⟨oneArtifact, [], .empty, [], [], []⟩
    exact (spec.2.2.2.2 _ _ fetched).2.2 _ rfl rfl

end LocalRepository
end JarAtlas
