import JarAtlas.Proofs.FileTree.Below
import JarAtlas.Proofs.Repository.Coordinate
import JarAtlas.Proofs.Repository.LocalFetch

/-! Where a fetch stores what it copies: right in the directory that was asked for, as long as the
artifact and its version are names. A slash in one of them names another directory. -/
namespace JarAtlas

open JarAtlas.Path

theorem Coordinate.isName_fileName {c : Coordinate} (artifact : '/' ∉ c.artifact.toList)
    (version : '/' ∉ c.version.toList) : IsName c.fileName := by
  have text : c.fileName.toList =
      c.artifact.toList ++ '-' :: (c.version.toList ++ ['.', 'j', 'a', 'r']) := by
    simp [fileName, stem]
  have other (name : String) (plain : '-' ∉ name.toList) : c.fileName ≠ name := fun same =>
    plain (same ▸ c.hyphen_mem_fileName)
  refine ⟨by simp [text, artifact, version], ?_, other ".." (by decide)⟩
  simp [idle, other "" (by decide), other "." (by decide)]

namespace LocalRepository

open FileTree

/-- The content stands in a file of that name right in the directory, to which the path leads. All
else is as it was, but for new directories on the way of the directory. -/
def StoredIn (dir name path : String) (here : Location) (content : Bytes) (t t' : FileTree) :
    Prop :=
  ∃ base executable, Leads t' here dir base ∧ t'.resolve here path = .ok (base ++ [name]) ∧
    t'.find? (base ++ [name]) = some (.file content executable) ∧
    ∀ p, p ≠ base ++ [name] → t'.find? p = t.find? p ∨
      t.find? p = none ∧ t'.find? p = some .directory ∧ OnTheWay t' here dir p

theorem storedIn_of_copied {source dir name : String} {here : Location} {content : Bytes}
    {t t' : FileTree} (isName : IsName name)
    (copied : Copied source dir (append dir name) here content t t') :
    StoredIn dir name (append dir name) here content t t' := by
  obtain ⟨place, resolved, rest⟩ := copied.rest
  obtain ⟨base, leads, rfl⟩ := resolve_append_name isName resolved
  obtain ⟨p, executable, led, stands⟩ := readFile_eq_ok_iff.1 copied.stored
  obtain rfl : base ++ [name] = p := Except.ok.inj (resolved.symm.trans led)
  exact ⟨base, executable, leads, resolved, stands, rest⟩

/-- A fetch that succeeds has stored the artifact under its name and version. Unless one of them has
a slash in it, the directory is the parent of that path, and the file stands right in it. -/
theorem fetch_stored_in_directory [Web] (r : LocalRepository) (c : Coordinate) (dir : String)
    (w : World) {a : Artifact} {t' : FileTree}
    (done : World.outcome (r.fetch c dir) w = (.ok (.ok a), t')) :
    a.path = append dir (c.artifact ++ "-" ++ c.version ++ ".jar") ∧
    ('/' ∉ c.artifact.toList → '/' ∉ c.version.toList →
      fileName? a.path = some (c.artifact ++ "-" ++ c.version ++ ".jar") ∧
      (∃ above, parent? a.path = some above ∧ steps above = steps dir) ∧
      ∃ content, w.files.readFile w.here (r.artifactPath c) = .ok content ∧
        StoredIn dir (c.artifact ++ "-" ++ c.version ++ ".jar") a.path w.here content w.files t') := by
  rw [(World.Follows.fetchLocally r c dir).outcome_eq w] at done
  obtain ⟨content, t₁, read, made, written, rfl⟩ := play_fetch_eq_ok_iff.1 done
  refine ⟨rfl, fun artifact version => ?_⟩
  have isName := Coordinate.isName_fileName artifact version
  exact ⟨isName.fileName?_append dir, isName.parent?_append dir, content, read,
    storedIn_of_copied isName (copied_of_store read made written)⟩

theorem fetch_stored_in_directory_two_deep :
    fileName? "d/e/a-1.jar" = some "a-1.jar" ∧
    (∃ above, parent? "d/e/a-1.jar" = some above ∧ steps above = steps "d/e") ∧
    ∃ content, oneArtifact.readFile [] (artifactPath ⟨""⟩ ⟨"g", "a", "1"⟩) = .ok content ∧
      StoredIn "d/e" "a-1.jar" "d/e/a-1.jar" [] content oneArtifact oneArtifactCopied := by
  have fetched : World.outcome (fetch ⟨""⟩ ⟨"g", "a", "1"⟩ "d/e")
      ⟨oneArtifact, [], .empty, [], [], []⟩ =
      (.ok (.ok (.ofContent "d/e/a-1.jar" [0])), oneArtifactCopied) := by rfl
  exact (fetch_stored_in_directory ⟨""⟩ ⟨"g", "a", "1"⟩ "d/e" _ fetched).2 (by decide) (by decide)

def stepUpArtifact : FileTree :=
  ⟨[(["g"], .directory), (["a"], .directory), (["a", "1"], .directory),
    (["a", "a-1.jar"], .file [0] false)]⟩

/-- A step up in the name of an artifact leads out of the directory that was asked for, and a name
that starts at the root has nothing to do with it. -/
theorem fetch_leaves_directory :
    (Coordinate.parse "g:../a:1" = .ok ⟨"g", "../a", "1"⟩ ∧
      World.outcome (fetch ⟨""⟩ ⟨"g", "../a", "1"⟩ "d")
          ⟨stepUpArtifact, [], .empty, [], [], []⟩ =
        (.ok (.ok (.ofContent "d/../a-1.jar" [0])),
          (stepUpArtifact.put ["d"] .directory).put ["a-1.jar"] (.file [0] false)) ∧
      parent? "d/../a-1.jar" = some "d/.." ∧ steps "d/.." ≠ steps "d") ∧
    (Coordinate.parse "g:/a:1" = .ok ⟨"g", "/a", "1"⟩ ∧
      World.outcome (fetch ⟨""⟩ ⟨"g", "/a", "1"⟩ "d") ⟨oneArtifact, [], .empty, [], [], []⟩ =
        (.ok (.ok (.ofContent "/a-1.jar" [0])),
          (oneArtifact.put ["d"] .directory).put ["a-1.jar"] (.file [0] false)) ∧
      parent? "/a-1.jar" = some "/" ∧ steps "/" ≠ steps "d") :=
  ⟨⟨rfl, rfl, by decide, by decide⟩, rfl, rfl, by decide, by decide⟩

end LocalRepository
end JarAtlas
