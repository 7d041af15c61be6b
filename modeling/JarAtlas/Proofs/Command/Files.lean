import JarAtlas.Command.Run
import JarAtlas.Proofs.Repository.Fetch

/-! The commands on a world follow the commands on its files, as long as they draw nothing. On files
alone, what they print and note down is gone, and only what they read and write is left. -/
namespace JarAtlas
namespace World
namespace Follows

open Command

theorem failWith {α : Type} (top : String) (causes : List String) :
    Follows (Command.failWith top causes : ExceptT Failure (StateM World) α)
      (Command.failWith top causes) := .throw _

theorem ofFetch {α : Type} (answer : Except Repository.Error α) :
    Follows (Command.ofFetch answer) (Command.ofFetch answer) := by
  cases answer with
  | ok a => exact .pure a
  | error e => exact .failWith _ _

variable [Web]

theorem printLine (line : String) : Follows (Machine.printLine line) (Machine.printLine line) :=
  .print _

theorem load (path : String) : Follows (Archive.load path) (Archive.load path) := by
  unfold Archive.load
  refine .bind (.readFile path) fun answer => ?_
  cases answer with
  | error f => exact .pure _
  | ok content =>
    refine .bind (.forM (fun line => .note _) _) fun _ => ?_
    split
    · exact .pure _
    · exact .bind (.note _) fun _ => .pure _

theorem openArchive (path : String) :
    Follows (Command.openArchive path) (Command.openArchive path) := by
  unfold Command.openArchive
  refine .bind (.load path) fun answer => ?_
  cases answer with
  | ok archive => exact .pure _
  | error e => exact .failWith _ _

theorem manifestOrEmpty (a : Archive) :
    Follows (Command.manifestOrEmpty a) (Command.manifestOrEmpty a) := by
  unfold Command.manifestOrEmpty
  dsimp only
  split
  · exact .bind (.note _) fun _ => .pure _
  · exact .pure _

theorem synthesize (root : String) (a : Archive) :
    Follows (Command.synthesize root a) (Command.synthesize root a) :=
  .bind (.forM (fun _ => .note _) _) fun _ => .bind (.note _) fun _ => .bind (.note _) fun _ =>
    .pure _

theorem emit (d : Dot.ModuleDiagram) (g : ModuleGraph) (path : String) :
    Follows (Command.emit d g path) (Command.emit d g path) := by
  unfold Command.emit
  refine .bind (.writeFile path _) fun answer => ?_
  cases answer with
  | error f => exact .pure _
  | ok _ => exact .bind (.note _) fun _ => .pure _

theorem writeModuleDiagram (a : Archive) (root output : String) :
    Follows (Command.writeModuleDiagram a root output)
      (Command.writeModuleDiagram a root output) := by
  unfold Command.writeModuleDiagram
  refine .bind (.synthesize root a) fun g => .bind (.emit _ g output) fun answer => ?_
  cases answer with
  | ok _ => exact .pure _
  | error f => exact .failWith _ _

theorem writeManifestDiagram (a : Archive) (manifest : Manifest) (output : String) :
    Follows (Command.writeManifestDiagram a manifest output)
      (Command.writeManifestDiagram a manifest output) := by
  unfold Command.writeManifestDiagram
  refine .bind (.writeFile output _) fun answer => ?_
  cases answer with
  | ok _ => exact .pure _
  | error f => exact .failWith _ _

theorem printManifest (manifest : Manifest) :
    Follows (Command.printManifest manifest) (Command.printManifest manifest) :=
  .bind (.printLine _) fun _ => .print _

theorem printArtifact (a : Artifact) :
    Follows (Command.printArtifact a) (Command.printArtifact a) :=
  .bind (.printLine _) fun _ => .bind (.printLine _) fun _ => .printLine _

theorem runGraph (s : Settings) {o : GraphOptions} (plain : o.render = false) :
    Follows (Command.runGraph s o) (Command.runGraph s o) := by
  unfold Command.runGraph
  refine .bind (.openArchive o.jar) fun archive => .bind (.note _) fun _ =>
    .bind (.writeModuleDiagram archive _ o.output) fun g => ?_
  simp only [plain]
  split
  · exact .bind (.printLine _) fun _ => .pure _
  · exact .bind (.print _) fun _ => .bind (.printLine _) fun _ => .pure _

theorem runManifest (s : Settings) {o : ManifestOptions} (plain : o.render = false) :
    Follows (Command.runManifest s o) (Command.runManifest s o) := by
  unfold Command.runManifest
  refine .bind (.openArchive o.jar) fun archive => .bind (.manifestOrEmpty archive)
    fun manifest => ?_
  cases o.output? with
  | none =>
    dsimp only
    split
    · exact .bind (.printLine _) fun _ => .pure _
    · exact .bind (.printManifest _) fun _ => .pure _
  | some output =>
    have written := Follows.bind (.writeManifestDiagram archive manifest output) fun _ =>
      .bind (.printLine ("Saved to: " ++ output)) fun _ => .pure ()
    simp only [plain]
    split
    · exact .bind (.printLine _) fun _ => written
    · exact .bind (.printManifest _) fun _ => written

theorem store (content : Bytes) (dir path : String) :
    Follows (LocalRepository.store content dir path) (LocalRepository.store content dir path) := by
  unfold LocalRepository.store
  refine .bind (.makeDirs dir) fun made => ?_
  cases made with
  | error f => exact .pure _
  | ok _ =>
    refine .bind (.writeFile path content) fun written => ?_
    cases written with
    | error f => exact .pure _
    | ok _ => exact .pure _

theorem fetchLocally (r : LocalRepository) (c : Coordinate) (dir : String) :
    Follows (r.fetch c dir) (r.fetch c dir) := by
  unfold LocalRepository.fetch
  refine .bind (.fileExists _) fun found => ?_
  split
  · exact .pure _
  · exact .pure _
  · refine .bind (.note _) fun _ => .bind (.readFile _) fun read => ?_
    cases read with
    | error f => exact .pure _
    | ok content => exact .store content dir _

theorem receive (total? : Option Nat) (path : String) (told : Nat) (before : Bytes)
    (pieces : List Bytes) : Follows (RemoteRepository.receive total? path told before pieces)
      (RemoteRepository.receive total? path told before pieces) := by
  induction pieces generalizing told before with
  | nil => exact .pure _
  | cons piece pieces ih =>
    unfold RemoteRepository.receive
    refine .bind (.appendFile path piece) fun written => ?_
    cases written with
    | error f => exact .pure _
    | ok _ =>
      dsimp only
      split
      · exact ih _ _
      · exact .bind (.note _) fun _ => ih _ _

theorem storeResponse (response : Response) (dir path : String) :
    Follows (RemoteRepository.store response dir path)
      (RemoteRepository.store response dir path) := by
  unfold RemoteRepository.store
  refine .bind (.makeDirs dir) fun made => ?_
  cases made with
  | error f => exact .pure _
  | ok _ =>
    refine .bind (.writeFile path []) fun written => ?_
    cases written with
    | error f => exact .pure _
    | ok _ =>
      refine .bind (.receive _ path 0 [] response.pieces) fun received => ?_
      cases received with
      | error e => exact .pure _
      | ok content =>
        dsimp only
        split
        · exact .pure _
        · exact .bind (.note _) fun _ => .pure _

variable [Url.HostNames]

theorem fetchFromWeb (r : RemoteRepository) (c : Coordinate) (dir : String) :
    Follows (r.fetch c dir) (r.fetch c dir) := by
  unfold RemoteRepository.fetch
  split
  · exact .pure _
  · refine .bind (.note _) fun _ => .bind (.request _) fun answer => ?_
    cases answer with
    | error f => exact .pure _
    | ok response =>
      dsimp only
      split
      · exact .bind (.note _) fun _ => .storeResponse response dir _
      · exact .pure _

theorem fetch (source : Repository.Source) (c : Coordinate) (dir : String) :
    Follows (source.fetch c dir) (source.fetch c dir) := by
  cases source with
  | inDirectory r => exact .fetchLocally r c dir
  | onWeb r => exact .fetchFromWeb r c dir

theorem fetchArtifact (e : Environment) (s : Settings) (c : Coordinate) (dir : String)
    (localRepo? : Option String) : Follows (Command.fetchArtifact e s c dir localRepo?)
      (Command.fetchArtifact e s c dir localRepo?) := by
  unfold Command.fetchArtifact
  split
  · exact .throw _
  · exact .bind (.ofFetch _) fun source => .bind (.note _) fun _ =>
      .bind (.fetch source c dir) fun answer => .ofFetch answer

theorem runFetch (e : Environment) (s : Settings) (o : FetchOptions) :
    Follows (Command.runFetch e s o) (Command.runFetch e s o) := by
  unfold Command.runFetch
  refine .bind (.ofFetch _) fun c => .bind (.fetchArtifact e s c o.dir o.localRepo?) fun a => ?_
  split
  · exact .printLine _
  · exact .printArtifact a

theorem runInspect (e : Environment) (s : Settings) {o : InspectOptions}
    (plain : o.render = false) : Follows (Command.runInspect e s o) (Command.runInspect e s o) := by
  unfold Command.runInspect
  simp only [plain]
  exact .bind (.ofFetch _) fun c => .bind (.fetchArtifact e s c o.dir o.localRepo?) fun a =>
    .bind (.printArtifact a) fun _ => .bind (.openArchive a.path) fun archive =>
    .bind (.manifestOrEmpty archive) fun manifest => .bind (.printManifest manifest) fun _ =>
    .bind (.writeManifestDiagram archive manifest _) fun _ => .bind (.printLine _) fun _ =>
    .bind (.writeModuleDiagram archive _ _) fun g => .bind (.printLine _) fun _ => .pure _

end Follows
end World

namespace Command

open Files

variable [Web] {here : Location} {t : FileTree}

@[simp] theorem manifestOrEmpty_eq (a : Archive) :
    (manifestOrEmpty a : ExceptT Failure Files Manifest) = pure a.manifestOrEmpty := by
  unfold manifestOrEmpty
  split <;> simp

def opened (path : String) : Except Fault Bytes → Except Failure Archive
  | .error f => .error (.reported ⟨"Failed to read archive " ++ path,
      (Archive.refusal f).message :: (Archive.refusal f).causes⟩)
  | .ok content => (Archive.ofBytes path content).mapError fun e =>
      .reported ⟨"Failed to read archive " ++ path, e.message :: e.causes⟩

theorem play_openArchive (path : String) (here : Location) (t : FileTree) :
    play (openArchive path) here t = (opened path (t.readFile here path), t) := by
  have skipped (lines : List String) : (lines.forM fun line => Machine.debug
      ("Skipping malformed manifest line: " ++ line) : ExceptT Failure Files PUnit) = pure () := by
    induction lines with
    | nil => rfl
    | cons line lines ih => exact ih
  rw [openArchive, play_bind, Archive.load, play_bind, play_readFile]
  cases t.readFile here path with
  | error f => rfl
  | ok content =>
    simp only [skipped, pure_bind, opened]
    cases Archive.ofBytes path content with
    | error e => rfl
    | ok a => rfl

theorem runManifest_eq (s : Settings) {o : ManifestOptions} {output : String}
    (out : o.output? = some output) (plain : o.render = false) :
    (runManifest s o : ExceptT Failure Files Unit) = (do
      let archive ← openArchive o.jar
      writeManifestDiagram archive archive.manifestOrEmpty output) := by
  unfold runManifest
  simp [out, plain, printManifest]

theorem runGraph_eq (s : Settings) {o : GraphOptions} (plain : o.render = false) :
    (runGraph s o : ExceptT Failure Files Unit) = (do
      let archive ← openArchive o.jar
      let _ ← writeModuleDiagram archive (o.root?.getD s.rootNamespace) o.output
      pure ()) := by
  unfold runGraph
  simp [plain]

theorem play_writeManifestDiagram_ok {a : Archive} {manifest : Manifest} {output : String}
    {t' : FileTree} (h : play (writeManifestDiagram a manifest output) here t = (.ok (), t')) :
    ∃ content, t.writeFile here output content = .ok t' := by
  rw [writeManifestDiagram, play_bind, play_writeFile] at h
  cases written : t.writeFile here output
      (Utf8.encode (({} : Dot.ManifestDiagram).render manifest a.name)) with
  | error f =>
    rw [written] at h
    cases h
  | ok t₁ =>
    rw [written] at h
    cases h
    exact ⟨_, written⟩

variable [Url.HostNames]

theorem runFetch_eq (e : Environment) (s : Settings) (o : FetchOptions) :
    (runFetch e s o : ExceptT Failure Files Unit) = (do
      let c ← ofFetch (Coordinate.parse o.coordinate)
      let _ ← fetchArtifact e s c o.dir o.localRepo?
      pure ()) := by
  unfold runFetch
  simp [printArtifact]

theorem runInspect_eq (e : Environment) (s : Settings) {o : InspectOptions}
    (plain : o.render = false) :
    (runInspect e s o : ExceptT Failure Files Unit) = (do
      let c ← ofFetch (Coordinate.parse o.coordinate)
      let a ← fetchArtifact e s c o.dir o.localRepo?
      let archive ← openArchive a.path
      writeManifestDiagram archive archive.manifestOrEmpty (manifestDiagramPath o.dir c)
      let _ ← writeModuleDiagram archive (o.root?.getD s.rootNamespace) (moduleDiagramPath o.dir c)
      pure ()) := by
  unfold runInspect
  simp [plain, printArtifact, printManifest]

theorem fetchArtifact_eq (e : Environment) (s : Settings) (c : Coordinate) (dir : String)
    (localRepo? : Option String) :
    (fetchArtifact e s c dir localRepo? : ExceptT Failure Files Artifact) =
      (match fetchSettings e s.fetch localRepo? with
      | .error r => throw (.reported r)
      | .ok settings => do
        let source ← ofFetch settings.source
        ofFetch (← source.fetch c dir)) := by
  unfold fetchArtifact
  cases fetchSettings e s.fetch localRepo? with
  | error r => rfl
  | ok settings => simp only [info_eq, pure_bind]

/-- A fetch that succeeds has stored the archive in a file, and changes no other one. -/
theorem play_fetchArtifact_ok {e : Environment} {s : Settings} {c : Coordinate} {dir : String}
    {localRepo? : Option String} {a : Artifact} {t' : FileTree}
    (h : play (fetchArtifact e s c dir localRepo?) here t = (.ok a, t')) :
    a.path = Path.append dir c.fileName ∧
      ∃ place, t'.resolve here (Path.append dir c.fileName) = .ok place ∧
        FileTree.SameFilesBut place t t' := by
  rw [fetchArtifact_eq] at h
  split at h
  · cases h
  · next settings _ =>
    cases source : settings.source with
    | error err =>
      rw [source] at h
      cases h
    | ok source' =>
      simp only [source, ofFetch, pure_bind] at h
      rw [play_bind] at h
      cases fetched : play (source'.fetch c dir) here t with
      | mk answer t₁ =>
        rw [fetched] at h
        obtain _ | _ | a' := answer
        · cases h
        · cases h
        · cases h
          exact Repository.Source.play_fetch_ok fetched

theorem play_fetchArtifact_missing {e : Environment} {s : Settings} {c : Coordinate}
    {dir root : String} {localRepo? : Option String} {settings : FetchSettings}
    (source : fetchSettings e s.fetch localRepo? = .ok settings)
    (inDirectory : settings.localRoot? = some root)
    (missing : t.fileExists here (LocalRepository.artifactPath ⟨root⟩ c) = .ok false) :
    ∃ f, play (fetchArtifact e s c dir localRepo?) here t = (.error f, t) := by
  have repository : settings.source = .ok (.inDirectory ⟨root⟩) := by
    rw [FetchSettings.source, inDirectory]
  rw [fetchArtifact_eq, source]
  simp only [repository, ofFetch, pure_bind, Repository.Source.fetch]
  rw [play_bind, LocalRepository.play_fetch, missing]
  exact ⟨_, rfl⟩

theorem play_runFetch_ok {e : Environment} {s : Settings} {o : FetchOptions} {c : Coordinate}
    {t' : FileTree} (done : play (runFetch e s o) here t = (.ok (), t'))
    (parsed : Coordinate.parse o.coordinate = .ok c) :
    ∃ a, play (fetchArtifact e s c o.dir o.localRepo?) here t = (.ok a, t') := by
  rw [runFetch_eq, parsed] at done
  simp only [ofFetch, pure_bind] at done
  rw [play_bind] at done
  cases fetched : play (fetchArtifact e s c o.dir o.localRepo?) here t with
  | mk r t₁ =>
    rw [fetched] at done
    cases r with
    | error f => cases done
    | ok a =>
      cases done
      exact ⟨a, rfl⟩

end Command
end JarAtlas
