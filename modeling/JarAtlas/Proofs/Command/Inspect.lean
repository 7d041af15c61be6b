import JarAtlas.Proofs.Command.Files
import JarAtlas.Proofs.FileTree.Directories
import JarAtlas.Proofs.Path.Joined

/-! Inspecting an artifact is fetching it, then drawing its manifest, then drawing its modules. The
archive is opened once for both drawings, which is all the same, for no drawing can take the place
of the archive. -/
namespace JarAtlas

theorem Coordinate.stem_ne_empty (c : Coordinate) : c.stem ≠ "" := by
  intro empty
  have length := congrArg (fun s => s.toList.length) empty
  simp [stem] at length

namespace Command

open Files

variable {t : FileTree} {here place : Location}

theorem exists_isName_beside (c : Coordinate) (dir : String) :
    ∃ before name, ∀ suffix : String, '/' ∉ suffix.toList → 2 < suffix.toList.length →
      Path.parts (Path.append dir (c.stem ++ suffix)) = before ++ [name ++ suffix] ∧
        Path.IsName (name ++ suffix) := by
  obtain ⟨before, name, pieces⟩ := Path.exists_parts_append (Path.append dir c.stem)
  refine ⟨before, name, fun suffix clean long => ?_⟩
  have cut := pieces suffix clean
  have last : name ++ suffix ∈ Path.parts (Path.append dir c.stem ++ suffix) := by simp [cut]
  rw [Path.append_append dir c.stem_ne_empty]
  exact ⟨cut, Path.isName_of_length (Path.slash_not_mem_of_mem_parts last) (by simp; omega)⟩

theorem getLast?_of_resolve_beside (c : Coordinate) (dir : String) :
    ∃ name, ∀ suffix : String, '/' ∉ suffix.toList → 2 < suffix.toList.length →
      ∀ {t : FileTree} {here place : Location},
        t.resolve here (Path.append dir (c.stem ++ suffix)) = .ok place →
          place.getLast? = some (name ++ suffix) := by
  obtain ⟨before, name, beside⟩ := exists_isName_beside c dir
  refine ⟨name, fun suffix clean long t here place resolved => ?_⟩
  obtain ⟨parts, isName⟩ := beside suffix clean long
  exact FileTree.getLast?_of_resolve parts isName.named isName.notUp resolved

/-- No diagram can take the place of the archive. -/
theorem diagram_apart {c : Coordinate} {dir diagram : String}
    (drawn : diagram ∈ [manifestDiagramPath dir c, moduleDiagramPath dir c])
    (resolved : t.resolve here diagram = .ok place) :
    t.resolve here (Path.append dir c.fileName) ≠ .ok place := by
  intro jar
  obtain ⟨name, last⟩ := getLast?_of_resolve_beside c dir
  have archive := last ".jar" (by decide) (by decide) jar
  have other : ∀ suffix : String, '/' ∉ suffix.toList → 2 < suffix.toList.length →
      suffix ≠ ".jar" → t.resolve here (Path.append dir (c.stem ++ suffix)) ≠ .ok place := by
    intro suffix clean long ne beside
    have same := Option.some.inj ((last suffix clean long beside).symm.trans archive)
    have tails := congrArg String.toList same
    rw [String.toList_append, String.toList_append, List.append_cancel_left_eq] at tails
    exact ne (String.toList_inj.1 tails)
  rcases List.mem_cons.1 drawn with rfl | drawn
  · exact other "-manifest.dot" (by decide) (by decide) (by decide) resolved
  · obtain rfl := List.mem_singleton.1 drawn
    exact other "-modules.dot" (by decide) (by decide) (by decide) resolved

section Runs

variable [Web]

theorem opened_after_drawing {c : Coordinate} {dir : String} {a : Archive} {manifest : Manifest}
    {t' : FileTree}
    (first : opened (Path.append dir c.fileName) (t.readFile here (Path.append dir c.fileName)) =
      .ok a)
    (drawn : play (writeManifestDiagram a manifest (manifestDiagramPath dir c)) here t =
      (.ok (), t')) :
    opened (Path.append dir c.fileName) (t'.readFile here (Path.append dir c.fileName)) =
      .ok a := by
  obtain ⟨content, written⟩ := play_writeManifestDiagram_ok drawn
  cases read : t.readFile here (Path.append dir c.fileName) with
  | error f =>
    rw [read] at first
    cases first
  | ok own =>
    have apart (place : Location) (led : t'.resolve here (manifestDiagramPath dir c) = .ok place) :=
      diagram_apart (List.mem_cons_self ..) led
    rw [FileTree.readFile_writeFile_of_ne written read apart, ← read]
    exact first

theorem play_open_again (c : Coordinate) (dir root : String) (here : Location) (t : FileTree) :
    play (do
      let a ← openArchive (Path.append dir c.fileName)
      writeManifestDiagram a a.manifestOrEmpty (manifestDiagramPath dir c)
      let _ ← writeModuleDiagram a root (moduleDiagramPath dir c)
      pure ()) here t =
    play (do
      let a ← openArchive (Path.append dir c.fileName)
      writeManifestDiagram a a.manifestOrEmpty (manifestDiagramPath dir c)
      let b ← openArchive (Path.append dir c.fileName)
      let _ ← writeModuleDiagram b root (moduleDiagramPath dir c)
      pure ()) here t := by
  rw [play_bind, play_bind, play_openArchive]
  cases first : opened (Path.append dir c.fileName)
      (t.readFile here (Path.append dir c.fileName)) with
  | error f => rfl
  | ok a =>
    dsimp only
    rw [play_bind, play_bind]
    cases drawn : play (writeManifestDiagram a a.manifestOrEmpty (manifestDiagramPath dir c))
        here t with
    | mk r t' =>
      cases r with
      | error f => rfl
      | ok _ =>
        dsimp only
        rw [play_bind (openArchive _), play_openArchive, opened_after_drawing first drawn]

variable [Url.HostNames]

/-- The three commands, each on what the one before it has left. -/
def inspectBySteps {m : Type → Type} [Monad m] [Machine m] (e : Environment) (s : Settings)
    (o : InspectOptions) (fetchJson manifestJson graphJson : Bool) : ExceptT Failure m Unit := do
  runFetch e s { coordinate := o.coordinate, dir := o.dir, localRepo? := o.localRepo?,
                 json := fetchJson }
  let c ← ofFetch (Coordinate.parse o.coordinate)
  runManifest s { jar := Path.append o.dir c.fileName,
                  output? := some (manifestDiagramPath o.dir c), json := manifestJson }
  runGraph s { jar := Path.append o.dir c.fileName, output := moduleDiagramPath o.dir c,
               root? := o.root?, json := graphJson }

theorem follows_inspectBySteps (e : Environment) (s : Settings) (o : InspectOptions)
    (fetchJson manifestJson graphJson : Bool) :
    World.Follows (inspectBySteps e s o fetchJson manifestJson graphJson)
      (inspectBySteps e s o fetchJson manifestJson graphJson) :=
  .bind (.runFetch e s _) fun _ => .bind (.ofFetch _) fun _ => .bind (.runManifest s rfl) fun _ =>
    .runGraph s rfl

theorem runInspect_of_parsed {e : Environment} {s : Settings} {o : InspectOptions} {c : Coordinate}
    (plain : o.render = false) (parsed : Coordinate.parse o.coordinate = .ok c) :
    (runInspect e s o : ExceptT Failure Files Unit) = (do
      let a ← fetchArtifact e s c o.dir o.localRepo?
      let archive ← openArchive a.path
      writeManifestDiagram archive archive.manifestOrEmpty (manifestDiagramPath o.dir c)
      let _ ← writeModuleDiagram archive (o.root?.getD s.rootNamespace) (moduleDiagramPath o.dir c)
      pure ()) := by
  rw [runInspect_eq e s plain, parsed]
  simp only [ofFetch, pure_bind]

theorem inspectBySteps_of_parsed {e : Environment} {s : Settings} {o : InspectOptions}
    {c : Coordinate} (parsed : Coordinate.parse o.coordinate = .ok c)
    (fetchJson manifestJson graphJson : Bool) :
    (inspectBySteps e s o fetchJson manifestJson graphJson : ExceptT Failure Files Unit) = (do
      let _ ← fetchArtifact e s c o.dir o.localRepo?
      let archive ← openArchive (Path.append o.dir c.fileName)
      writeManifestDiagram archive archive.manifestOrEmpty (manifestDiagramPath o.dir c)
      let archive ← openArchive (Path.append o.dir c.fileName)
      let _ ← writeModuleDiagram archive (o.root?.getD s.rootNamespace) (moduleDiagramPath o.dir c)
      pure ()) := by
  have manifest := runManifest_eq s (o := ⟨Path.append o.dir c.fileName,
    some (manifestDiagramPath o.dir c), false, none, manifestJson⟩) rfl rfl
  have graph := runGraph_eq s (o := ⟨Path.append o.dir c.fileName, moduleDiagramPath o.dir c,
    o.root?, false, none, graphJson⟩) rfl
  rw [inspectBySteps, runFetch_eq]
  simp only [parsed, ofFetch, pure_bind, bind_assoc, manifest, graph]

/-- On files alone, inspecting comes to what the three commands come to. -/
theorem play_runInspect (e : Environment) (s : Settings) {o : InspectOptions}
    (plain : o.render = false) (fetchJson manifestJson graphJson : Bool) :
    play (runInspect e s o) here t =
      play (inspectBySteps e s o fetchJson manifestJson graphJson) here t := by
  cases parsed : Coordinate.parse o.coordinate with
  | error err =>
    rw [runInspect_eq e s plain, inspectBySteps, runFetch_eq, parsed]
    rfl
  | ok c =>
    rw [runInspect_of_parsed plain parsed, inspectBySteps_of_parsed parsed, play_bind, play_bind]
    cases fetched : play (fetchArtifact e s c o.dir o.localRepo?) here t with
    | mk r t' =>
      cases r with
      | error f => rfl
      | ok a =>
        obtain ⟨path, -⟩ := play_fetchArtifact_ok fetched
        simp only [path]
        exact play_open_again c o.dir _ here t'

theorem play_runInspect_of_rejected {e : Environment} {s : Settings} {o : InspectOptions}
    {err : Repository.Error} (plain : o.render = false)
    (rejected : Coordinate.parse o.coordinate = .error err) :
    ∃ f, play (runInspect e s o) here t = (.error f, t) := by
  rw [runInspect_eq e s plain, rejected]
  exact ⟨_, rfl⟩

theorem play_runInspect_of_failed {e : Environment} {s : Settings} {o : InspectOptions}
    {c : Coordinate} {f : Failure} {t' : FileTree} (plain : o.render = false)
    (parsed : Coordinate.parse o.coordinate = .ok c)
    (failed : play (fetchArtifact e s c o.dir o.localRepo?) here t = (.error f, t')) :
    play (runInspect e s o) here t = (.error f, t') := by
  rw [runInspect_of_parsed plain parsed, play_bind, failed]

theorem play_runInspect_of_unreadable {e : Environment} {s : Settings} {o : InspectOptions}
    {c : Coordinate} {a : Artifact} {t' : FileTree} (plain : o.render = false)
    (parsed : Coordinate.parse o.coordinate = .ok c)
    (fetched : play (fetchArtifact e s c o.dir o.localRepo?) here t = (.ok a, t'))
    (unreadable : ∀ content, t'.readFile here (Path.append o.dir c.fileName) = .ok content →
      ∃ err, Archive.ofBytes (Path.append o.dir c.fileName) content = .error err) :
    ∃ f, play (runInspect e s o) here t = (.error f, t') := by
  obtain ⟨path, -⟩ := play_fetchArtifact_ok fetched
  have closed : ∃ f, opened (Path.append o.dir c.fileName)
      (t'.readFile here (Path.append o.dir c.fileName)) = .error f := by
    cases read : t'.readFile here (Path.append o.dir c.fileName) with
    | error f => exact ⟨_, rfl⟩
    | ok content =>
      obtain ⟨err, broken⟩ := unreadable content read
      rw [opened, broken]
      exact ⟨_, rfl⟩
  obtain ⟨f, closed⟩ := closed
  rw [runInspect_of_parsed plain parsed, play_bind, fetched]
  simp only [path]
  rw [play_bind, play_openArchive, closed]
  exact ⟨f, rfl⟩

/-- Inspecting comes to what the fetch, the manifest and the graph come to, one after the other: to
the same result and the same files. A rejected coordinate and a missing artifact leave the files
alone, and behind an archive that does not open no other file is new or changed. -/
theorem runInspect_spec (e : Environment) (s : Settings) (o : InspectOptions) (w : World)
    (plain : o.render = false) :
    (∀ fetchJson manifestJson graphJson, World.outcome (runInspect e s o) w =
      World.outcome (inspectBySteps e s o fetchJson manifestJson graphJson) w) ∧
    (∀ err, Coordinate.parse o.coordinate = .error err →
      ∃ f, World.outcome (runInspect e s o) w = (.error f, w.files)) ∧
    (∀ c settings root, Coordinate.parse o.coordinate = .ok c →
      fetchSettings e s.fetch o.localRepo? = .ok settings → settings.localRoot? = some root →
      w.files.fileExists w.here (LocalRepository.artifactPath ⟨root⟩ c) = .ok false →
      ∃ f, World.outcome (runInspect e s o) w = (.error f, w.files)) ∧
    ∀ c json t', Coordinate.parse o.coordinate = .ok c →
      World.outcome (runFetch e s ⟨o.coordinate, o.dir, o.localRepo?, json⟩) w = (.ok (), t') →
      (∀ content, t'.readFile w.here (Path.append o.dir c.fileName) = .ok content →
        ∃ err, Archive.ofBytes (Path.append o.dir c.fileName) content = .error err) →
      (∃ f, World.outcome (runInspect e s o) w = (.error f, t')) ∧
      ∃ place, t'.resolve w.here (Path.append o.dir c.fileName) = .ok place ∧
        FileTree.SameFilesBut place w.files t' ∧
        ∀ diagram ∈ [manifestDiagramPath o.dir c, moduleDiagramPath o.dir c],
          t'.resolve w.here diagram ≠ .ok place := by
  have inspected := (World.Follows.runInspect e s plain).outcome_eq w
  refine ⟨fun fetchJson manifestJson graphJson => ?_, fun err rejected => ?_,
    fun c settings root parsed source inDirectory missing => ?_,
    fun c json t' parsed fetched unreadable => ?_⟩
  · rw [inspected, (follows_inspectBySteps e s o fetchJson manifestJson graphJson).outcome_eq w]
    exact play_runInspect e s plain fetchJson manifestJson graphJson
  · rw [inspected]
    exact play_runInspect_of_rejected plain rejected
  · rw [inspected]
    obtain ⟨f, failed⟩ := play_fetchArtifact_missing source inDirectory missing
    exact ⟨f, play_runInspect_of_failed plain parsed failed⟩
  · rw [(World.Follows.runFetch e s _).outcome_eq w] at fetched
    obtain ⟨a, fetched⟩ := play_runFetch_ok fetched parsed
    obtain ⟨-, place, resolved, same⟩ := play_fetchArtifact_ok fetched
    rw [inspected]
    exact ⟨play_runInspect_of_unreadable plain parsed fetched unreadable, place, resolved, same,
      fun diagram drawn led => diagram_apart drawn led resolved⟩

end Runs

def brokenRepository : FileTree :=
  ⟨[(["g"], .directory), (["g", "a"], .directory), (["g", "a", "1"], .directory),
    (["g", "a", "1", "a-1.jar"], .file [0] false)]⟩

/-- An artifact that is no archive is fetched, and nothing is drawn. -/
theorem runInspect_spec_broken_archive :
    ∃ f, World.outcome
        (runInspect ⟨fun _ => none, none⟩ {}
          { coordinate := "g:a:1", dir := "d", localRepo? := some "" })
        ⟨brokenRepository, [], .empty, [], [], []⟩ =
      (.error f, (brokenRepository.put ["d"] .directory).put ["d", "a-1.jar"]
        (.file [0] false)) := by
  have fetched : World.outcome
      (runFetch ⟨fun _ => none, none⟩ {}
        { coordinate := "g:a:1", dir := "d", localRepo? := some "" })
      ⟨brokenRepository, [], .empty, [], [], []⟩ =
      (.ok (), (brokenRepository.put ["d"] .directory).put ["d", "a-1.jar"] (.file [0] false)) := by
    rfl
  have spec := runInspect_spec ⟨fun _ => none, none⟩ {}
    { coordinate := "g:a:1", dir := "d", localRepo? := some "" }
    ⟨brokenRepository, [], .empty, [], [], []⟩ rfl
  refine (spec.2.2.2 ⟨"g", "a", "1"⟩ false _ rfl fetched fun content read => ?_).1
  have stored : ((brokenRepository.put ["d"] .directory).put ["d", "a-1.jar"]
      (.file [0] false)).readFile [] (Path.append "d" (Coordinate.fileName ⟨"g", "a", "1"⟩)) =
      .ok [0] := by rfl
  obtain rfl : [0] = content := Except.ok.inj (stored.symm.trans read)
  exact ⟨_, rfl⟩

end Command
end JarAtlas
