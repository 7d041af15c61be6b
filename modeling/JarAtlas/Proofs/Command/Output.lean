import JarAtlas.Command.Program
import JarAtlas.Proofs.Command.Files
import JarAtlas.Proofs.Machine.Output
import Mathlib.Data.List.Basic

/-! What the commands print that are asked for a document: the document first, and behind it only
where a diagram was saved and what came of drawing it. -/
namespace JarAtlas
namespace World
namespace Silent

variable {α : Type}

theorem failWith (top : String) (causes : List String) :
    Silent (Command.failWith top causes : ExceptT Failure (StateM World) α) := .throw _

theorem ofFetch (answer : Except Repository.Error α) : Silent (Command.ofFetch answer) := by
  cases answer with
  | ok a => exact .pure a
  | error e => exact .failWith _ _

variable [Web]

theorem openArchive (path : String) : Silent (Command.openArchive path) := by
  unfold Command.openArchive Archive.load
  refine .bind (.bind (.readFile path) fun answer => ?_) fun answer => ?_
  · cases answer with
    | error f => exact .pure _
    | ok content =>
      refine .bind (.forM (fun _ => .note _) _) fun _ => ?_
      split
      · exact .pure _
      · exact .bind (.note _) fun _ => .pure _
  · cases answer with
    | ok archive => exact .pure _
    | error e => exact .failWith _ _

theorem manifestOrEmpty (a : Archive) : Silent (Command.manifestOrEmpty a) := by
  unfold Command.manifestOrEmpty
  dsimp only
  split
  · exact .bind (.note _) fun _ => .pure _
  · exact .pure _

theorem writeModuleDiagram (a : Archive) (root output : String) :
    Silent (Command.writeModuleDiagram a root output) := by
  unfold Command.writeModuleDiagram Command.synthesize Command.emit
  refine .bind (.bind (.forM (fun _ => .note _) _) fun _ => .bind (.note _) fun _ =>
    .bind (.note _) fun _ => .pure _) fun g => .bind (.bind (.writeFile output _) fun written => ?_)
    fun answer => ?_
  · cases written with
    | error f => exact .pure _
    | ok _ => exact .bind (.note _) fun _ => .pure _
  · cases answer with
    | ok _ => exact .pure _
    | error f => exact .failWith _ _

theorem writeManifestDiagram (a : Archive) (manifest : Manifest) (output : String) :
    Silent (Command.writeManifestDiagram a manifest output) := by
  unfold Command.writeManifestDiagram
  refine .bind (.writeFile output _) fun answer => ?_
  cases answer with
  | ok _ => exact .pure _
  | error f => exact .failWith _ _

theorem store (content : Bytes) (dir path : String) :
    Silent (LocalRepository.store content dir path) := by
  unfold LocalRepository.store
  refine .bind (.makeDirs dir) fun made => ?_
  cases made with
  | error f => exact .pure _
  | ok _ =>
    refine .bind (.writeFile path content) fun written => ?_
    cases written with
    | error f => exact .pure _
    | ok _ => exact .pure _

theorem receive (total? : Option Nat) (path : String) (told : Nat) (before : Bytes)
    (pieces : List Bytes) : Silent (RemoteRepository.receive total? path told before pieces) := by
  induction pieces generalizing told before with
  | nil => exact .pure _
  | cons piece pieces ih =>
    unfold RemoteRepository.receive
    refine .bind (.appendFile path piece) fun written => ?_
    cases written with
    | error f => exact .pure _
    | ok _ =>
      dsimp only
      split
      · exact ih _ _
      · exact .bind (.note _) fun _ => ih _ _

theorem storeResponse (response : Response) (dir path : String) :
    Silent (RemoteRepository.store response dir path) := by
  unfold RemoteRepository.store
  refine .bind (.makeDirs dir) fun made => ?_
  cases made with
  | error f => exact .pure _
  | ok _ =>
    refine .bind (.writeFile path []) fun written => ?_
    cases written with
    | error f => exact .pure _
    | ok _ =>
      refine .bind (.receive _ path 0 [] response.pieces) fun received => ?_
      cases received with
      | error e => exact .pure _
      | ok content =>
        dsimp only
        split
        · exact .pure _
        · exact .bind (.note _) fun _ => .pure _

theorem fetchLocally (r : LocalRepository) (c : Coordinate) (dir : String) :
    Silent (r.fetch c dir) := by
  unfold LocalRepository.fetch
  refine .bind (.fileExists _) fun found => ?_
  split
  · exact .pure _
  · exact .pure _
  · refine .bind (.note _) fun _ => .bind (.readFile _) fun read => ?_
    cases read with
    | error f => exact .pure _
    | ok content => exact .store content dir _

variable [Url.HostNames]

theorem fetchFromWeb (r : RemoteRepository) (c : Coordinate) (dir : String) :
    Silent (r.fetch c dir) := by
  unfold RemoteRepository.fetch
  split
  · exact .pure _
  · refine .bind (.note _) fun _ => .bind (.request _) fun answer => ?_
    cases answer with
    | error f => exact .pure _
    | ok response =>
      dsimp only
      split
      · exact .bind (.note _) fun _ => .storeResponse response dir _
      · exact .pure _

theorem fetch (source : Repository.Source) (c : Coordinate) (dir : String) :
    Silent (source.fetch c dir) := by
  cases source with
  | inDirectory r => exact .fetchLocally r c dir
  | onWeb r => exact .fetchFromWeb r c dir

theorem fetchArtifact (e : Environment) (s : Settings) (c : Coordinate) (dir : String)
    (localRepo? : Option String) : Silent (Command.fetchArtifact e s c dir localRepo?) := by
  unfold Command.fetchArtifact
  split
  · exact .throw _
  · exact .bind (.ofFetch _) fun source => .bind (.note _) fun _ =>
      .bind (.fetch source c dir) fun answer => .ofFetch answer

end Silent
end World

namespace Command

open World

variable {w w' : World} {a : Archive}

def drawingLine (r : Renderer) : Renderer.Outcome → String
  | .rendered image => "Image saved to: " ++ image ++ "\n"
  | .toolUnavailable => "Graphviz (" ++ r.tool ++
      ") not found in PATH, skipping image. Install it, e.g. `sudo apt install graphviz`." ++
      "\n"
  | .failed _ => ""

theorem drawingLine_failed (r : Renderer) (message : String) :
    drawingLine r (.failed message) = "" := rfl

def PrintedBy (w : World) (tool out : String) : Prop :=
  out = "" ∨ ∃ files args run, w.tools files w.here tool args = .ok run ∧ run.out = out

/-- What drawing a description prints: that the tool is not there, or what the tool prints, and
behind that where the image is, if there is one. -/
inductive Drawn (w : World) (r : Renderer) (description : String) : String → Prop
  | unavailable : Drawn w r description (drawingLine r .toolUnavailable)
  | rendered {image out : String} (named : Render.imagePath? r.format description = some image)
      (printed : PrintedBy w r.tool out) :
      Drawn w r description (out ++ drawingLine r (.rendered image))
  | failed {out : String} (printed : PrintedBy w r.tool out) : Drawn w r description out

theorem PrintedBy.of_said {w₁ : World} {tool said out : String} (before : Said w w₁ said)
    (h : PrintedBy w₁ tool out) : PrintedBy w tool out := by
  rwa [PrintedBy, before.tools, before.here] at h

theorem Drawn.of_said {w₁ : World} {r : Renderer} {description said text : String}
    (before : Said w w₁ said) (h : Drawn w₁ r description text) : Drawn w r description text := by
  cases h with
  | unavailable => exact .unavailable
  | rendered named printed => exact .rendered named (printed.of_said before)
  | failed printed => exact .failed (printed.of_said before)

theorem said_start (tool : String) (args : List String) (quiet : Bool) (w : World) :
    ∃ out, Said w (World.start tool args quiet w).2 out ∧ PrintedBy w tool out ∧
      (quiet = true → out = "") ∧ ∀ f, (World.start tool args quiet w).1 = .error f → out = "" := by
  unfold World.start
  split
  · exact ⟨"", .refl w, .inl rfl, fun _ => rfl, fun _ _ => rfl⟩
  · next run started =>
    cases quiet with
    | true => exact ⟨"", ⟨by simp [World.output], rfl, rfl⟩, .inl rfl, fun _ => rfl, fun _ _ => rfl⟩
    | false =>
      have said := Said.print w run.out
      refine ⟨run.out, ⟨said.output, rfl, rfl⟩, .inr ⟨_, _, run, started, rfl⟩, ?_, ?_⟩
      · intro loud
        cases loud
      · intro f failed
        cases failed

def json : Command → Bool
  | .graph o => o.json
  | .manifest o => o.json
  | .fetch o => o.json
  | .inspect _ => false

/-- What follows the document if a diagram is drawn, and if not. -/
def DrawnIf (render : Bool) (w : World) (r : Renderer) (description text : String) : Prop :=
  if render then Drawn w r description text else text = ""

theorem DrawnIf.of_said {w₁ : World} {r : Renderer} {render : Bool}
    {description said text : String} (before : Said w w₁ said)
    (h : DrawnIf render w₁ r description text) : DrawnIf render w r description text := by
  unfold DrawnIf at h ⊢
  split
  · next drawn =>
    rw [if_pos drawn] at h
    exact h.of_said before
  · next plain =>
    rwa [if_neg plain] at h

section Runs

variable [Web]

theorem opened_of_openArchive {path : String}
    (done : (openArchive path : ExceptT Failure (StateM World) Archive).run.run w = (.ok a, w')) :
    opened path (w.files.readFile w.here path) = .ok a := by
  have both := (World.Follows.openArchive path).outcome_eq w
  rw [play_openArchive, outcome, done] at both
  exact (congrArg Prod.fst both).symm

theorem eq_of_manifestOrEmpty {manifest : Manifest}
    (done : (manifestOrEmpty a : ExceptT Failure (StateM World) Manifest).run.run w =
      (.ok manifest, w')) : manifest = a.manifestOrEmpty := by
  unfold manifestOrEmpty at done
  dsimp only at done
  split at done
  · obtain ⟨_, _, _, returned⟩ := run_bind_eq_ok_iff.1 done
    exact (run_pure_eq_ok_iff.1 returned).1.symm
  · exact (run_pure_eq_ok_iff.1 done).1.symm

theorem eq_of_writeModuleDiagram {root output : String} {g : ModuleGraph}
    (done : (writeModuleDiagram a root output : ExceptT Failure (StateM World) ModuleGraph).run.run w
      = (.ok g, w')) : g = ModuleGraph.ofArchive root a := by
  obtain ⟨g', _, synthesized, written⟩ := run_bind_eq_ok_iff.1 done
  have same : g' = g := by
    obtain ⟨answer, _, _, returned⟩ := run_bind_eq_ok_iff.1 written
    cases answer with
    | ok _ => exact (run_pure_eq_ok_iff.1 returned).1
    | error f => cases returned
  obtain ⟨_, _, _, noted⟩ := run_bind_eq_ok_iff.1 synthesized
  obtain ⟨_, _, _, noted⟩ := run_bind_eq_ok_iff.1 noted
  obtain ⟨_, _, _, returned⟩ := run_bind_eq_ok_iff.1 noted
  rw [← same]
  exact (run_pure_eq_ok_iff.1 returned).1.symm

theorem said_isAvailable {r : Renderer} {there : Bool}
    (done : (r.isAvailable : ExceptT Failure (StateM World) Bool).run.run w = (.ok there, w')) :
    Said w w' "" := by
  obtain ⟨answer, w₁, started, returned⟩ := run_bind_eq_ok_iff.1 done
  obtain rfl : (World.start r.tool ["-V"] true w).2 = w₁ := congrArg Prod.snd started
  obtain ⟨out, said, -, silent, -⟩ := said_start r.tool ["-V"] true w
  have same : (World.start r.tool ["-V"] true w).2 = w' := by
    cases answer <;> exact (run_pure_eq_ok_iff.1 returned).2
  rwa [same, silent rfl] at said

theorem said_render {r : Renderer} {description image : String} {outcome : Renderer.Outcome}
    (named : Render.imagePath? r.format description = some image)
    (done : (r.render description image : ExceptT Failure (StateM World) _).run.run w =
      (.ok outcome, w')) :
    ∃ out, Said w w' out ∧ Drawn w r description (out ++ drawingLine r outcome) := by
  obtain ⟨_, w₁, noted, rest⟩ := run_bind_eq_ok_iff.1 done
  obtain ⟨answer, w₂, started, returned⟩ := run_bind_eq_ok_iff.1 rest
  have before := (Silent.note _).said noted
  obtain ⟨rfl, rfl⟩ : (World.start r.tool ["-T" ++ r.format, description, "-o", image] false w₁).1 =
      answer ∧
      (World.start r.tool ["-T" ++ r.format, description, "-o", image] false w₁).2 = w₂ :=
    ⟨Except.ok.inj (congrArg Prod.fst started), congrArg Prod.snd started⟩
  obtain ⟨rfl, rfl⟩ := run_pure_eq_ok_iff.1 returned
  obtain ⟨out, said, printed, -, silent⟩ :=
    said_start r.tool ["-T" ++ r.format, description, "-o", image] false w₁
  refine ⟨out, before.after_silence said, ?_⟩
  have here := printed.of_said before
  generalize (World.start r.tool ["-T" ++ r.format, description, "-o", image] false w₁).1 = answer
    at silent
  unfold Renderer.outcome
  split
  · split
    · exact .rendered named here
    · rw [drawingLine_failed, String.append_empty]
      exact .failed here
  · rw [silent _ rfl, String.empty_append]
    exact .unavailable
  · rw [drawingLine_failed, String.append_empty]
    exact .failed here

theorem said_renderBeside {r : Renderer} {description : String} {outcome : Renderer.Outcome}
    (done : (r.renderBeside description : ExceptT Failure (StateM World) _).run.run w =
      (.ok (.ok outcome), w')) :
    ∃ out, Said w w' out ∧ Drawn w r description (out ++ drawingLine r outcome) := by
  obtain ⟨there, w₁, asked, rest⟩ := run_bind_eq_ok_iff.1 done
  have before := said_isAvailable asked
  cases there with
  | false =>
    obtain ⟨same, rfl⟩ := run_pure_eq_ok_iff.1 rest
    obtain rfl := Except.ok.inj same
    refine ⟨"", before, ?_⟩
    rw [String.empty_append]
    exact .unavailable
  | true =>
    simp only [if_true] at rest
    split at rest
    · cases rest
    · next image named =>
      obtain ⟨_, w₂, rendered, returned⟩ := run_bind_eq_ok_iff.1 rest
      obtain ⟨same, rfl⟩ := run_pure_eq_ok_iff.1 returned
      obtain rfl := Except.ok.inj same
      obtain ⟨out, said, drawn⟩ := said_render named rendered
      exact ⟨out, before.after_silence said, drawn.of_said before⟩

theorem said_draw {r : Renderer} {description : String}
    (done : (draw r description : ExceptT Failure (StateM World) Unit).run.run w = (.ok (), w')) :
    ∃ text, Said w w' text ∧ Drawn w r description text := by
  obtain ⟨answer, w₁, rendered, told⟩ := run_bind_eq_ok_iff.1 done
  cases answer with
  | error e => cases told
  | ok outcome =>
    obtain ⟨out, said, drawn⟩ := said_renderBeside rendered
    have line : Said w₁ w' (drawingLine r outcome) := by
      cases outcome with
      | rendered image =>
        obtain rfl := congrArg Prod.snd told
        exact .print w₁ _
      | toolUnavailable =>
        obtain rfl := congrArg Prod.snd told
        exact .print w₁ _
      | failed message =>
        exact (Silent.note _).said told
    exact ⟨_, said.trans line, drawn⟩

theorem said_drawIf {r : Renderer} {description : String} {render : Bool}
    (done : (if render then draw r description else pure () :
      ExceptT Failure (StateM World) Unit).run.run w = (.ok (), w')) :
    ∃ text, Said w w' text ∧ DrawnIf render w r description text := by
  unfold DrawnIf
  cases render with
  | false =>
    obtain rfl := congrArg Prod.snd done
    exact ⟨"", .refl w, rfl⟩
  | true => exact said_draw done

variable [Url.HostNames]

/-- The document of a command that goes from one world to another, and what follows it: nothing
behind an artifact, what drawing prints behind a graph, and behind a manifest where its diagram was
saved, if it was. -/
def Answers (s : Settings) (e : Environment) (w w' : World) : Command → Json → String → Prop
  | .graph o, document, rest => ∃ a, opened o.jar (w.files.readFile w.here o.jar) = .ok a ∧
      document = (ModuleGraph.ofArchive (o.root?.getD s.rootNamespace) a).toJson ∧
      DrawnIf o.render w (renderer s o.format?) o.output rest
  | .manifest o, document, rest => ∃ a, opened o.jar (w.files.readFile w.here o.jar) = .ok a ∧
      document = a.manifestOrEmpty.toJson ∧
      match o.output? with
      | none => rest = ""
      | some output => ∃ drawn, rest = "Saved to: " ++ output ++ "\n" ++ drawn ∧
          DrawnIf o.render w (renderer s o.format?) output drawn
  | .fetch o, document, rest => ∃ c a, Coordinate.parse o.coordinate = .ok c ∧
      outcome (fetchArtifact e s c o.dir o.localRepo?) w = (.ok a, w'.files) ∧
      document = fetchReport c a ∧ rest = ""
  | .inspect _, _, _ => False

theorem answers_graph {s : Settings} (e : Environment) {o : GraphOptions} (json : o.json = true)
    (done : (runGraph s o : ExceptT Failure (StateM World) Unit).run.run w = (.ok (), w')) :
    ∃ document rest, Said w w' (document.indented ++ "\n" ++ rest) ∧
      Answers s e w w' (.graph o) document rest := by
  obtain ⟨a, w₁, open_done, done⟩ := run_bind_eq_ok_iff.1 done
  obtain ⟨_, w₂, noted, done⟩ := run_bind_eq_ok_iff.1 done
  obtain ⟨g, w₃, written, done⟩ := run_bind_eq_ok_iff.1 done
  rw [json, if_pos rfl] at done
  obtain ⟨_, w₄, printed, done⟩ := run_bind_eq_ok_iff.1 done
  obtain ⟨rest, drawing, drawn⟩ := said_drawIf done
  have before : Said w w₃ "" := (((Silent.openArchive _).said open_done).after_silence
    ((Silent.note _).said noted)).after_silence ((Silent.writeModuleDiagram _ _ _).said written)
  have whole := before.after_silence ((said_printLine printed).trans drawing)
  obtain rfl := eq_of_writeModuleDiagram written
  have document := before.after_silence (said_printLine printed)
  exact ⟨_, rest, whole, a, opened_of_openArchive open_done, rfl, drawn.of_said document⟩

theorem answers_manifest {s : Settings} (e : Environment) {o : ManifestOptions}
    (json : o.json = true)
    (done : (runManifest s o : ExceptT Failure (StateM World) Unit).run.run w = (.ok (), w')) :
    ∃ document rest, Said w w' (document.indented ++ "\n" ++ rest) ∧
      Answers s e w w' (.manifest o) document rest := by
  obtain ⟨a, w₁, open_done, done⟩ := run_bind_eq_ok_iff.1 done
  obtain ⟨manifest, w₂, found, done⟩ := run_bind_eq_ok_iff.1 done
  rw [json, if_pos rfl] at done
  obtain ⟨_, w₃, printed, done⟩ := run_bind_eq_ok_iff.1 done
  have before : Said w w₂ "" := ((Silent.openArchive _).said open_done).after_silence
    ((Silent.manifestOrEmpty _).said found)
  obtain rfl := eq_of_manifestOrEmpty found
  have document := before.after_silence (said_printLine printed)
  have opened := opened_of_openArchive open_done
  cases path : o.output? with
  | none =>
    rw [path] at done
    obtain rfl := congrArg Prod.snd done
    refine ⟨_, "", document.trans (.refl _), a, opened, rfl, ?_⟩
    rw [path]
  | some output =>
    rw [path] at done
    obtain ⟨_, w₄, written, done⟩ := run_bind_eq_ok_iff.1 done
    obtain ⟨_, w₅, told, done⟩ := run_bind_eq_ok_iff.1 done
    obtain ⟨drawn, drawing, text⟩ := said_drawIf done
    have saved := ((Silent.writeManifestDiagram _ _ _).said written).after_silence
      (said_printLine told)
    refine ⟨_, _, document.trans (saved.trans drawing), a, opened, rfl, ?_⟩
    rw [path]
    exact ⟨drawn, rfl, text.of_said (document.trans saved)⟩

theorem answers_fetch {s : Settings} {e : Environment} {o : FetchOptions} (json : o.json = true)
    (done : (runFetch e s o : ExceptT Failure (StateM World) Unit).run.run w = (.ok (), w')) :
    ∃ document rest, Said w w' (document.indented ++ "\n" ++ rest) ∧
      Answers s e w w' (.fetch o) document rest := by
  obtain ⟨c, w₁, parsed, done⟩ := run_bind_eq_ok_iff.1 done
  obtain ⟨a, w₂, fetched, printed⟩ := run_bind_eq_ok_iff.1 done
  rw [json, if_pos rfl] at printed
  cases parse : Coordinate.parse o.coordinate with
  | error err =>
    rw [parse] at parsed
    cases parsed
  | ok c' =>
    rw [parse] at parsed
    obtain ⟨same, rfl⟩ := Prod.mk.inj parsed
    obtain rfl := Except.ok.inj same
    have document := ((Silent.fetchArtifact e s _ _ _).said fetched).after_silence
      (said_printLine printed)
    obtain rfl := congrArg Prod.snd printed
    refine ⟨_, "", document.trans (.refl _), _, a, parse, ?_, rfl, rfl⟩
    rw [outcome, fetched]
    rfl

/-- A command that succeeds prints its document, and behind it only what it answers there. -/
theorem answers_run {s : Settings} {e : Environment} {command : Command}
    (json : command.json = true)
    (done : (run e s command : ExceptT Failure (StateM World) Unit).run.run w = (.ok (), w')) :
    ∃ document rest, Said w w' (document.indented ++ "\n" ++ rest) ∧
      Answers s e w w' command document rest := by
  cases command with
  | graph o => exact answers_graph e json done
  | manifest o => exact answers_manifest e json done
  | fetch o => exact answers_fetch json done
  | inspect o => cases json

theorem Answers.of_events {s : Settings} {e : Environment} {command : Command} {document : Json}
    {rest : String} {events : List Event}
    (h : Answers s e { w with events } w' command document rest) :
    Answers s e w w' command document rest := by
  have before : Said w { w with events } "" := ⟨by simp [World.output], rfl, rfl⟩
  cases command with
  | graph o =>
    obtain ⟨a, opened, text, drawn⟩ := h
    exact ⟨a, opened, text, drawn.of_said before⟩
  | manifest o =>
    obtain ⟨a, opened, text, behind⟩ := h
    refine ⟨a, opened, text, ?_⟩
    cases path : o.output? with
    | none => rwa [path] at behind
    | some output =>
      rw [path] at behind
      obtain ⟨drawn, whole, told⟩ := behind
      exact ⟨drawn, whole, told.of_said before⟩
  | inspect o => exact h
  | fetch o =>
    obtain ⟨c, a, parsed, fetched, text⟩ := h
    refine ⟨c, a, parsed, ?_, text⟩
    rw [(Follows.fetchArtifact ..).outcome_eq] at fetched ⊢
    exact fetched

end Runs

end Command

theorem Json.getLast?_indentedChars (level : Nat) (j : Json) :
    ∃ c, (j.indentedChars level).getLast? = some c ∧ (c ∈ ['"', ']', '\x7d'] ∨ c.isDigit) := by
  cases j with
  | text s => exact ⟨'"', List.getLast?_concat, by simp⟩
  | number n =>
    have filled : Nat.toDigits 10 n ≠ [] := Nat.toDigits_ne_nil
    refine ⟨_, List.getLast?_eq_some_getLast filled, .inr ?_⟩
    exact Nat.isDigit_of_mem_toDigits (by decide) (by decide) (List.getLast_mem filled)
  | list items =>
    refine ⟨']', ?_, by simp⟩
    cases items with
    | nil => rfl
    | cons item items => exact List.getLast?_concat
  | object members =>
    refine ⟨'\x7d', ?_, by simp⟩
    cases members with
    | nil => rfl
    | cons member members => exact List.getLast?_concat

theorem Json.ne_indented {text : String} (j : Json) (c : Char)
    (last : text.toList.dropLast.getLast? = some c) (other : c ∉ ['"', ']', '\x7d'])
    (noDigit : c.isDigit = false) : text ≠ j.indented ++ "\n" := by
  rintro rfl
  have chars : (j.indented ++ "\n").toList = j.indentedChars 0 ++ ['\n'] := by simp
  obtain ⟨d, ends, kind⟩ := j.getLast?_indentedChars 0
  rw [chars, List.dropLast_concat, ends] at last
  obtain rfl := Option.some.inj last
  rcases kind with closing | digit
  · exact other closing
  · rw [noDigit] at digit
    cases digit

namespace Program

open World

section Runs

variable [Web] {w w' : World}

def ended : Except Failure Unit → StateM World Nat
  | .ok () => return 0
  | .error f => do
    Machine.complain (Text.unlines f.lines)
    return f.exitCode

variable [Url.HostNames]

theorem run_of_runCommand {e : Environment} {command : Command}
    (done : (runCommand e command : StateM World Nat).run w = (0, w')) :
    ∃ events, (Command.run e (.ofEnvironment e) command :
      ExceptT Failure (StateM World) Unit).run.run { w with events } = (.ok (), w') := by
  have ends (w₁ : World)
      (done : ((Command.run e (.ofEnvironment e) command :
        ExceptT Failure (StateM World) Unit).run >>= ended).run w₁ = (0, w')) :
      (Command.run e (.ofEnvironment e) command :
        ExceptT Failure (StateM World) Unit).run.run w₁ = (.ok (), w') := by
    rw [StateT.run_bind] at done
    generalize (Command.run e (.ofEnvironment e) command :
      ExceptT Failure (StateM World) Unit).run.run w₁ = answer at done ⊢
    obtain ⟨f | _, w₂⟩ := answer
    · have code : f.exitCode = 0 := congrArg Prod.fst done
      cases f <;> cases code
    · obtain rfl : w₂ = w' := congrArg Prod.snd done
      rfl
  unfold runCommand at done
  cases warned : FetchSettings.warning? e with
  | none =>
    rw [warned] at done
    exact ⟨w.events, ends w done⟩
  | some message =>
    rw [warned] at done
    exact ⟨_, ends { w with events := ⟨.warn, message⟩ :: w.events } done⟩

/-- A command that is asked for a document prints it first of all. Behind it there is nothing for an
artifact, nothing but what drawing prints for a graph, and for a manifest also where its diagram
was saved. -/
theorem document_first (e : Environment) (args : List String) (command : Command)
    (asked : Arguments.command args = .ok command) (json : command.json = true)
    (done : (run e args : StateM World Nat).run w = (0, w')) :
    ∃ document rest, w'.output = w.output ++ (document.indented ++ "\n" ++ rest) ∧
      Command.Answers (.ofEnvironment e) e w w' command document rest := by
  rw [run, asked] at done
  obtain ⟨events, done⟩ := run_of_runCommand done
  obtain ⟨document, rest, said, answers⟩ := Command.answers_run json done
  exact ⟨document, rest, said.output, answers.of_events⟩

end Runs

def emptyArchive : FileTree :=
  ⟨[(["x.jar"], .file ([0x50, 0x4B, 5, 6] ++ List.replicate 18 0) false)]⟩

theorem document_first_alone :
    ∃ a w', Command.opened "x.jar" (emptyArchive.readFile [] "x.jar") = .ok a ∧
      (run ⟨fun _ => none, none⟩ ["graph", "x.jar", "--json"] : StateM World Nat).run
        ⟨emptyArchive, [], .empty, [], [], []⟩ = (0, w') ∧
      w'.output = (ModuleGraph.ofArchive defaultRoot a).toJson.indented ++ "\n" := by
  have asked : Arguments.command ["graph", "x.jar", "--json"] =
      .ok (.graph { jar := "x.jar", json := true }) := by rfl
  obtain ⟨w', done⟩ : ∃ w', (run ⟨fun _ => none, none⟩ ["graph", "x.jar", "--json"] :
      StateM World Nat).run ⟨emptyArchive, [], .empty, [], [], []⟩ = (0, w') := ⟨_, rfl⟩
  obtain ⟨_, _, output, a, opened, rfl, alone⟩ := document_first _ _ _ asked rfl done
  obtain rfl := alone
  have root : (Settings.ofEnvironment ⟨fun _ => none, none⟩).rootNamespace = defaultRoot := rfl
  exact ⟨a, w', opened, done, by simpa [World.output, root] using output⟩

/-- Behind the document of a manifest stands where its diagram was saved, and behind that of a graph
where its image was. Neither text is one document. -/
theorem document_not_alone :
    (∃ w', (run ⟨fun _ => none, none⟩ ["manifest", "x.jar", "-o", "x.dot", "--json"] :
        StateM World Nat).run ⟨emptyArchive, [], .empty, [], [], []⟩ = (0, w') ∧
      w'.output = "\x7b\x7d\nSaved to: x.dot\n") ∧
    (∃ w', (run ⟨fun _ => none, none⟩ ["graph", "x.jar", "-r", "--json"] : StateM World Nat).run
        ⟨emptyArchive, [], fun files _ _ _ => .ok ⟨files, "", "", .exited 0⟩, [], [], []⟩ =
        (0, w') ∧
      w'.output = "\x7b\x7d\nImage saved to: modules.png\n") ∧
    ∀ document : Json, "\x7b\x7d\nSaved to: x.dot\n" ≠ document.indented ++ "\n" ∧
      "\x7b\x7d\nImage saved to: modules.png\n" ≠ document.indented ++ "\n" := by
  refine ⟨⟨_, rfl, rfl⟩, ⟨_, rfl, rfl⟩, fun document => ⟨?_, ?_⟩⟩
  · exact document.ne_indented 't' (by decide) (by decide) (by decide)
  · exact document.ne_indented 'g' (by decide) (by decide) (by decide)

end Program
end JarAtlas
