import JarAtlas.Proofs.Command.Output

/-! What drawing does to the end of a command. Commands draw last of all, and whatever the tool does
is told and forgotten, so that they end as they would without drawing. Only a format with a slash
stops them, once the tool has started. -/
namespace JarAtlas

/-- The tool can be started to ask for its version, whatever comes of that. -/
def World.starts (w : World) (tool : String) : Bool :=
  (w.tools w.files w.here tool ["-V"]).isOk

namespace Renderer

/-- The tool is there, but no image can be named. -/
def StopsIn (r : Renderer) (w : World) : Prop := w.starts r.tool = true ∧ '/' ∈ r.format.toList

instance (r : Renderer) (w : World) : Decidable (r.StopsIn w) :=
  inferInstanceAs (Decidable (w.starts r.tool = true ∧ '/' ∈ r.format.toList))

variable {r : Renderer} {w : World}

theorem start_of_not_starts (missing : w.starts r.tool = false) :
    (World.start r.tool ["-V"] true w).2 = w := by
  unfold World.starts at missing
  unfold World.start
  cases answer : w.tools w.files w.here r.tool ["-V"] with
  | error f => rfl
  | ok run =>
    rw [answer] at missing
    cases missing

section Runs

variable [Web]

theorem run_isAvailable (r : Renderer) (w : World) :
    (r.isAvailable : ExceptT Failure (StateM World) Bool).run.run w =
      (.ok (w.starts r.tool), (World.start r.tool ["-V"] true w).2) := by
  have asked : (Machine.start r.tool ["-V"] true :
      ExceptT Failure (StateM World) (Except Fault ExitStatus)).run.run w =
        (.ok (World.start r.tool ["-V"] true w).1, (World.start r.tool ["-V"] true w).2) := rfl
  rw [isAvailable, World.Follows.run_bind, asked]
  unfold World.start World.starts
  cases w.tools w.files w.here r.tool ["-V"] <;> rfl

theorem run_renderBeside_missing (missing : w.starts r.tool = false) (description : String) :
    (r.renderBeside description : ExceptT Failure (StateM World) _).run.run w =
      (.ok (.ok .toolUnavailable), w) := by
  rw [renderBeside, World.Follows.run_bind, run_isAvailable, missing, start_of_not_starts missing]
  rfl

theorem run_renderBeside_slash (there : w.starts r.tool = true) (slash : '/' ∈ r.format.toList)
    (description : String) :
    ∃ w', (r.renderBeside description : ExceptT Failure (StateM World) _).run.run w =
      (.ok (.error ⟨r.format⟩), w') := by
  rw [renderBeside, World.Follows.run_bind, run_isAvailable, there, Render.imagePath?_of_slash slash]
  exact ⟨_, rfl⟩

theorem run_renderBeside_plain (plain : '/' ∉ r.format.toList) (description : String)
    (w : World) :
    ∃ outcome w', (r.renderBeside description : ExceptT Failure (StateM World) _).run.run w =
      (.ok (.ok outcome), w') := by
  cases there : w.starts r.tool with
  | false => exact ⟨_, _, run_renderBeside_missing there description⟩
  | true =>
    rw [renderBeside, World.Follows.run_bind, run_isAvailable, there, Render.imagePath?_of_no_slash plain]
    exact ⟨_, _, rfl⟩

theorem exists_outcome_iff (r : Renderer) (description : String) (w : World) :
    (∃ outcome, ((r.renderBeside description :
        ExceptT Failure (StateM World) _).run.run w).1 = .ok (.ok outcome)) ↔ ¬ r.StopsIn w := by
  constructor
  · rintro ⟨outcome, answer⟩ ⟨there, slash⟩
    obtain ⟨w', stopped⟩ := run_renderBeside_slash there slash description
    rw [stopped] at answer
    cases answer
  · intro goes
    by_cases slash : '/' ∈ r.format.toList
    · have missing : w.starts r.tool = false := by
        refine Bool.eq_false_iff.2 fun there => goes ⟨there, slash⟩
      exact ⟨_, by rw [run_renderBeside_missing missing]⟩
    · obtain ⟨outcome, w', drawn⟩ := run_renderBeside_plain slash description w
      exact ⟨outcome, by rw [drawn]⟩

end Runs

end Renderer

namespace Command

open World

variable {r : Renderer} {w : World} {α : Type}

/-- How a run ends if diagrams are drawn after it, by how it ends itself. -/
def afterDrawing (r : Renderer) : Except Failure Unit × World → Except Failure Unit
  | (.ok (), w) => if r.StopsIn w then .error (.aborted r.format) else .ok ()
  | (.error f, _) => .error f

/-- One run is another one with drawing at its end. -/
structure DrawsLast (r : Renderer) (drawing plain : ExceptT Failure (StateM World) Unit) : Prop where
  ends : ∀ w, (drawing.run.run w).1 = afterDrawing r (plain.run.run w)

theorem DrawsLast.bind {x : ExceptT Failure (StateM World) α} {f g : α → ExceptT Failure (StateM World) Unit}
    (rest : ∀ a, DrawsLast r (f a) (g a)) : DrawsLast r (x >>= f) (x >>= g) := by
  refine ⟨fun w => ?_⟩
  rw [Follows.run_bind, Follows.run_bind]
  generalize x.run.run w = ended
  obtain ⟨_ | a, w'⟩ := ended
  · rfl
  · exact (rest a).ends w'

theorem afterDrawing_of_no_slash (plain : '/' ∉ r.format.toList)
    (ended : Except Failure Unit × World) : afterDrawing r ended = ended.1 := by
  obtain ⟨f | _, w'⟩ := ended
  · rfl
  · exact if_neg fun stops => plain stops.2

def withDrawing (render : Bool) : Command → Command
  | .graph o => .graph { o with render }
  | .manifest o => .manifest { o with render }
  | .fetch o => .fetch o
  | .inspect o => .inspect { o with render }

def renderer? (s : Settings) : Command → Option Renderer
  | .graph o => some (renderer s o.format?)
  | .manifest o => o.output?.map fun _ => renderer s o.format?
  | .fetch _ => none
  | .inspect o => some (renderer s o.format?)

section Runs

variable [Web]

theorem run_draw_stops (stops : r.StopsIn w) (description : String) :
    ∃ w', (draw r description : ExceptT Failure (StateM World) Unit).run.run w =
      (.error (.aborted r.format), w') := by
  obtain ⟨w', stopped⟩ := Renderer.run_renderBeside_slash stops.1 stops.2 description
  refine ⟨w', ?_⟩
  rw [draw, Follows.run_bind, stopped]
  rfl

theorem run_draw_goes (goes : ¬ r.StopsIn w) (description : String) :
    ∃ w', (draw r description : ExceptT Failure (StateM World) Unit).run.run w = (.ok (), w') ∧
      ¬ r.StopsIn w' := by
  by_cases slash : '/' ∈ r.format.toList
  · have missing : w.starts r.tool = false := Bool.eq_false_iff.2 fun there => goes ⟨there, slash⟩
    rw [draw, Follows.run_bind, Renderer.run_renderBeside_missing missing]
    exact ⟨_, rfl, goes⟩
  · obtain ⟨outcome, w', drawn⟩ := Renderer.run_renderBeside_plain slash description w
    rw [draw, Follows.run_bind, drawn]
    cases outcome <;> exact ⟨_, rfl, fun stops => slash stops.2⟩

namespace DrawsLast

theorem draw (r : Renderer) (description : String) :
    DrawsLast r (Command.draw r description) (pure ()) := by
  refine ⟨fun w => ?_⟩
  change _ = if r.StopsIn w then _ else _
  split
  · next stops =>
    obtain ⟨w', stopped⟩ := run_draw_stops stops description
    rw [stopped]
  · next goes =>
    obtain ⟨w', drawn, -⟩ := run_draw_goes goes description
    rw [drawn]

theorem draw_both (r : Renderer) (first second : String) :
    DrawsLast r (Command.draw r first >>= fun _ => Command.draw r second) (pure ()) := by
  refine ⟨fun w => ?_⟩
  change _ = if r.StopsIn w then _ else _
  split
  · next stops =>
    obtain ⟨w', stopped⟩ := run_draw_stops stops first
    rw [Follows.run_bind, stopped]
  · next goes =>
    obtain ⟨w', drawn, further⟩ := run_draw_goes goes first
    obtain ⟨w'', again, -⟩ := run_draw_goes further second
    rw [Follows.run_bind, drawn]
    exact congrArg Prod.fst again

variable (e : Environment) (s : Settings)

theorem runGraph (o : GraphOptions) : DrawsLast (renderer s o.format?)
    (Command.runGraph s { o with render := true }) (Command.runGraph s { o with render := false }) := by
  unfold Command.runGraph
  refine .bind fun archive => .bind fun _ => .bind fun g => ?_
  dsimp only
  split
  · exact .bind fun _ => .draw _ _
  · exact .bind fun _ => .bind fun _ => .draw _ _

theorem runManifest {o : ManifestOptions} {output : String} (named : o.output? = some output) :
    DrawsLast (renderer s o.format?) (Command.runManifest s { o with render := true })
      (Command.runManifest s { o with render := false }) := by
  unfold Command.runManifest
  refine .bind fun archive => .bind fun manifest => ?_
  simp only [named]
  split
  · exact .bind fun _ => .bind fun _ => .bind fun _ => .draw _ _
  · exact .bind fun _ => .bind fun _ => .bind fun _ => .draw _ _

theorem runInspect [Url.HostNames] (o : InspectOptions) : DrawsLast (renderer s o.format?)
    (Command.runInspect e s { o with render := true })
    (Command.runInspect e s { o with render := false }) := by
  unfold Command.runInspect
  exact .bind fun c => .bind fun a => .bind fun _ => .bind fun archive => .bind fun manifest =>
    .bind fun _ => .bind fun _ => .bind fun _ => .bind fun g => .bind fun _ => .draw_both _ _ _

end DrawsLast

variable [Url.HostNames]

theorem result_withDrawing (e : Environment) (s : Settings) (c : Command) (w : World) :
    ((run e s (c.withDrawing true) : ExceptT Failure (StateM World) Unit).run.run w).1 =
      match c.renderer? s with
      | none => ((run e s (c.withDrawing false) : ExceptT Failure (StateM World) Unit).run.run w).1
      | some r => afterDrawing r
          ((run e s (c.withDrawing false) : ExceptT Failure (StateM World) Unit).run.run w) := by
  cases c with
  | graph o => exact (DrawsLast.runGraph s o).ends w
  | fetch o => rfl
  | inspect o => exact (DrawsLast.runInspect e s o).ends w
  | manifest o =>
    cases named : o.output? with
    | some output =>
      simp only [renderer?, named, Option.map_some]
      exact (DrawsLast.runManifest s named).ends w
    | none =>
      simp only [renderer?, named, Option.map_none, withDrawing, run, runManifest]

/-- An attempt to draw has an outcome, whatever the tool does, unless the tool starts and the format
has a slash. With formats that have none, a command that draws ends as it does without drawing; in
general, it differs only where it would succeed and the tool then starts for a format that has
one. -/
theorem ends_as_without_drawing (e : Environment) (s : Settings) (c : Command) (w : World) :
    (∀ (r : Renderer) (description : String) (here : World),
      (∃ outcome, ((r.renderBeside description :
          ExceptT Failure (StateM World) _).run.run here).1 = .ok (.ok outcome)) ↔
        ¬ (here.starts r.tool = true ∧ '/' ∈ r.format.toList)) ∧
    ((∀ r, c.renderer? s = some r → '/' ∉ r.format.toList) →
      ((run e s (c.withDrawing true) : ExceptT Failure (StateM World) Unit).run.run w).1 =
        ((run e s (c.withDrawing false) : ExceptT Failure (StateM World) Unit).run.run w).1) ∧
    ((run e s (c.withDrawing true) : ExceptT Failure (StateM World) Unit).run.run w).1 =
      match c.renderer? s with
      | none => ((run e s (c.withDrawing false) : ExceptT Failure (StateM World) Unit).run.run w).1
      | some r => afterDrawing r
          ((run e s (c.withDrawing false) : ExceptT Failure (StateM World) Unit).run.run w) := by
  refine ⟨Renderer.exists_outcome_iff, fun plain => ?_, result_withDrawing e s c w⟩
  rw [result_withDrawing]
  cases drawsWith : c.renderer? s with
  | none => rfl
  | some r => exact afterDrawing_of_no_slash (plain r drawsWith) _

end Runs

/-- A tool that fails does no harm. -/
theorem ends_as_without_drawing_failing_tool :
    (∀ r, (Command.graph { jar := "x.jar" }).renderer? (.ofEnvironment ⟨fun _ => none, none⟩) =
      some r → '/' ∉ r.format.toList) ∧
    ((run ⟨fun _ => none, none⟩ (.ofEnvironment ⟨fun _ => none, none⟩)
        (.graph { jar := "x.jar", render := true }) :
      ExceptT Failure (StateM World) Unit).run.run ⟨Program.emptyArchive, [],
        fun files _ _ _ => .ok ⟨files, "", "", .exited 1⟩, [], [], []⟩).1 = .ok () := by
  have plain : ∀ r, (Command.graph { jar := "x.jar" }).renderer?
      (.ofEnvironment ⟨fun _ => none, none⟩) = some r → '/' ∉ r.format.toList := by
    intro r drawsWith
    obtain rfl := Option.some.inj drawsWith
    decide
  refine ⟨plain, ?_⟩
  exact (ends_as_without_drawing ⟨fun _ => none, none⟩ (.ofEnvironment ⟨fun _ => none, none⟩)
    (.graph { jar := "x.jar" }) _).2.1 plain

/-- A format with a slash stops a command that succeeds without drawing, for a tool that is there and
does nothing wrong. -/
theorem slash_stops_drawing :
    ((Renderer.renderBeside ⟨"dot", "a/b"⟩ "m.dot" :
      ExceptT Failure (StateM World) _).run.run ⟨Program.emptyArchive, [],
        fun files _ _ _ => .ok ⟨files, "", "", .exited 0⟩, [], [], []⟩).1 =
      .ok (.error ⟨"a/b"⟩) ∧
    ((Program.run ⟨fun _ => none, none⟩ ["graph", "x.jar"] : StateM World Nat).run
      ⟨Program.emptyArchive, [],
        fun files _ _ _ => .ok ⟨files, "", "", .exited 0⟩, [], [], []⟩).1 = 0 ∧
    ((Program.run ⟨fun _ => none, none⟩ ["graph", "x.jar", "-r", "--format", "a/b"] :
      StateM World Nat).run ⟨Program.emptyArchive, [],
        fun files _ _ _ => .ok ⟨files, "", "", .exited 0⟩, [], [], []⟩).1 = 101 :=
  ⟨rfl, rfl, rfl⟩

end Command
end JarAtlas
