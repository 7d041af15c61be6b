import JarAtlas.Command.Report
import JarAtlas.World

/-! A machine that is nothing but files: it prints nothing, notes nothing down and starts no tools.
A run on a world that starts no tools follows the run on its files. -/
namespace JarAtlas

abbrev Files := ReaderT Location (StateM FileTree)

namespace Files

def change (act : FileTree → Location → Except Fault FileTree) : Files (Except Fault Unit) :=
  fun here t => match act t here with
    | .error f => (.error f, t)
    | .ok t' => (.ok (), t')

instance [Web] : Machine Files where
  fileExists path := fun here t => (t.fileExists here path, t)
  readFile path := fun here t => (t.readFile here path, t)
  writeFile path content := change fun t here => t.writeFile here path content
  appendFile path content := change fun t here => t.appendFile here path content
  makeDirs path := fun here t => ((t.makeDirs here path).2, (t.makeDirs here path).1)
  request r := pure (Web.answer r)
  start _ _ _ := fun _ t => (.error .notFound, t)
  note _ := pure ()
  print _ := pure ()
  complain _ := pure ()

variable {α β : Type}

/-- The result of a run, and the files that it leaves. -/
def play (x : ExceptT Failure Files α) (here : Location) (t : FileTree) :
    Except Failure α × FileTree := x.run here t

theorem play_bind (x : ExceptT Failure Files α) (f : α → ExceptT Failure Files β)
    (here : Location) (t : FileTree) :
    play (x >>= f) here t = match play x here t with
      | (.ok a, t') => play (f a) here t'
      | (.error e, t') => (.error e, t') := by
  change (match x.run here t with | (r, t') => (ExceptT.bindCont f r).run here t') = _
  unfold play
  obtain ⟨_ | a, t'⟩ := x.run here t <;> rfl

theorem play_change (act : FileTree → Location → Except Fault FileTree) (here : Location)
    (t : FileTree) :
    play (ExceptT.lift (change act)) here t = match act t here with
      | .error f => (.ok (.error f), t)
      | .ok t' => (.ok (.ok ()), t') := by
  change (Except.ok (match act t here with
    | .error f => (Except.error f, t)
    | .ok t' => (.ok (), t')).1, _) = _
  cases act t here <;> rfl

variable [Web]

theorem play_fileExists (path : String) (here : Location) (t : FileTree) :
    play (Machine.fileExists path) here t = (.ok (t.fileExists here path), t) := rfl

theorem play_readFile (path : String) (here : Location) (t : FileTree) :
    play (Machine.readFile path) here t = (.ok (t.readFile here path), t) := rfl

theorem play_makeDirs (path : String) (here : Location) (t : FileTree) :
    play (Machine.makeDirs path) here t =
      (.ok (t.makeDirs here path).2, (t.makeDirs here path).1) := rfl

theorem play_request (r : Request) (here : Location) (t : FileTree) :
    play (Machine.request r) here t = (.ok (Web.answer r), t) := rfl

theorem play_writeFile (path : String) (content : Bytes) (here : Location) (t : FileTree) :
    play (Machine.writeFile path content) here t = match t.writeFile here path content with
      | .error f => (.ok (.error f), t)
      | .ok t' => (.ok (.ok ()), t') := play_change ..

theorem play_appendFile (path : String) (content : Bytes) (here : Location) (t : FileTree) :
    play (Machine.appendFile path content) here t = match t.appendFile here path content with
      | .error f => (.ok (.error f), t)
      | .ok t' => (.ok (.ok ()), t') := play_change ..

@[simp] theorem info_eq (message : String) :
    (Machine.info message : ExceptT Failure Files Unit) = pure () := rfl

@[simp] theorem debug_eq (message : String) :
    (Machine.debug message : ExceptT Failure Files Unit) = pure () := rfl

@[simp] theorem print_eq (text : String) :
    (Machine.print text : ExceptT Failure Files Unit) = pure () := rfl

@[simp] theorem printLine_eq (line : String) :
    (Machine.printLine line : ExceptT Failure Files Unit) = pure () := rfl

end Files

namespace World

variable {α β : Type}

def outcome (x : ExceptT Failure (StateM World) α) (w : World) : Except Failure α × FileTree :=
  ((x.run.run w).1, (x.run.run w).2.files)

/-- The run on a world comes to what the run on its files comes to, and stays where it is. -/
structure Follows (x : ExceptT Failure (StateM World) α) (y : ExceptT Failure Files α) : Prop where
  outcome_eq : ∀ w, outcome x w = Files.play y w.here w.files
  here : ∀ w, (x.run.run w).2.here = w.here

namespace Follows

theorem pure (a : α) : Follows (Pure.pure a) (Pure.pure a) := ⟨fun _ => rfl, fun _ => rfl⟩

theorem throw (f : Failure) : Follows (MonadExcept.throw f : ExceptT Failure (StateM World) α)
    (MonadExcept.throw f) := ⟨fun _ => rfl, fun _ => rfl⟩

theorem run_bind (x : ExceptT Failure (StateM World) α) (f : α → ExceptT Failure (StateM World) β)
    (w : World) : (x >>= f).run.run w = match x.run.run w with
      | (.ok a, w') => (f a).run.run w'
      | (.error e, w') => (.error e, w') := by
  change (match x.run.run w with | (r, w') => (ExceptT.bindCont f r).run w') = _
  obtain ⟨_ | a, w'⟩ := x.run.run w <;> rfl

theorem bind {x : ExceptT Failure (StateM World) α} {y : ExceptT Failure Files α}
    {f : α → ExceptT Failure (StateM World) β} {g : α → ExceptT Failure Files β}
    (first : Follows x y) (rest : ∀ a, Follows (f a) (g a)) : Follows (x >>= f) (y >>= g) := by
  have both (w : World) : outcome (x >>= f) w = Files.play (y >>= g) w.here w.files ∧
      ((x >>= f).run.run w).2.here = w.here := by
    have here := first.here w
    rw [Files.play_bind, ← first.outcome_eq w, outcome, outcome, run_bind]
    generalize x.run.run w = ended at here ⊢
    obtain ⟨_ | a, w'⟩ := ended
    · exact ⟨rfl, here⟩
    · have last := (rest a).outcome_eq w'
      have stays := (rest a).here w'
      rw [show w'.here = w.here from here] at last stays
      exact ⟨last, stays⟩
  exact ⟨fun w => (both w).1, fun w => (both w).2⟩

theorem forM {f : α → ExceptT Failure (StateM World) PUnit}
    {g : α → ExceptT Failure Files PUnit} (each : ∀ a, Follows (f a) (g a)) (as : List α) :
    Follows (as.forM f) (as.forM g) := by
  induction as with
  | nil => exact .pure ()
  | cons a as ih => exact .bind (each a) fun _ => ih

theorem change (act : FileTree → Location → Except Fault FileTree) :
    Follows (ExceptT.lift (World.change act)) (ExceptT.lift (Files.change act)) := by
  have both (w : World) : (World.change act w).2.here = w.here ∧
      (Except.ok (World.change act w).1, (World.change act w).2.files) =
        Files.play (ExceptT.lift (Files.change act)) w.here w.files := by
    rw [Files.play_change, World.change]
    cases act w.files w.here <;> exact ⟨rfl, rfl⟩
  exact ⟨fun w => (both w).2, fun w => (both w).1⟩

variable [Web]

theorem fileExists (path : String) :
    Follows (Machine.fileExists path) (Machine.fileExists path) := ⟨fun _ => rfl, fun _ => rfl⟩

theorem readFile (path : String) :
    Follows (Machine.readFile path) (Machine.readFile path) := ⟨fun _ => rfl, fun _ => rfl⟩

theorem writeFile (path : String) (content : Bytes) :
    Follows (Machine.writeFile path content) (Machine.writeFile path content) := .change _

theorem appendFile (path : String) (content : Bytes) :
    Follows (Machine.appendFile path content) (Machine.appendFile path content) := .change _

theorem makeDirs (path : String) :
    Follows (Machine.makeDirs path) (Machine.makeDirs path) := ⟨fun _ => rfl, fun _ => rfl⟩

theorem request (r : Request) :
    Follows (Machine.request r) (Machine.request r) := ⟨fun _ => rfl, fun _ => rfl⟩

theorem note (e : Event) : Follows (Machine.note e) (Machine.note e) :=
  ⟨fun _ => rfl, fun _ => rfl⟩

theorem print (text : String) : Follows (Machine.print text) (Machine.print text) :=
  ⟨fun _ => rfl, fun _ => rfl⟩

end Follows
end World
end JarAtlas
