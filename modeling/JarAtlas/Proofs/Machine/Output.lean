import JarAtlas.Proofs.Machine.Files

/-! What is printed on a world: how much by one run after another, and runs that print nothing. -/
namespace JarAtlas
namespace World

variable {α β : Type} {w w' w'' : World} {s t : String}
  {x : ExceptT Failure (StateM World) α} {f : α → ExceptT Failure (StateM World) β}

/-- So much was printed between two worlds, in one place and with the same tools. -/
structure Said (w w' : World) (text : String) : Prop where
  output : w'.output = w.output ++ text
  here : w'.here = w.here
  tools : w'.tools = w.tools

namespace Said

theorem refl (w : World) : Said w w "" := ⟨by simp, rfl, rfl⟩

theorem trans (first : Said w w' s) (rest : Said w' w'' t) : Said w w'' (s ++ t) where
  output := by rw [rest.output, first.output, String.append_assoc]
  here := rest.here.trans first.here
  tools := rest.tools.trans first.tools

theorem print (w : World) (text : String) : Said w { w with printed := text :: w.printed } text where
  output := by simp [World.output]
  here := rfl
  tools := rfl

theorem after_silence (first : Said w w' "") (rest : Said w' w'' t) : Said w w'' t := by
  simpa using first.trans rest

end Said

theorem run_bind_eq_ok_iff {b : β} : (x >>= f).run.run w = (.ok b, w'') ↔
    ∃ a w', x.run.run w = (.ok a, w') ∧ (f a).run.run w' = (.ok b, w'') := by
  rw [Follows.run_bind]
  constructor
  · intro done
    generalize first : x.run.run w = ended at done
    obtain ⟨_ | a, w'⟩ := ended
    · cases done
    · exact ⟨a, w', rfl, done⟩
  · rintro ⟨a, w', first, rest⟩
    rw [first]
    exact rest

theorem run_pure_eq_ok_iff {a b : α} :
    (Pure.pure a : ExceptT Failure (StateM World) α).run.run w = (.ok b, w') ↔ a = b ∧ w = w' := by
  constructor
  · intro done
    obtain ⟨same, stays⟩ := Prod.mk.inj done
    exact ⟨Except.ok.inj same, stays⟩
  · rintro ⟨rfl, rfl⟩
    rfl

/-- The run prints nothing, whether it succeeds or fails. -/
structure Silent (x : ExceptT Failure (StateM World) α) : Prop where
  nothing : ∀ w, Said w (x.run.run w).2 ""

namespace Silent

theorem said {a : α} (silent : Silent x) (done : x.run.run w = (.ok a, w')) : Said w w' "" := by
  have nothing := silent.nothing w
  rwa [done] at nothing

theorem pure (a : α) : Silent (Pure.pure a) := ⟨Said.refl⟩

theorem throw (e : Failure) : Silent (MonadExcept.throw e : ExceptT Failure (StateM World) α) :=
  ⟨Said.refl⟩

theorem bind (first : Silent x) (rest : ∀ a, Silent (f a)) : Silent (x >>= f) := by
  refine ⟨fun w => ?_⟩
  have nothing := first.nothing w
  rw [Follows.run_bind]
  generalize x.run.run w = ended at nothing
  obtain ⟨_ | a, w'⟩ := ended
  · exact nothing
  · exact nothing.after_silence ((rest a).nothing w')

theorem forM {f : α → ExceptT Failure (StateM World) PUnit} (each : ∀ a, Silent (f a))
    (as : List α) : Silent (as.forM f) := by
  induction as with
  | nil => exact .pure ()
  | cons a as ih => exact .bind (each a) fun _ => ih

theorem change (act : FileTree → Location → Except Fault FileTree) :
    Silent (ExceptT.lift (World.change act)) := by
  refine ⟨fun w => ?_⟩
  change Said w (World.change act w).2 ""
  unfold World.change
  split
  · exact .refl w
  · exact ⟨by simp [World.output], rfl, rfl⟩

variable [Web]

theorem fileExists (path : String) :
    Silent (Machine.fileExists path) := ⟨Said.refl⟩

theorem readFile (path : String) :
    Silent (Machine.readFile path) := ⟨Said.refl⟩

theorem writeFile (path : String) (content : Bytes) : Silent (Machine.writeFile path content) :=
  .change _

theorem appendFile (path : String) (content : Bytes) : Silent (Machine.appendFile path content) :=
  .change _

theorem makeDirs (path : String) : Silent (Machine.makeDirs path) :=
  ⟨fun w => ⟨by simp [World.output]; rfl, rfl, rfl⟩⟩

theorem request (r : Request) : Silent (Machine.request r) := ⟨Said.refl⟩

theorem note (e : Event) : Silent (Machine.note e) :=
  ⟨fun w => ⟨by simp [World.output]; rfl, rfl, rfl⟩⟩

end Silent

theorem said_printLine [Web] {line : String} {u : Unit}
    (done : (Machine.printLine line : ExceptT Failure (StateM World) Unit).run.run w =
      (.ok u, w')) : Said w w' (line ++ "\n") := by
  obtain rfl := congrArg Prod.snd done
  exact .print w _

end World
end JarAtlas
