import JarAtlas.FileTree.Access
import JarAtlas.Proofs.Path
import Mathlib.Data.List.Induction

/-! What writing a file and making directories change in a tree, and what they leave alone. -/
namespace JarAtlas
namespace FileTree

variable {t t' : FileTree} {here place : Location} {path : String} {content : Bytes}

theorem bind_eq_ok_iff {α β : Type} {x : Except Fault α} {f : α → Except Fault β} {b : β} :
    (x >>= f) = .ok b ↔ ∃ a, x = .ok a ∧ f a = .ok b := by
  cases x <;> simp [bind, Except.bind]

/-- What stands in the one tree stands in the other, directories as directories. -/
structure Keeps (t t' : FileTree) : Prop where
  directories : ∀ place, t.isDirectory place = true → t'.isDirectory place = true
  nodes : ∀ place, (t.find? place).isSome = true → (t'.find? place).isSome = true

theorem stepTo_eq_ok_iff {piece : String} {next : Location} :
    stepTo t place piece = .ok next ↔ t.isDirectory place = true ∧
      (Path.idle piece = true ∧ place = next ∨
        Path.idle piece = false ∧ piece = ".." ∧ place.dropLast = next ∨
        Path.idle piece = false ∧ piece ≠ ".." ∧ octets piece ≤ maxName ∧
          (t.find? (place ++ [piece])).isSome = true ∧ place ++ [piece] = next) := by
  unfold stepTo
  split
  · next other => simp_all
  · next directory =>
    split
    · next idle => simp_all
    · next named =>
      split
      · next up => simp_all
      · next notUp =>
        split
        · next long => simp_all [Nat.not_le.2 long]
        · next short =>
          split
          · next missing => simp_all
          · next found => simp_all [Nat.not_lt.1 short, Option.isSome_iff_ne_none]

theorem walk_append_eq_ok_iff {ps qs : List String} {next : Location} :
    walk t place (ps ++ qs) = .ok next ↔
      ∃ dir, walk t place ps = .ok dir ∧ walk t dir qs = .ok next := by
  rw [walk, List.foldlM_append, bind_eq_ok_iff]
  rfl

theorem walk_cons_eq_ok_iff {piece : String} {pieces : List String} {next : Location} :
    walk t place (piece :: pieces) = .ok next ↔
      ∃ dir, stepTo t place piece = .ok dir ∧ walk t dir pieces = .ok next := by
  rw [walk, List.foldlM_cons, bind_eq_ok_iff]
  rfl

theorem walk_concat_eq_ok_iff {pieces : List String} {piece : String} {next : Location} :
    walk t place (pieces ++ [piece]) = .ok next ↔
      ∃ dir, walk t place pieces = .ok dir ∧ stepTo t dir piece = .ok next := by
  have last (dir : Location) : walk t dir [piece] = stepTo t dir piece := by
    rw [walk, List.foldlM_cons]
    cases stepTo t dir piece <;> rfl
  simp only [walk_append_eq_ok_iff, last]

theorem eq_of_walk_idle {pieces : List String} {next : Location}
    (idle : ∀ p ∈ pieces, Path.idle p = true) (h : walk t place pieces = .ok next) :
    place = next := by
  induction pieces generalizing place with
  | nil => exact Except.ok.inj h
  | cons piece pieces ih =>
    obtain ⟨first, rest⟩ := List.forall_mem_cons.1 idle
    obtain ⟨dir, step, walked⟩ := walk_cons_eq_ok_iff.1 h
    obtain ⟨-, stay | up | named⟩ := stepTo_eq_ok_iff.1 step
    · rw [stay.2]
      exact ih rest walked
    · simp [first] at up
    · simp [first] at named

theorem walk_slashes (directory : t.isDirectory place = true) (slashes : Nat) :
    walk t place (List.replicate slashes "") = .ok place := by
  induction slashes with
  | zero => rfl
  | succ slashes ih =>
    rw [List.replicate_succ]
    exact walk_cons_eq_ok_iff.2 ⟨place, stepTo_eq_ok_iff.2 ⟨directory, .inl ⟨rfl, rfl⟩⟩, ih⟩

theorem resolve_eq_ok_iff :
    resolve t here path = .ok place ↔
      unfit? path = none ∧ walk t (origin here path) (Path.parts path) = .ok place := by
  unfold resolve
  cases unfit? path <;> simp

theorem Keeps.stepTo (keeps : Keeps t t') {piece : String} {next : Location}
    (h : stepTo t place piece = .ok next) : FileTree.stepTo t' place piece = .ok next := by
  obtain ⟨directory, step⟩ := stepTo_eq_ok_iff.1 h
  refine stepTo_eq_ok_iff.2 ⟨keeps.directories place directory, ?_⟩
  rcases step with stay | up | ⟨named, notUp, short, found, rfl⟩
  · exact .inl stay
  · exact .inr (.inl up)
  · exact .inr (.inr ⟨named, notUp, short, keeps.nodes _ found, rfl⟩)

theorem Keeps.walk (keeps : Keeps t t') {start : Location} {pieces : List String}
    (h : walk t start pieces = .ok place) : FileTree.walk t' start pieces = .ok place := by
  induction pieces using List.reverseRecOn generalizing place with
  | nil => exact h
  | append_singleton pieces piece ih =>
    obtain ⟨dir, before, step⟩ := walk_concat_eq_ok_iff.1 h
    exact walk_concat_eq_ok_iff.2 ⟨dir, ih before, keeps.stepTo step⟩

theorem Keeps.resolve (keeps : Keeps t t') (h : resolve t here path = .ok place) :
    FileTree.resolve t' here path = .ok place := by
  obtain ⟨fit, walked⟩ := resolve_eq_ok_iff.1 h
  exact resolve_eq_ok_iff.2 ⟨fit, keeps.walk walked⟩

theorem Keeps.target (keeps : Keeps t t') {answer : Option Location × Bool}
    (h : target t here path = .ok answer) : FileTree.target t' here path = .ok answer := by
  unfold FileTree.target at h ⊢
  split at h
  · cases h
  · dsimp only at h ⊢
    obtain ⟨dir, walked, rest⟩ := bind_eq_ok_iff.1 h
    refine bind_eq_ok_iff.2 ⟨dir, keeps.walk walked, ?_⟩
    cases directory : t.isDirectory dir with
    | false => simp [directory, throw, throwThe, MonadExceptOf.throw, bind, Except.bind] at rest
    | true => simpa [directory, keeps.directories dir directory] using rest

theorem getLast?_of_resolve {ps : List String} {name : String}
    (parts : Path.parts path = ps ++ [name]) (named : Path.idle name = false) (notUp : name ≠ "..")
    (h : resolve t here path = .ok place) : place.getLast? = some name := by
  obtain ⟨-, walked⟩ := resolve_eq_ok_iff.1 h
  rw [parts] at walked
  obtain ⟨dir, -, step⟩ := walk_concat_eq_ok_iff.1 walked
  obtain ⟨-, stay | up | ⟨-, -, -, -, rfl⟩⟩ := stepTo_eq_ok_iff.1 step
  · simp [named] at stay
  · exact absurd up.2.1 notUp
  · simp

theorem exists_replicate_of_dropWhile {ps ns : List String}
    (named : (ps.reverse.dropWhile (· == "")).reverse = ns) :
    ns.getLast? ≠ some "" ∧ ∃ slashes, ps = ns ++ List.replicate slashes "" := by
  have parted := List.takeWhile_append_dropWhile (p := (· == "")) (l := ps.reverse)
  have dropped : ∀ p ∈ ps.reverse.takeWhile (· == ""), p = "" := fun p hp => by
    simpa using List.all_eq_true.1 List.all_takeWhile p hp
  refine ⟨fun empty => ?_, (ps.reverse.takeWhile (· == "")).length, ?_⟩
  · rw [← named] at empty
    exact absurd (Path.eq_false_of_getLast? empty) (by simp)
  · rw [← named, ← List.reverse_inj, List.reverse_append, List.reverse_reverse,
      List.reverse_replicate, ← List.eq_replicate_iff.2 ⟨rfl, dropped⟩, parted]

/-- A path that ends in a name, with so many slashes behind it, targets that name in the directory
to which the rest of the path leads. -/
theorem target_eq_some {slash : Bool} (h : target t here path = .ok (some place, slash)) :
    unfit? path = none ∧ ∃ ps name slashes dir,
      Path.parts path = ps ++ name :: List.replicate slashes "" ∧ slash = decide (0 < slashes) ∧
      Path.idle name = false ∧ name ≠ ".." ∧ walk t (origin here path) ps = .ok dir ∧
      t.isDirectory dir = true ∧ place = dir ++ [name] := by
  unfold target at h
  split at h
  · cases h
  · next fit =>
    dsimp only at h
    generalize named : ((Path.parts path).reverse.dropWhile (· == "")).reverse = ns at h
    obtain ⟨dir, walked, h⟩ := bind_eq_ok_iff.1 h
    split at h
    · cases h
    · next directory =>
      split at h
      · cases h
      · next name last =>
        split at h
        · cases h
        · next proper =>
          obtain ⟨rfl, shorter⟩ : dir ++ [name] = place ∧
              decide (ns.length < (Path.parts path).length) = slash := by
            simpa [pure, Except.pure] using h
          obtain ⟨ps, rfl⟩ := List.getLast?_eq_some_iff.1 last
          obtain ⟨filled, slashes, whole⟩ := exists_replicate_of_dropWhile named
          have notEmpty : name ≠ "" := by simpa using filled
          refine ⟨fit, ps, name, slashes, dir, by simpa using whole, ?_, ?_, ?_, ?_, ?_, rfl⟩
          · rw [← shorter, whole]
            simp
          · simp_all [Path.idle]
          · exact fun up => proper (.inr up)
          · simpa using walked
          · simpa using directory

theorem putContent_eq (t : FileTree) (place : Location) (content : Bytes) :
    ∃ executable, t.putContent place content = t.put place (.file content executable) := by
  unfold putContent
  split
  · exact ⟨_, rfl⟩
  · exact ⟨_, rfl⟩

theorem ne_root_of_not_directory (h : t.isDirectory place = false) : place ≠ [] := by
  rintro rfl
  exact absurd h (by simp [isDirectory])

theorem find?_putContent (file : t.isDirectory place = false) (content : Bytes) :
    ∃ executable, ∀ p, (t.putContent place content).find? p =
      if p = place then some (.file content executable) else t.find? p := by
  obtain ⟨executable, put⟩ := putContent_eq t place content
  refine ⟨executable, fun p => ?_⟩
  rw [put, find?_put t p place _ (ne_root_of_not_directory file)]

theorem keeps_putContent (file : t.isDirectory place = false) (content : Bytes) :
    Keeps t (t.putContent place content) := by
  obtain ⟨executable, find⟩ := find?_putContent file content
  constructor
  · intro p directory
    have other : p ≠ place := by
      rintro rfl
      rw [file] at directory
      cases directory
    rw [isDirectory, find, if_neg other]
    exact directory
  · intro p found
    rw [find]
    split
    · rfl
    · exact found

/-- Where a path with a name at its end leads, once something stands there: a directory, if slashes
follow the name. -/
theorem resolve_of_target {slash : Bool} (h : target t here path = .ok (some place, slash))
    (short : overlong place = false) (keeps : Keeps t t')
    (found : (t'.find? place).isSome = true)
    (within : slash = true → t'.isDirectory place = true) : resolve t' here path = .ok place := by
  obtain ⟨fit, ps, name, slashes, dir, parts, slash', named, notUp, walked, directory, rfl⟩ :=
    target_eq_some h
  refine resolve_eq_ok_iff.2 ⟨fit, ?_⟩
  rw [parts, walk_append_eq_ok_iff]
  have length : octets name ≤ maxName := by simpa [overlong] using short
  have step : stepTo t' dir name = .ok (dir ++ [name]) := stepTo_eq_ok_iff.2
    ⟨keeps.directories dir directory, .inr (.inr ⟨named, notUp, length, found, rfl⟩)⟩
  refine ⟨dir, keeps.walk walked, walk_cons_eq_ok_iff.2 ⟨_, step, ?_⟩⟩
  cases slashes with
  | zero => rfl
  | succ slashes => exact walk_slashes (within (by simp [slash'])) _

theorem writeFile_eq_ok_iff : t.writeFile here path content = .ok t' ↔
    ∃ place, target t here path = .ok (some place, false) ∧ overlong place = false ∧
      t.isDirectory place = false ∧ t' = t.putContent place content := by
  unfold writeFile
  rw [bind_eq_ok_iff]
  constructor
  · rintro ⟨⟨place?, slash⟩, aim, h⟩
    cases place? with
    | none => cases h
    | some place =>
      dsimp only at h
      split at h
      · cases h
      · next noSlash =>
        split at h
        · cases h
        · next short =>
          split at h
          · cases h
          · next file =>
            obtain rfl : slash = false := by simpa using noSlash
            have written : t.putContent place content = t' := by
              simpa [pure, Except.pure] using h
            exact ⟨place, aim, by simpa using short, by simpa using file, written.symm⟩
  · rintro ⟨place, aim, short, file, rfl⟩
    refine ⟨(some place, false), aim, ?_⟩
    simp [short, file, pure, Except.pure]

theorem writeFile_eq_ok (h : t.writeFile here path content = .ok t') :
    ∃ place, resolve t' here path = .ok place ∧ t.isDirectory place = false ∧
      t' = t.putContent place content := by
  obtain ⟨place, aim, short, file, rfl⟩ := writeFile_eq_ok_iff.1 h
  obtain ⟨executable, find⟩ := find?_putContent file content
  refine ⟨place, ?_, file, rfl⟩
  exact resolve_of_target aim short (keeps_putContent file content) (by simp [find]) (by simp)

theorem readFile_eq_ok_iff :
    t.readFile here path = .ok content ↔
      ∃ place executable, resolve t here path = .ok place ∧
        t.find? place = some (.file content executable) := by
  unfold readFile
  rw [bind_eq_ok_iff]
  constructor
  · rintro ⟨place, resolved, h⟩
    split at h
    · next c executable found =>
      obtain rfl : c = content := by simpa [pure, Except.pure] using h
      exact ⟨place, executable, resolved, found⟩
    · cases h
    · cases h
  · rintro ⟨place, executable, resolved, found⟩
    refine ⟨place, resolved, ?_⟩
    rw [found]
    rfl

theorem readFile_writeFile (h : t.writeFile here path content = .ok t') :
    t'.readFile here path = .ok content := by
  obtain ⟨place, resolved, file, rfl⟩ := writeFile_eq_ok h
  obtain ⟨executable, find⟩ := find?_putContent file content
  exact readFile_eq_ok_iff.2 ⟨place, executable, resolved, by rw [find, if_pos rfl]⟩

theorem readFile_writeFile_of_ne {other : String} {own : Bytes}
    (h : t.writeFile here path content = .ok t') (read : t.readFile here other = .ok own)
    (apart : ∀ place, resolve t' here path = .ok place → resolve t' here other ≠ .ok place) :
    t'.readFile here other = .ok own := by
  obtain ⟨place, resolved, file, rfl⟩ := writeFile_eq_ok h
  obtain ⟨executable, find⟩ := find?_putContent file content
  obtain ⟨p, x, led, found⟩ := readFile_eq_ok_iff.1 read
  have still := (keeps_putContent file content).resolve led
  have ne : p ≠ place := fun e => apart place resolved (e ▸ still)
  exact readFile_eq_ok_iff.2 ⟨p, x, still, by rw [find, if_neg ne, found]⟩

theorem writeFile_again (h : t.writeFile here path content = .ok t') :
    ∃ t₂, t'.writeFile here path content = .ok t₂ ∧ ∀ p, t₂.find? p = t'.find? p := by
  obtain ⟨place, aim, short, file, rfl⟩ := writeFile_eq_ok_iff.1 h
  obtain ⟨executable, find⟩ := find?_putContent file content
  have stands : (t.putContent place content).find? place = some (.file content executable) := by
    rw [find, if_pos rfl]
  have still : (t.putContent place content).isDirectory place = false := by
    simp [isDirectory, stands]
  refine ⟨_, writeFile_eq_ok_iff.2
    ⟨place, (keeps_putContent file content).target aim, short, still, rfl⟩, fun p => ?_⟩
  have again : ((t.putContent place content).putContent place content) =
      (t.putContent place content).put place (.file content executable) := by
    rw [putContent.eq_def (t.putContent place content), stands]
  rw [again, find?_put _ _ _ _ (ne_root_of_not_directory file)]
  split
  · next same => rw [same, stands]
  · rfl

/-- A file stands where a path leads, which is also where the path would have it written. -/
structure Standing (t : FileTree) (here : Location) (path : String) (place : Location)
    (content : Bytes) : Prop where
  aim : target t here path = .ok (some place, false)
  short : overlong place = false
  file : ∃ executable, t.find? place = some (.file content executable)

namespace Standing

theorem not_directory (h : Standing t here path place content) : t.isDirectory place = false := by
  obtain ⟨executable, stands⟩ := h.file
  simp [isDirectory, stands]

theorem resolve (h : Standing t here path place content) :
    FileTree.resolve t here path = .ok place := by
  obtain ⟨executable, stands⟩ := h.file
  exact resolve_of_target h.aim h.short ⟨fun _ => id, fun _ => id⟩ (by simp [stands]) (by simp)

theorem readFile (h : Standing t here path place content) :
    FileTree.readFile t here path = .ok content := by
  obtain ⟨executable, stands⟩ := h.file
  exact readFile_eq_ok_iff.2 ⟨place, executable, h.resolve, stands⟩

theorem of_writeFile (h : t.writeFile here path content = .ok t') :
    ∃ place, Standing t' here path place content ∧ ∀ p, p ≠ place → t'.find? p = t.find? p := by
  obtain ⟨place, aim, short, file, rfl⟩ := writeFile_eq_ok_iff.1 h
  obtain ⟨executable, find⟩ := find?_putContent file content
  have keeps := keeps_putContent file content
  exact ⟨place, ⟨keeps.target aim, short, executable, by rw [find, if_pos rfl]⟩,
    fun p other => by rw [find, if_neg other]⟩

theorem appendFile (h : Standing t here path place content) (more : Bytes) :
    ∃ t', t.appendFile here path more = .ok t' ∧ Standing t' here path place (content ++ more) ∧
      ∀ p, p ≠ place → t'.find? p = t.find? p := by
  have written : t.writeFile here path (content ++ more) =
      .ok (t.putContent place (content ++ more)) :=
    writeFile_eq_ok_iff.2 ⟨place, h.aim, h.short, h.not_directory, rfl⟩
  obtain ⟨p, stands, others⟩ := of_writeFile written
  have keeps := keeps_putContent h.not_directory (content ++ more)
  obtain rfl : place = p := Except.ok.inj ((keeps.resolve h.resolve).symm.trans stands.resolve)
  exact ⟨_, bind_eq_ok_iff.2 ⟨content, h.readFile, written⟩, stands, others⟩

end Standing

end FileTree
end JarAtlas
