import JarAtlas.Proofs.FileTree.Access

/-! Making directories: nothing is there afterwards that was not there before, but for directories
that the path leads through. -/
namespace JarAtlas
namespace FileTree

variable {t t' t₁ t₂ t₃ : FileTree} {here place : Location} {path above : String} {content : Bytes}

/-- What stood in the one tree stands in the other, which has no files besides those. -/
structure Grows (t t' : FileTree) : Prop where
  kept : ∀ place n, t.find? place = some n → t'.find? place = some n
  files : ∀ place content executable, t'.find? place = some (.file content executable) →
    t.find? place = some (.file content executable)

theorem Grows.file_iff (grows : Grows t t') {executable : Bool} :
    t'.find? place = some (.file content executable) ↔
      t.find? place = some (.file content executable) :=
  ⟨grows.files place content executable, grows.kept place _⟩

theorem Keeps.of_find? (kept : ∀ place n, t.find? place = some n → t'.find? place = some n) :
    Keeps t t' := by
  constructor
  · intro place directory
    have stands : t.find? place = some .directory := by simpa [isDirectory] using directory
    simp [isDirectory, kept place _ stands]
  · intro place found
    obtain ⟨n, stands⟩ := Option.isSome_iff_exists.1 found
    rw [kept place n stands]
    rfl

/-- The path, or the first pieces of it, lead to the place. -/
def OnTheWay (t : FileTree) (here : Location) (path : String) (place : Location) : Prop :=
  ∃ ps, ps <+: Path.parts path ∧ walk t (origin here path) ps = .ok place

theorem OnTheWay.keep (keeps : Keeps t t') (h : OnTheWay t here path place) :
    OnTheWay t' here path place := by
  obtain ⟨ps, front, walked⟩ := h
  exact ⟨ps, front, keeps.walk walked⟩

theorem OnTheWay.of_resolve (h : resolve t here path = .ok place) :
    OnTheWay t here path place :=
  ⟨Path.parts path, List.prefix_rfl, (resolve_eq_ok_iff.1 h).2⟩

theorem OnTheWay.of_parent (up : Path.parent? path = some above)
    (h : OnTheWay t here above place) : OnTheWay t here path place := by
  obtain ⟨ps, front, walked⟩ := h
  obtain ⟨start, stays | first⟩ := Path.parent?_eq_some up
  · rw [origin, start] at walked
    have idle : ∀ p ∈ ps, Path.idle p = true := fun p hp => stays p (front.subset hp)
    obtain rfl := eq_of_walk_idle idle walked
    exact ⟨[], List.nil_prefix, rfl⟩
  · rw [origin, start] at walked
    exact ⟨ps, front.trans first, walked⟩

/-- The later tree has directories that were not there, on the way of a path, and nothing else that
is new. -/
structure MakesWay (here : Location) (path : String) (t t' : FileTree) : Prop where
  kept : ∀ place n, t.find? place = some n → t'.find? place = some n
  new : ∀ place n, t'.find? place = some n →
    t.find? place = some n ∨ n = .directory ∧ OnTheWay t' here path place

namespace MakesWay

theorem refl (here : Location) (path : String) (t : FileTree) : MakesWay here path t t :=
  ⟨fun _ _ h => h, fun _ _ h => .inl h⟩

theorem trans (h : MakesWay here path t₁ t₂) (k : MakesWay here path t₂ t₃) :
    MakesWay here path t₁ t₃ := by
  constructor
  · intro place n stands
    exact k.kept place n (h.kept place n stands)
  · intro place n stands
    rcases k.new place n stands with before | late
    · rcases h.new place n before with old | ⟨directory, way⟩
      · exact .inl old
      · exact .inr ⟨directory, way.keep (.of_find? k.kept)⟩
    · exact .inr late

theorem of_parent (up : Path.parent? path = some above) (h : MakesWay here above t t') :
    MakesWay here path t t' :=
  ⟨h.kept, fun place n stands => (h.new place n stands).imp_right fun late =>
    ⟨late.1, late.2.of_parent up⟩⟩

theorem grows (h : MakesWay here path t t') : Grows t t' := by
  refine ⟨h.kept, fun place content executable stands => ?_⟩
  rcases h.new place _ stands with old | ⟨directory, -⟩
  · exact old
  · cases directory

end MakesWay

theorem makeDir_eq_ok (h : t.makeDir here path = .ok t') :
    ∃ place slash, target t here path = .ok (some place, slash) ∧ overlong place = false ∧
      t.find? place = none ∧ t' = t.put place .directory := by
  unfold makeDir at h
  obtain ⟨⟨place?, slash⟩, aim, h⟩ := bind_eq_ok_iff.1 h
  cases place? with
  | none => cases h
  | some place =>
    dsimp only at h
    split at h
    · cases h
    · next short =>
      split at h
      · cases h
      · next free =>
        have made : t.put place .directory = t' := by simpa [pure, Except.pure] using h
        exact ⟨place, slash, aim, by simpa using short, by simpa using free, made.symm⟩

theorem find?_put_of_free (free : t.find? place = none) (n : Node) (p : Location) :
    (t.put place n).find? p = if p = place then some n else t.find? p := by
  apply find?_put
  rintro rfl
  cases free

theorem kept_put_of_free (free : t.find? place = none) (n : Node) {p : Location} {m : Node}
    (stands : t.find? p = some m) : (t.put place n).find? p = some m := by
  rw [find?_put_of_free free, if_neg, stands]
  rintro rfl
  rw [free] at stands
  cases stands

theorem resolve_of_makeDir (h : t.makeDir here path = .ok t') :
    ∃ place, resolve t' here path = .ok place ∧ t.find? place = none ∧
      t' = t.put place .directory := by
  obtain ⟨place, slash, aim, short, free, rfl⟩ := makeDir_eq_ok h
  have find := find?_put_of_free free .directory
  have keeps : Keeps t (t.put place .directory) :=
    .of_find? fun _ _ stands => kept_put_of_free free .directory stands
  refine ⟨place, resolve_of_target aim short keeps ?_ ?_, free, rfl⟩
  · rw [find, if_pos rfl]
    rfl
  · intro _
    rw [isDirectory, find, if_pos rfl]
    rfl

theorem makeDir_makesWay (h : t.makeDir here path = .ok t') : MakesWay here path t t' := by
  obtain ⟨place, resolved, free, rfl⟩ := resolve_of_makeDir h
  refine ⟨fun _ _ stands => kept_put_of_free free .directory stands, fun p n stands => ?_⟩
  rw [find?_put_of_free free] at stands
  by_cases same : p = place
  · subst same
    rw [if_pos rfl] at stands
    exact .inr ⟨(Option.some.inj stands).symm, .of_resolve resolved⟩
  · rw [if_neg same] at stands
    exact .inl stands

theorem leadsToDirectory_iff : leadsToDirectory t here path = true ↔
    ∃ place, resolve t here path = .ok place ∧ t.isDirectory place = true := by
  unfold leadsToDirectory
  cases resolve t here path <;> simp

theorem leadsToDirectory_of_makeDir (h : t.makeDir here path = .ok t') :
    leadsToDirectory t' here path = true := by
  obtain ⟨place, resolved, free, rfl⟩ := resolve_of_makeDir h
  refine leadsToDirectory_iff.2 ⟨place, resolved, ?_⟩
  rw [isDirectory, find?_put_of_free free, if_pos rfl]
  rfl

theorem Keeps.leadsToDirectory (keeps : Keeps t t')
    (h : FileTree.leadsToDirectory t here path = true) :
    FileTree.leadsToDirectory t' here path = true := by
  obtain ⟨place, resolved, directory⟩ := leadsToDirectory_iff.1 h
  exact leadsToDirectory_iff.2 ⟨place, keeps.resolve resolved, keeps.directories place directory⟩

theorem forgive_fst (t : FileTree) (here : Location) (path : String) (f : Fault) :
    (t.forgive here path f).1 = t := by
  unfold forgive
  split <;> rfl

theorem leadsToDirectory_of_forgive {f : Fault} (h : t.forgive here path f = (t', .ok ())) :
    leadsToDirectory t' here path = true := by
  unfold forgive at h
  split at h
  · next leads =>
    obtain rfl : t = t' := congrArg Prod.fst h
    exact leads
  · cases congrArg Prod.snd h

/-- The directories that a run makes are on the way of its path. -/
theorem makeDirsUpTo_makesWay (depth : Nat) (t : FileTree) (here : Location) (path : String) :
    MakesWay here path t (makeDirsUpTo depth t here path).1 := by
  induction depth generalizing path with
  | zero => exact .refl here path t
  | succ depth ih =>
    unfold makeDirsUpTo
    split
    · exact .refl here path t
    · split
      · next made => exact makeDir_makesWay made
      · split
        · exact .refl here path t
        · next above up =>
          have first := (ih above).of_parent up
          split
          · next stopped => rwa [stopped] at first
          · next made =>
            rw [made] at first
            split
            · next last => exact first.trans (makeDir_makesWay last)
            · rw [forgive_fst]
              exact first
      · rw [forgive_fst]
        exact .refl here path t

theorem leadsToDirectory_of_makeDirsUpTo {depth : Nat}
    (h : makeDirsUpTo depth t here path = (t', .ok ())) :
    path = "" ∨ leadsToDirectory t' here path = true := by
  cases depth with
  | zero => cases congrArg Prod.snd h
  | succ depth =>
    unfold makeDirsUpTo at h
    split at h
    · next empty => exact .inl empty
    · right
      split at h
      · next made =>
        obtain rfl := congrArg Prod.fst h
        exact leadsToDirectory_of_makeDir made
      · split at h
        · cases congrArg Prod.snd h
        · split at h
          · cases congrArg Prod.snd h
          · split at h
            · next last =>
              obtain rfl := congrArg Prod.fst h
              exact leadsToDirectory_of_makeDir last
            · exact leadsToDirectory_of_forgive h
      · exact leadsToDirectory_of_forgive h

theorem makeDirs_makesWay (t : FileTree) (here : Location) (path : String) :
    MakesWay here path t (t.makeDirs here path).1 := makeDirsUpTo_makesWay _ t here path

theorem makeDirs_grows (t : FileTree) (here : Location) (path : String) :
    Grows t (t.makeDirs here path).1 := (makeDirs_makesWay t here path).grows

theorem walk_of_front {ps qs : List String} {start : Location} (front : ps <+: qs)
    (h : walk t start qs = .ok place) : ∃ dir, walk t start ps = .ok dir := by
  obtain ⟨rest, rfl⟩ := front
  obtain ⟨dir, walked, -⟩ := walk_append_eq_ok_iff.1 h
  exact ⟨dir, walked⟩

/-- Whatever is missing on the way to a target is missing on the way of the path. -/
theorem target_ne_notFound (h : resolve t here path = .ok place) :
    target t here path ≠ .error .notFound := by
  obtain ⟨fit, walked⟩ := resolve_eq_ok_iff.1 h
  generalize named : ((Path.parts path).reverse.dropWhile (· == "")).reverse = ns
  obtain ⟨-, slashes, whole⟩ := exists_replicate_of_dropWhile named
  have front : ns.dropLast <+: Path.parts path := by
    rw [whole]
    exact (List.dropLast_prefix ns).trans (List.prefix_append ..)
  obtain ⟨dir, reached⟩ := walk_of_front front walked
  unfold target
  simp only [fit, named, reached]
  change (if !t.isDirectory dir then _ else _) ≠ _
  split
  · intro missing
    cases missing
  · cases ns.getLast? with
    | none => simp [pure, Except.pure]
    | some name =>
      by_cases dots : name = "." ∨ name = ".." <;> simp [dots, pure, Except.pure]

theorem find?_target_of_resolve {aimed : Location} {slash : Bool}
    (h : resolve t here path = .ok place) (aim : target t here path = .ok (some aimed, slash)) :
    (t.find? aimed).isSome = true := by
  obtain ⟨-, ps, name, slashes, dir, parts, -, named, notUp, walked, -, rfl⟩ := target_eq_some aim
  obtain ⟨-, whole⟩ := resolve_eq_ok_iff.1 h
  rw [parts, walk_append_eq_ok_iff] at whole
  obtain ⟨dir', walked', rest⟩ := whole
  obtain rfl : dir = dir' := Except.ok.inj (walked.symm.trans walked')
  obtain ⟨next, step, -⟩ := walk_cons_eq_ok_iff.1 rest
  obtain ⟨-, stay | up | ⟨-, -, -, found, -⟩⟩ := stepTo_eq_ok_iff.1 step
  · simp [named] at stay
  · exact absurd up.2.1 notUp
  · exact found

theorem target_of_makeDir_notFound (h : t.makeDir here path = .error .notFound) :
    target t here path = .error .notFound := by
  unfold makeDir at h
  cases aim : target t here path with
  | error f =>
    rw [aim] at h
    obtain rfl : f = .notFound := Except.error.inj h
    rfl
  | ok answer =>
    rw [aim] at h
    obtain ⟨_ | p, slash⟩ := answer
    · cases h
    · cases long : overlong p <;> cases taken : (t.find? p).isSome <;>
        simp [long, taken, pure, Except.pure, throw, throwThe, MonadExceptOf.throw, bind,
          Except.bind] at h

theorem makeDir_of_leads (h : leadsToDirectory t here path = true) :
    ∃ f, t.makeDir here path = .error f ∧ f ≠ .notFound := by
  obtain ⟨place, resolved, -⟩ := leadsToDirectory_iff.1 h
  cases made : t.makeDir here path with
  | ok t' =>
    obtain ⟨p, slash, aim, -, free, -⟩ := makeDir_eq_ok made
    have found := find?_target_of_resolve resolved aim
    rw [free] at found
    cases found
  | error f =>
    refine ⟨f, rfl, ?_⟩
    rintro rfl
    exact target_ne_notFound resolved (target_of_makeDir_notFound made)

theorem makeDirs_of_leads (h : path = "" ∨ leadsToDirectory t here path = true) :
    t.makeDirs here path = (t, .ok ()) := by
  rw [makeDirs, makeDirsUpTo]
  by_cases empty : path = ""
  · rw [if_pos empty]
  · have leads := h.resolve_left empty
    obtain ⟨f, refused, other⟩ := makeDir_of_leads leads
    rw [if_neg empty, refused]
    have forgiven : t.forgive here path f = (t, .ok ()) := by rw [forgive, if_pos leads]
    cases f with
    | notFound => exact absurd rfl other
    | _ => exact forgiven

/-- The files of both trees are the same, but for one place. -/
def SameFilesBut (place : Location) (t t' : FileTree) : Prop :=
  ∀ p, p ≠ place → ∀ content executable,
    t'.find? p = some (.file content executable) ↔ t.find? p = some (.file content executable)

theorem sameFilesBut_of_makeDirs {dir : String} {t₁ : FileTree}
    (made : t.makeDirs here dir = (t₁, .ok ()))
    (others : ∀ p, p ≠ place → t'.find? p = t₁.find? p) : SameFilesBut place t t' := by
  intro p other own executable
  have grows : Grows t t₁ := by
    have h := makeDirs_grows t here dir
    rwa [made] at h
  rw [others p other]
  exact grows.file_iff

end FileTree
end JarAtlas
