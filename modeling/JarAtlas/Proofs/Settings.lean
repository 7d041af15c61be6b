import JarAtlas.Command.Run

/-! Where artifacts are fetched from. An option goes before the environment, and in the environment a
directory goes before the web. A variable with nothing but white space in it is as good as not set,
and no variables are looked at but those that are listed. -/
namespace JarAtlas

open Text

theorem exists_not_isBlank {v : String} (filled : v ≠ "") (trimmed : trim v = v) :
    ∃ c ∈ v.toList, isBlank c = false := by
  have nonempty : v.toList ≠ [] := by simpa using filled
  obtain ⟨c, cs, e⟩ := List.exists_cons_of_ne_nil nonempty
  have head : (trimChars v.toList).head? = some c := by
    rw [← toList_trim, trimmed, e, List.head?_cons]
  exact ⟨c, by simp [e], isBlank_of_head?_trimChars head⟩

namespace Environment

def ofPairs (settings : List (String × String)) (home? : Option String) : Environment :=
  ⟨fun name => settings.lookup name, home?⟩

/-- The variable is not set, or there is nothing but white space in it. -/
def Unset (e : Environment) (name : String) : Prop :=
  ∀ v, e.setting? name = some v → ∀ c ∈ v.toList, isBlank c = true

/-- The variable is set to a text with more in it than white space. -/
structure Holds (e : Environment) (name value : String) : Prop where
  set : e.setting? name = some value
  filled : ∃ c ∈ value.toList, isBlank c = false

/-- The variable has the same value in both environments, or none that counts in either. -/
def AgreeOn (name : String) (e f : Environment) : Prop :=
  e.setting? name = f.setting? name ∨ e.Unset name ∧ f.Unset name

variable {e f : Environment} {name value : String}

theorem get?_eq_none_iff : e.get? name = none ↔ e.Unset name := by
  simp [get?, Unset, blank]

theorem get?_eq_some_iff : e.get? name = some value ↔ e.Holds name value := by
  simp only [get?, Option.filter_eq_some_iff, blank]
  constructor
  · rintro ⟨set, filled⟩
    exact ⟨set, by simpa using filled⟩
  · rintro ⟨set, filled⟩
    exact ⟨set, by simpa using filled⟩

theorem get?_congr (agree : AgreeOn name e f) : e.get? name = f.get? name := by
  rcases agree with same | ⟨left, right⟩
  · rw [get?, same, get?]
  · rw [get?_eq_none_iff.2 left, get?_eq_none_iff.2 right]

end Environment

theorem LocalRepository.resolveRoot?_some (home value : String) :
    resolveRoot? (some home) value =
      some (if value = "default" then Path.append (Path.append home ".m2") "repository"
        else value) := by
  by_cases word : value = "default"
  · simp [resolveRoot?, defaultWord, defaultRoot, word]
  · simp [resolveRoot?, defaultWord, word]

namespace FetchSettings

variable [Url.HostNames] {s : FetchSettings} {root : String}

theorem source_of_localRoot (known : s.localRoot? = some root) :
    s.source = .ok (.inDirectory ⟨root⟩) := by
  rw [source, known]

theorem source_of_none (unknown : s.localRoot? = none) :
    s.source = match Url.parse (RemoteRepository.withSlash s.repository) with
      | .ok url => .ok (.onWeb ⟨url, s.credentials?⟩)
      | .error f => .error (.address f) := by
  rw [source, unknown]
  dsimp only
  rw [RemoteRepository.ofBase]
  cases Url.parse (RemoteRepository.withSlash s.repository) <;> rfl

theorem source_eq_ok_iff (unknown : s.localRoot? = none) {chosen : Repository.Source} :
    s.source = .ok chosen ↔
      ∃ url, Url.parse (RemoteRepository.withSlash s.repository) = .ok url ∧
        chosen = .onWeb ⟨url, s.credentials?⟩ := by
  rw [source_of_none unknown]
  cases Url.parse (RemoteRepository.withSlash s.repository) with
  | error f => simp
  | ok url => simp [eq_comm]

theorem source_eq_error_iff (unknown : s.localRoot? = none) :
    (∃ f, s.source = .error f) ↔
      ∃ f, Url.parse (RemoteRepository.withSlash s.repository) = .error f := by
  rw [source_of_none unknown]
  cases Url.parse (RemoteRepository.withSlash s.repository) <;> simp

theorem source_of_option (e : Environment) (s : FetchSettings) (value : String) :
    (Command.fetchSettings e s (some value)).toOption.map source =
      (LocalRepository.resolveRoot? e.home? value).map fun root => .ok (.inDirectory ⟨root⟩) := by
  rw [Command.fetchSettings]
  cases LocalRepository.resolveRoot? e.home? value with
  | none => rfl
  | some root => exact congrArg some (source_of_localRoot rfl)

end FetchSettings

namespace Settings

open Environment

variable {e f : Environment} {v base : String}

/-- The settings hang on nothing but the listed variables and the user's own directory. -/
theorem ofEnvironment_congr (home : e.home? = f.home?)
    (agree : ∀ name ∈ allVariables, AgreeOn name e f) : ofEnvironment e = ofEnvironment f := by
  have same : ∀ name ∈ allVariables, e.get? name = f.get? name :=
    fun name listed => get?_congr (agree name listed)
  simp only [allVariables, List.forall_mem_cons] at same
  obtain ⟨repository, user, password, localRepo, root, tool, format, -⟩ := same
  simp only [ofEnvironment, FetchSettings.ofEnvironment, home, repository, user, password, localRepo,
    root, tool, format]

theorem localRoot?_of_holds (set : e.Holds localVariable v) :
    (ofEnvironment e).fetch.localRoot? = LocalRepository.resolveRoot? e.home? (trim v) := by
  rw [ofEnvironment, FetchSettings.ofEnvironment, get?_eq_some_iff.2 set, Option.bind_some]

theorem localRoot?_of_unset (unset : e.Unset localVariable) :
    (ofEnvironment e).fetch.localRoot? = none := by
  rw [ofEnvironment, FetchSettings.ofEnvironment, get?_eq_none_iff.2 unset, Option.bind_none]

theorem repository_eq
    (told : e.Holds repositoryVariable base ∨
      e.Unset repositoryVariable ∧ base = defaultRepository) :
    (ofEnvironment e).fetch.repository = base := by
  rw [ofEnvironment, FetchSettings.ofEnvironment]
  rcases told with set | ⟨unset, rfl⟩
  · rw [get?_eq_some_iff.2 set, Option.getD_some]
  · rw [get?_eq_none_iff.2 unset, Option.getD_none]

/-- In one home, environments that agree on the listed variables give the same settings. With the home
known, a variable that names a directory makes it the source, trimmed, and the usual one for the word
that stands for it. Without such a variable, the source is on the web, at the address that is set or
at the usual one, and there is none if and only if that is no address. An option goes before all of
this. Where it needs no trimming, it names the same directory as the variable would. -/
theorem chosen_source [Url.HostNames] (e : Environment) :
    (∀ f : Environment, e.home? = f.home? → (∀ name ∈ allVariables, AgreeOn name e f) →
      ofEnvironment e = ofEnvironment f) ∧
    (∀ home v, e.home? = some home → e.Holds localVariable v →
      (ofEnvironment e).fetch.source = .ok (.inDirectory
        ⟨if trim v = "default" then Path.append (Path.append home ".m2") "repository"
          else trim v⟩)) ∧
    (∀ base, e.Unset localVariable →
      e.Holds repositoryVariable base ∨ e.Unset repositoryVariable ∧ base = defaultRepository →
        (∀ chosen, (ofEnvironment e).fetch.source = .ok chosen ↔
          ∃ url, Url.parse (RemoteRepository.withSlash base) = .ok url ∧
            chosen = .onWeb ⟨url, (ofEnvironment e).fetch.credentials?⟩) ∧
        ((∃ f, (ofEnvironment e).fetch.source = .error f) ↔
          ∃ f, Url.parse (RemoteRepository.withSlash base) = .error f)) ∧
    (∀ v, (Command.fetchSettings e (ofEnvironment e).fetch (some v)).toOption.map
        FetchSettings.source =
      (LocalRepository.resolveRoot? e.home? v).map fun root => .ok (.inDirectory ⟨root⟩)) ∧
    ∀ v, v ≠ "" → trim v = v → e.setting? localVariable = some v →
      (ofEnvironment e).fetch.localRoot? = LocalRepository.resolveRoot? e.home? v := by
  refine ⟨fun f home agree => ofEnvironment_congr home agree, fun home v known set => ?_,
    fun base unset told => ?_, FetchSettings.source_of_option e _,
    fun v filled trimmed set => ?_⟩
  · refine FetchSettings.source_of_localRoot ?_
    rw [localRoot?_of_holds set, known, LocalRepository.resolveRoot?_some]
  · have unknown := localRoot?_of_unset unset
    rw [← repository_eq told]
    exact ⟨fun _ => FetchSettings.source_eq_ok_iff unknown,
      FetchSettings.source_eq_error_iff unknown⟩
  · have holds : e.Holds localVariable v := ⟨set, exists_not_isBlank filled trimmed⟩
    rw [localRoot?_of_holds holds, trimmed]

/-- A user of white space only is none. The usual directory is known by its word with white space
around it, whatever stands for the address, and counts no more once its variable is blank. -/
theorem chosen_source_blanks :
    ofEnvironment (.ofPairs [(localVariable, " default\n"), (userVariable, "\t")]
        (some "/home/me")) =
      ofEnvironment (.ofPairs [(localVariable, " default\n"), ("PATH", "/bin")]
        (some "/home/me")) ∧
    (ofEnvironment (.ofPairs [(localVariable, " default\n"), (repositoryVariable, "not a url")]
      (some "/home/me"))).fetch.source = .ok (.inDirectory ⟨"/home/me/.m2/repository"⟩) ∧
    (∃ f, (ofEnvironment (.ofPairs [(localVariable, " "), (repositoryVariable, "not a url")]
      (some "/home/me"))).fetch.source = .error f) ∧
    (ofEnvironment (.ofPairs [(localVariable, "/srv/m2")] none)).fetch.localRoot? =
      some "/srv/m2" := by
  refine ⟨?_, ?_, ?_, ?_⟩
  · have spec := chosen_source
      (.ofPairs [(localVariable, " default\n"), (userVariable, "\t")] (some "/home/me"))
    refine spec.1 (.ofPairs [(localVariable, " default\n"), ("PATH", "/bin")] (some "/home/me"))
      rfl ?_
    simp only [allVariables, List.forall_mem_cons]
    exact ⟨.inl rfl, .inr ⟨get?_eq_none_iff.1 (by decide), get?_eq_none_iff.1 (by decide)⟩, .inl rfl,
      .inl rfl, .inl rfl, .inl rfl, .inl rfl, by simp⟩
  · have spec := chosen_source (.ofPairs
      [(localVariable, " default\n"), (repositoryVariable, "not a url")] (some "/home/me"))
    exact spec.2.1 "/home/me" " default\n" rfl (get?_eq_some_iff.1 (by decide))
  · have spec := chosen_source (.ofPairs
      [(localVariable, " "), (repositoryVariable, "not a url")] (some "/home/me"))
    exact (spec.2.2.1 "not a url" (get?_eq_none_iff.1 (by decide))
      (.inl (get?_eq_some_iff.1 (by decide)))).2.2 ⟨.noBase, rfl⟩
  · have spec := chosen_source (.ofPairs [(localVariable, "/srv/m2")] none)
    exact spec.2.2.2.2 "/srv/m2" (by decide) (by decide) rfl

end Settings
end JarAtlas
