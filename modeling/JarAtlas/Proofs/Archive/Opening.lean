import JarAtlas.Archive.Open
import JarAtlas.Modules.Synthesis
import JarAtlas.World
import Mathlib.Data.List.Induction

/-! Opening an archive is all or nothing. It succeeds if and only if every member opens and the data
of every manifest can be read; else its error is that of the first member that stops it. Nothing is
taken for granted about how members are found in the content of a file. -/
namespace JarAtlas
namespace Archive

/-- The member opens, and if it is a manifest, its data can be read. -/
structure Readable (m : Zip.Member) : Prop where
  opens : m.refusal = none
  reads : EntryKind.ofPath m.name = .manifest → ∃ content, m.data = .ok content

/-- The member does not open, or it is a manifest whose data is broken. -/
inductive Stops (m : Zip.Member) : MemberError → Prop where
  | refused {e : Zip.Error} : m.refusal = some e → Stops m (.refused e)
  | broken {e : Zip.DataError} : m.refusal = none → EntryKind.ofPath m.name = .manifest →
      m.data = .error e → Stops m (.broken e)

/-- The first member that is not readable, in the order of the archive, stops the reading. -/
def FirstStop (members : List Zip.Member) (e : MemberError) : Prop :=
  ∃ before m after, members = before ++ m :: after ∧ (∀ b ∈ before, Readable b) ∧ Stops m e

/-- The manifest among members is what the data of the last manifest says. -/
inductive LastManifest : List Zip.Member → Option Manifest → Prop where
  | missing {members : List Zip.Member} :
      (∀ m ∈ members, EntryKind.ofPath m.name ≠ .manifest) → LastManifest members none
  | last {before after : List Zip.Member} {m : Zip.Member} {content : Bytes} :
      EntryKind.ofPath m.name = .manifest → m.data = .ok content →
      (∀ x ∈ after, EntryKind.ofPath x.name ≠ .manifest) →
      LastManifest (before ++ m :: after) (some (Manifest.parse (Utf8.decodeLossy content)))

/-- The archive has all members and nothing else. -/
structure Gathers (name : String) (members : List Zip.Member) (a : Archive) : Prop where
  name : a.name = name
  paths : a.paths = members.map Zip.Member.name
  manifest : LastManifest members a.manifest

variable {name : String} {members : List Zip.Member} {m : Zip.Member} {e : MemberError}

theorem readable_of_other (opens : m.refusal = none)
    (other : EntryKind.ofPath m.name ≠ .manifest) : Readable m :=
  ⟨opens, fun manifest => absurd manifest other⟩

theorem readable_or_stops (m : Zip.Member) : Readable m ∨ ∃ e, Stops m e := by
  cases refusal : m.refusal with
  | some e => exact .inr ⟨_, .refused refusal⟩
  | none =>
    by_cases kind : EntryKind.ofPath m.name = .manifest
    · cases data : m.data with
      | ok content => exact .inl ⟨refusal, fun _ => ⟨content, data⟩⟩
      | error e => exact .inr ⟨_, .broken refusal kind data⟩
    · exact .inl (readable_of_other refusal kind)

theorem readable_or_firstStop (members : List Zip.Member) :
    (∀ m ∈ members, Readable m) ∨ ∃ e, FirstStop members e := by
  induction members with
  | nil => exact .inl (by simp)
  | cons m members ih =>
    rcases readable_or_stops m with readable | ⟨e, stops⟩
    · rcases ih with all | ⟨e, before, x, after, rfl, front, stops⟩
      · exact .inl (List.forall_mem_cons.2 ⟨readable, all⟩)
      · refine .inr ⟨e, m :: before, x, after, rfl, ?_, stops⟩
        exact List.forall_mem_cons.2 ⟨readable, front⟩
    · exact .inr ⟨e, [], m, members, rfl, by simp, stops⟩

theorem LastManifest.concat_other {found : Option Manifest} (h : LastManifest members found)
    (other : EntryKind.ofPath m.name ≠ .manifest) : LastManifest (members ++ [m]) found := by
  cases h with
  | missing none => exact .missing (List.forall_mem_append.2 ⟨none, by simpa using other⟩)
  | last kind data later =>
    rw [List.append_assoc, List.cons_append]
    exact .last kind data (List.forall_mem_append.2 ⟨later, by simpa using other⟩)

theorem LastManifest.eq_none_iff {found : Option Manifest} (h : LastManifest members found) :
    found = none ↔ ∀ m ∈ members, EntryKind.ofPath m.name ≠ .manifest := by
  cases h with
  | missing none => exact ⟨fun _ => none, fun _ => rfl⟩
  | last kind data later =>
    constructor
    · intro h
      cases h
    · intro absent
      exact absurd kind (absent _ (by simp))

theorem addMember_of_stops (stops : Stops m e) (a : Archive) : addMember a m = .error e := by
  unfold addMember
  cases stops with
  | refused refusal => simp only [refusal]
  | broken opens kind data => simp only [opens, kind, data, if_true]

theorem Gathers.addMember {a : Archive} (gathers : Gathers name members a)
    (readable : Readable m) :
    ∃ b, Archive.addMember a m = .ok b ∧ Gathers name (members ++ [m]) b := by
  have paths : a.paths ++ [m.name] = (members ++ [m]).map Zip.Member.name := by
    simp [gathers.paths]
  unfold Archive.addMember
  simp only [readable.opens]
  by_cases kind : EntryKind.ofPath m.name = .manifest
  · obtain ⟨content, data⟩ := readable.reads kind
    simp only [kind, data, if_true]
    exact ⟨_, rfl, gathers.name, paths, .last kind data (by simp)⟩
  · simp only [kind, if_false]
    exact ⟨_, rfl, gathers.name, paths, gathers.manifest.concat_other kind⟩

theorem ofMembers_concat (name : String) (members : List Zip.Member) (m : Zip.Member) :
    ofMembers name (members ++ [m]) = (ofMembers name members).bind fun a => addMember a m := by
  rw [ofMembers, List.foldlM_append]
  change (ofMembers name members).bind (fun a => [m].foldlM Archive.addMember a) = _
  congr 1
  funext a
  rw [List.foldlM_cons]
  cases addMember a m <;> rfl

theorem ofMembers_of_readable (name : String) (all : ∀ m ∈ members, Readable m) :
    ∃ a, ofMembers name members = .ok a ∧ Gathers name members a := by
  induction members using List.reverseRecOn with
  | nil => exact ⟨_, rfl, rfl, rfl, .missing (by simp)⟩
  | append_singleton members m ih =>
    obtain ⟨front, last⟩ := List.forall_mem_append.1 all
    obtain ⟨a, made, gathers⟩ := ih front
    obtain ⟨b, joined, whole⟩ := gathers.addMember (last m (List.mem_singleton_self m))
    refine ⟨b, ?_, whole⟩
    rw [ofMembers_concat, made]
    exact joined

/-- What follows the first member that stops the reading does not count. -/
theorem ofMembers_of_firstStop (stop : FirstStop members e) :
    ofMembers name members = .error e := by
  obtain ⟨before, m, after, rfl, front, stops⟩ := stop
  obtain ⟨a, made, -⟩ := ofMembers_of_readable name front
  have upTo : before.foldlM addMember ⟨name, [], none⟩ = .ok a := made
  rw [ofMembers, List.foldlM_append, upTo]
  change (m :: after).foldlM addMember a = _
  rw [List.foldlM_cons, addMember_of_stops stops]
  rfl

theorem ofMembers_eq_ok_iff :
    (∃ a, ofMembers name members = .ok a) ↔ ∀ m ∈ members, Readable m := by
  constructor
  · rintro ⟨a, made⟩
    rcases readable_or_firstStop members with all | ⟨e, stop⟩
    · exact all
    · rw [ofMembers_of_firstStop stop] at made
      cases made
  · intro all
    obtain ⟨a, made, -⟩ := ofMembers_of_readable name all
    exact ⟨a, made⟩

theorem ofMembers_eq_error_iff : ofMembers name members = .error e ↔ FirstStop members e := by
  constructor
  · intro failed
    rcases readable_or_firstStop members with all | ⟨other, stop⟩
    · obtain ⟨a, made, -⟩ := ofMembers_of_readable name all
      rw [made] at failed
      cases failed
    · rw [ofMembers_of_firstStop stop] at failed
      cases failed
      exact stop
  · exact ofMembers_of_firstStop

theorem gathers_of_ofMembers {a : Archive} (made : ofMembers name members = .ok a) :
    Gathers name members a := by
  obtain ⟨b, again, gathers⟩ := ofMembers_of_readable name
    (ofMembers_eq_ok_iff.1 ⟨a, made⟩)
  rw [made] at again
  cases again
  exact gathers

/-- The member with other data, unless it is a manifest. -/
def withOtherData (data : Zip.Member → Except Zip.DataError Bytes) (m : Zip.Member) : Zip.Member :=
  if EntryKind.ofPath m.name = .manifest then m else { m with data := data m }

theorem addMember_withOtherData (data : Zip.Member → Except Zip.DataError Bytes) (a : Archive)
    (m : Zip.Member) : addMember a (withOtherData data m) = addMember a m := by
  unfold withOtherData
  by_cases kind : EntryKind.ofPath m.name = .manifest
  · rw [if_pos kind]
  · rw [if_neg kind]
    unfold addMember
    simp only [kind, if_false]

theorem ofMembers_withOtherData (data : Zip.Member → Except Zip.DataError Bytes) (name : String)
    (members : List Zip.Member) :
    ofMembers name (members.map (withOtherData data)) = ofMembers name members := by
  simp only [ofMembers, List.foldlM_map, addMember_withOtherData]

/-- The members that a way of finding them gives for a file. -/
def membersIn (zip : Bytes → Except Zip.Error (List Zip.Member)) :
    Except Fault Bytes → Except OpenError (List Zip.Member)
  | .error f => .error (refusal f)
  | .ok content => (zip content).mapError .archive

/-- The archive of a file, for a way of finding members. -/
def openedBy (zip : Bytes → Except Zip.Error (List Zip.Member)) (path : String)
    (read : Except Fault Bytes) : Except OpenError Archive :=
  match membersIn zip read with
  | .error err => .error err
  | .ok members => (ofMembers (nameOf path) members).mapError OpenError.ofMember

variable {zip : Bytes → Except Zip.Error (List Zip.Member)} {path : String}
  {read : Except Fault Bytes}

theorem openedBy_members (path : String) (content : Bytes) :
    openedBy Zip.members path (.ok content) = ofBytes path content := by
  simp only [openedBy, membersIn, ofBytes]
  cases Zip.members content <;> rfl

section Runs

variable [Web]

theorem forM_debug (f : String → String) (lines : List String) (w : World) :
    ∃ events, (lines.forM fun line => Machine.debug (f line) : StateM World PUnit) w =
      ((), { w with events }) := by
  induction lines generalizing w with
  | nil => exact ⟨w.events, rfl⟩
  | cons line lines ih => exact ih { w with events := ⟨.debug, f line⟩ :: w.events }

theorem load_eq (path : String) (w : World) :
    ∃ events, (load path : StateM World (Except OpenError Archive)) w =
      (openedBy Zip.members path (w.files.readFile w.here path), { w with events }) := by
  have bind {α β : Type} (x : StateM World α) (rest : α → StateM World β) (w : World) :
      (x >>= rest) w = rest (x w).1 (x w).2 := rfl
  have found : (Machine.readFile path : StateM World (Except Fault Bytes)) w =
      (w.files.readFile w.here path, w) := rfl
  rw [load, bind, found]
  cases w.files.readFile w.here path with
  | error f => exact ⟨w.events, rfl⟩
  | ok content =>
    obtain ⟨events, noted⟩ :=
      forM_debug (fun line => "Skipping malformed manifest line: " ++ line) (skippedIn content) w
    dsimp only
    rw [bind, noted, openedBy_members]
    cases ofBytes path content with
    | error err => exact ⟨events, rfl⟩
    | ok a => exact ⟨_, rfl⟩

end Runs

theorem openedBy_eq_ok_iff {a : Archive} : openedBy zip path read = .ok a ↔
    ∃ members, membersIn zip read = .ok members ∧ ofMembers (nameOf path) members = .ok a := by
  unfold openedBy
  cases membersIn zip read with
  | error err => simp
  | ok members => cases made : ofMembers (nameOf path) members <;> simp [Except.mapError, made]

theorem openedBy_eq_error_iff {err : OpenError} : openedBy zip path read = .error err ↔
    membersIn zip read = .error err ∨ ∃ members e, membersIn zip read = .ok members ∧
      ofMembers (nameOf path) members = .error e ∧ err = .ofMember e := by
  unfold openedBy
  cases membersIn zip read with
  | error err => simp
  | ok members =>
    cases made : ofMembers (nameOf path) members <;> simp [Except.mapError, made, eq_comm]

theorem openedBy_withOtherData (data : Zip.Member → Except Zip.DataError Bytes) :
    openedBy (fun content => (zip content).map (List.map (withOtherData data))) path read =
      openedBy zip path read := by
  cases read with
  | error f => rfl
  | ok content =>
    simp only [openedBy, membersIn]
    cases zip content with
    | error e => rfl
    | ok members => exact congrArg (Except.mapError _) (ofMembers_withOtherData data _ members)

/-- Two archives have the same classes in the same modules. -/
structure SameModules (a b : Archive) : Prop where
  classes : ∀ root, Classification.ofArchive root a = Classification.ofArchive root b
  modules : ∀ root, ModuleGraph.ofArchive root a = ModuleGraph.ofArchive root b
  count : a.classCount = b.classCount

theorem sameModules_of_paths {a b : Archive} (same : a.paths = b.paths) : SameModules a b := by
  have classes (root : String) : Classification.ofArchive root a =
      Classification.ofArchive root b := congrArg (Classification.ofPaths root) same
  refine ⟨classes, fun root => ?_, ?_⟩
  · rw [ModuleGraph.ofArchive, classes, ModuleGraph.ofArchive]
  · rw [classCount, same, classCount]

theorem Gathers.entries {a : Archive} (gathers : Gathers name members a) :
    a.entries = members.map fun m => (m.name, EntryKind.ofPath m.name) := by
  rw [Archive.entries, gathers.paths, List.map_map]
  rfl

section Runs

variable [Web]

theorem load_of_readable {w : World} {path : String} {content : Bytes}
    (stored : w.files.readFile w.here path = .ok content)
    (found : Zip.members content = .ok members) (readable : ∀ m ∈ members, Readable m) :
    ∃ a events, (load path : StateM World (Except OpenError Archive)) w =
      (.ok a, { w with events }) ∧ Gathers (nameOf path) members a := by
  obtain ⟨events, loaded⟩ := load_eq path w
  obtain ⟨a, made, gathers⟩ := ofMembers_of_readable (nameOf path) readable
  refine ⟨a, events, ?_, gathers⟩
  rw [loaded, stored, openedBy_members, ofBytes, found]
  dsimp only
  rw [made]
  rfl

/-- Opening an archive is all or nothing, and the archive is the one that its paths make up. Files
are left as they are. It succeeds if and only if the file and its members can be found, each member
opens and the data of each manifest can be read; else the error is that of the first step to fail.
Data of other members does not count. -/
theorem load_all_or_nothing (path : String) (w : World)
    (zip : Bytes → Except Zip.Error (List Zip.Member)) (read : Except Fault Bytes) :
    (∃ events, (load path : StateM World (Except OpenError Archive)) w =
      (openedBy Zip.members path (w.files.readFile w.here path), { w with events })) ∧
    ((∃ a, openedBy zip path read = .ok a) ↔
      ∃ members, membersIn zip read = .ok members ∧ ∀ m ∈ members, Readable m) ∧
    (∀ err, openedBy zip path read = .error err ↔ membersIn zip read = .error err ∨
      ∃ members e, membersIn zip read = .ok members ∧ FirstStop members e ∧ err = .ofMember e) ∧
    (∀ data, openedBy (fun content => (zip content).map (List.map (withOtherData data))) path read =
      openedBy zip path read) ∧
    ∀ a, openedBy zip path read = .ok a → ∃ members, membersIn zip read = .ok members ∧
      a.name = nameOf path ∧
      a.entries = members.map (fun m => (m.name, EntryKind.ofPath m.name)) ∧
      LastManifest members a.manifest ∧
      (a.manifest = none ↔ ∀ m ∈ members, EntryKind.ofPath m.name ≠ .manifest) ∧
      ∀ name manifest,
        SameModules a { ofPaths name (members.map Zip.Member.name) with manifest } := by
  refine ⟨load_eq path w, ?_, fun err => ?_, fun data => ?_, fun a opened => ?_⟩
  · constructor
    · rintro ⟨a, opened⟩
      obtain ⟨members, found, made⟩ := openedBy_eq_ok_iff.1 opened
      exact ⟨members, found, ofMembers_eq_ok_iff.1 ⟨a, made⟩⟩
    · rintro ⟨members, found, all⟩
      obtain ⟨a, made, -⟩ := ofMembers_of_readable (nameOf path) all
      exact ⟨a, openedBy_eq_ok_iff.2 ⟨members, found, made⟩⟩
  · simp only [openedBy_eq_error_iff, ofMembers_eq_error_iff]
  · exact openedBy_withOtherData data
  · obtain ⟨members, found, made⟩ := openedBy_eq_ok_iff.1 opened
    have gathers := gathers_of_ofMembers made
    exact ⟨members, found, gathers.name, gathers.entries, gathers.manifest,
      gathers.manifest.eq_none_iff, fun name manifest => sameModules_of_paths gathers.paths⟩

end Runs

/-- A class of which nothing can be read stands before two manifests, the last of which is empty. -/
def readableMembers : List Zip.Member :=
  [⟨"A.class", none, .error .corrupt⟩, ⟨"META-INF/MANIFEST.MF", none, .ok [0]⟩,
    ⟨"meta-inf/manifest.mf", none, .ok []⟩]

/-- A manifest that is broken stands before a class that does not open. -/
def brokenMembers : List Zip.Member :=
  [⟨"A.class", none, .error .corrupt⟩, ⟨"META-INF/MANIFEST.MF", none, .error .wrongChecksum⟩,
    ⟨"B.class", some .encrypted, .ok []⟩]

theorem load_all_or_nothing_mixed :
    (∃ a, openedBy (fun _ => .ok readableMembers) "a.jar" (.ok []) = .ok a ∧ a.manifest ≠ none ∧
      a.entries = [("A.class", .classFile), ("META-INF/MANIFEST.MF", .manifest),
        ("meta-inf/manifest.mf", .manifest)]) ∧
    openedBy (fun _ => .ok brokenMembers) "a.jar" (.ok []) = .error (.data .wrongChecksum) := by
  constructor
  · have spec := load_all_or_nothing "a.jar" ⟨⟨[]⟩, [], .empty, [], [], []⟩
      (fun _ => .ok readableMembers) (.ok [])
    obtain ⟨a, opened⟩ := spec.2.1.2 ⟨readableMembers, rfl, by
      simp only [readableMembers, List.forall_mem_cons]
      have unread := readable_of_other (m := ⟨"A.class", none, .error .corrupt⟩) rfl (by decide)
      exact ⟨unread, ⟨rfl, fun _ => ⟨_, rfl⟩⟩, ⟨rfl, fun _ => ⟨_, rfl⟩⟩, by simp⟩⟩
    obtain ⟨members, found, -, entries, -, missing, -⟩ := spec.2.2.2.2 a opened
    obtain rfl : readableMembers = members := Except.ok.inj found
    refine ⟨a, opened, fun absent => ?_, entries⟩
    exact missing.1 absent ⟨"META-INF/MANIFEST.MF", none, .ok [0]⟩ (by simp [readableMembers]) rfl
  · have spec := load_all_or_nothing "a.jar" ⟨⟨[]⟩, [], .empty, [], [], []⟩
      (fun _ => .ok brokenMembers) (.ok [])
    refine (spec.2.2.1 _).2 (.inr
      ⟨brokenMembers, .broken .wrongChecksum, rfl, ⟨[_], _, _, rfl, ?_, ?_⟩, rfl⟩)
    · intro m first
      obtain rfl := List.mem_singleton.1 first
      exact readable_of_other rfl (by decide)
    · exact .broken rfl (by decide) rfl

end Archive
end JarAtlas
