import JarAtlas.Proofs.Text.Pieces
import JarAtlas.Repository.Coordinate

/-! The text of a coordinate: which texts are read and as what, and which coordinates are read back
from the text that they are written as. -/
namespace JarAtlas
namespace Coordinate

open Text

variable {s group artifact version : String} {c : Coordinate} {e : Repository.Error}

theorem toList_written (group artifact version : String) :
    (written group artifact version).toList =
      group.toList ++ ':' :: (artifact.toList ++ ':' :: version.toList) := by
  simp [written]

/-- A text has no colons but those between its parts if and only if it has two. -/
theorem count_written_iff : (written group artifact version).toList.count ':' = 2 ↔
    ∀ part ∈ [group, artifact, version], ':' ∉ part.toList := by
  have count : (written group artifact version).toList.count ':' =
      group.toList.count ':' + artifact.toList.count ':' + version.toList.count ':' + 2 := by
    simp [toList_written]
    omega
  simp only [count, List.forall_mem_cons, List.not_mem_nil, false_imp_iff, forall_const, and_true,
    ← List.count_eq_zero]
  omega

theorem split_written (clean : ∀ part ∈ [group, artifact, version], ':' ∉ part.toList) :
    split ':' (written group artifact version) = [group, artifact, version] := by
  obtain ⟨inGroup, inArtifact, inVersion⟩ :
      ':' ∉ group.toList ∧ ':' ∉ artifact.toList ∧ ':' ∉ version.toList := by simpa using clean
  rw [split, toList_written, pieces_append_cons, pieces_of_not_mem inGroup, pieces_append_cons,
    pieces_of_not_mem inArtifact, pieces_of_not_mem inVersion]
  simp

theorem exists_written (two : s.toList.count ':' = 2) :
    ∃ group artifact version, s = written group artifact version := by
  have three : (pieces ':' s.toList).length = 3 := by rw [length_pieces, two]
  obtain ⟨g, a, v, cut⟩ := List.length_eq_three.1 three
  refine ⟨.ofList g, .ofList a, .ofList v, ?_⟩
  rw [← String.toList_inj, ← joinChars_pieces ':' s.toList, cut]
  simp [toList_written, joinChars]

theorem parse_of_clean (clean : ∀ part ∈ [group, artifact, version], ':' ∉ part.toList) :
    parse (written group artifact version) = ofParts group artifact version := by
  rw [parse, split_written clean]

theorem parse_of_count_ne (other : s.toList.count ':' ≠ 2) :
    parse s = .error (.badCoordinate s) := by
  unfold parse
  split
  · next parted =>
    have length := congrArg List.length parted
    rw [split, List.length_map, length_pieces] at length
    exact absurd (Nat.succ.inj length) other
  · rfl

/-- A text is read as three parts without colons, or it is refused for the count of its colons. -/
theorem parse_cases (s : String) :
    (∃ group artifact version, s = written group artifact version ∧
      (∀ part ∈ [group, artifact, version], ':' ∉ part.toList) ∧
      parse s = ofParts group artifact version) ∨
    s.toList.count ':' ≠ 2 ∧ parse s = .error (.badCoordinate s) := by
  by_cases two : s.toList.count ':' = 2
  · obtain ⟨group, artifact, version, rfl⟩ := exists_written two
    have clean := count_written_iff.1 two
    exact .inl ⟨group, artifact, version, rfl, clean, parse_of_clean clean⟩
  · exact .inr ⟨two, parse_of_count_ne two⟩

theorem ofParts_eq_ok_iff : ofParts group artifact version = .ok c ↔
    (∀ part ∈ [group, artifact, version], trim part ≠ "") ∧
      c = ⟨trim group, trim artifact, trim version⟩ := by
  unfold ofParts
  split
  · next blank =>
    simp only [reduceCtorEq, false_iff, not_and]
    intro filled
    simp only [List.forall_mem_cons] at filled
    rcases blank with group | artifact | version
    · exact absurd group filled.1
    · exact absurd artifact filled.2.1
    · exact absurd version filled.2.2.1
  · next filled =>
    have all : ∀ part ∈ [group, artifact, version], trim part ≠ "" := by simpa using filled
    exact ⟨fun made => ⟨all, (Except.ok.inj made).symm⟩, fun ⟨_, made⟩ => made ▸ rfl⟩

theorem ofParts_eq_error (h : ofParts group artifact version = .error e) :
    e = .badCoordinate (written group artifact version) := by
  unfold ofParts at h
  split at h
  · exact (Except.error.inj h).symm
  · cases h

theorem parse_eq_ok_iff : parse s = .ok c ↔ ∃ group artifact version,
    s = written group artifact version ∧ s.toList.count ':' = 2 ∧
      (∀ part ∈ [group, artifact, version], trim part ≠ "") ∧
      c = ⟨trim group, trim artifact, trim version⟩ := by
  constructor
  · intro read
    rcases parse_cases s with ⟨group, artifact, version, rfl, clean, parted⟩ | ⟨-, refused⟩
    · rw [parted, ofParts_eq_ok_iff] at read
      exact ⟨group, artifact, version, rfl, count_written_iff.2 clean, read⟩
    · rw [refused] at read
      cases read
  · rintro ⟨group, artifact, version, rfl, two, accepted⟩
    rw [parse_of_clean (count_written_iff.1 two), ofParts_eq_ok_iff]
    exact accepted

theorem parse_eq_error (h : parse s = .error e) : e = .badCoordinate s := by
  rcases parse_cases s with ⟨group, artifact, version, rfl, -, parted⟩ | ⟨-, refused⟩
  · rw [parted] at h
    exact ofParts_eq_error h
  · rw [refused] at h
    exact (Except.error.inj h).symm

@[simp] theorem trim_trim (s : String) : trim (trim s) = trim s := by
  simp [trim]

theorem parse_toString_of_ofParts (accepted : ofParts group artifact version = .ok c) :
    parse c.toString =
      if ∀ part ∈ [group, artifact, version], ':' ∉ (trim part).toList then .ok c
      else .error (.badCoordinate c.toString) := by
  obtain ⟨filled, rfl⟩ := ofParts_eq_ok_iff.1 accepted
  have inParts : (∀ part ∈ [trim group, trim artifact, trim version], ':' ∉ part.toList) ↔
      ∀ part ∈ [group, artifact, version], ':' ∉ (trim part).toList := by simp
  split
  · next clean =>
    rw [toString, parse_of_clean (inParts.2 clean), ofParts_eq_ok_iff]
    simpa using filled
  · next colon =>
    refine parse_of_count_ne fun two => colon (inParts.1 ?_)
    exact count_written_iff.1 two

theorem parse_eq_ok (h : parse s = .ok c) :
    c.group ≠ "" ∧ ':' ∉ c.group.toList ∧ ':' ∉ c.artifact.toList ∧ ':' ∉ c.version.toList := by
  obtain ⟨group, artifact, version, rfl, two, filled, rfl⟩ := parse_eq_ok_iff.1 h
  have clean : ∀ part ∈ [group, artifact, version], ':' ∉ (trim part).toList := by
    intro part hp colon
    rw [toList_trim] at colon
    exact count_written_iff.1 two part hp (mem_of_mem_trimChars colon)
  exact ⟨filled group (by simp), clean group (by simp), clean artifact (by simp),
    clean version (by simp)⟩

theorem parse_toString (h : parse s = .ok c) : parse c.toString = .ok c := by
  obtain ⟨-, clean⟩ := parse_eq_ok h
  obtain ⟨group, artifact, version, -, -, accepted⟩ := parse_eq_ok_iff.1 h
  have parts := accepted.2
  rw [parse_toString_of_ofParts (ofParts_eq_ok_iff.2 accepted), if_pos]
  simpa [parts] using clean

/-- A text is a coordinate if and only if it has exactly two colons and is not blank before, between
or behind them. It is read as these three parts, trimmed, and the text of the coordinate is read as
the coordinate. All other texts are refused, and named as they stand. Parts that come as they are
may have colons in them: then, and only then, the text of the coordinate is refused. -/
theorem parse_exactly :
    (∀ s c, parse s = .ok c ↔ ∃ group artifact version, s = written group artifact version ∧
      s.toList.count ':' = 2 ∧ (∀ part ∈ [group, artifact, version], trim part ≠ "") ∧
      c = ⟨trim group, trim artifact, trim version⟩) ∧
    (∀ s c, parse s = .ok c → parse c.toString = .ok c) ∧
    (∀ s e, parse s = .error e → e = .badCoordinate s) ∧
    ∀ group artifact version c, ofParts group artifact version = .ok c →
      (parse c.toString = .ok c ↔ ∀ part ∈ [group, artifact, version], ':' ∉ (trim part).toList) ∧
      ((∃ part ∈ [group, artifact, version], ':' ∈ (trim part).toList) →
        parse c.toString = .error (.badCoordinate c.toString)) := by
  refine ⟨fun s c => parse_eq_ok_iff, fun s c => parse_toString, fun s e => parse_eq_error,
    fun group artifact version c accepted => ?_⟩
  rw [parse_toString_of_ofParts accepted]
  constructor
  · split <;> simp_all
  · rintro ⟨part, hp, colon⟩
    exact if_neg fun clean => clean part hp colon

/-- White space around the parts does not count, and a blank part is refused. A group with a colon
in it is accepted as it comes, but not read. -/
theorem parse_exactly_trimmed :
    (parse " g :a\n: 1" = .ok ⟨"g", "a", "1"⟩ ∧ parse "g:a:1" = .ok ⟨"g", "a", "1"⟩) ∧
    (∃ e, parse "g: :1" = .error e ∧ e = .badCoordinate "g: :1") ∧
    ofParts "g:h" "a" "1" = .ok ⟨"g:h", "a", "1"⟩ ∧
      parse "g:h:a:1" = .error (.badCoordinate "g:h:a:1") := by
  obtain ⟨exactly, again, refused, apart⟩ := parse_exactly
  have read : parse " g :a\n: 1" = .ok ⟨"g", "a", "1"⟩ :=
    (exactly _ _).2 ⟨" g ", "a\n", " 1", rfl, by decide, by decide, by decide⟩
  have blank : parse "g: :1" = .error (.badCoordinate "g: :1") := by rfl
  have accepted : ofParts "g:h" "a" "1" = .ok ⟨"g:h", "a", "1"⟩ := by rfl
  exact ⟨⟨read, again _ _ read⟩, ⟨_, blank, refused _ _ blank⟩, accepted,
    (apart _ _ _ _ accepted).2 ⟨"g:h", by decide, by decide⟩⟩

end Coordinate
end JarAtlas
