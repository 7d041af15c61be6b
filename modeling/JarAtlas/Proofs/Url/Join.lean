import JarAtlas.Proofs.Url.Folder

/-! Joining a reference to a folder. A reference that stays below the folder leads to an address that
starts with the folder's own, and one of plain characters is written behind it as it stands. -/
namespace JarAtlas
namespace Url

open Text

variable {base u : Url} {reference s : String} {cs rest : List Char} {scheme : String}

theorem dropWhile_append_slash {p : Char → Bool} (kept : p '/' = false) (cs : List Char) :
    (cs ++ ['/']).dropWhile p = cs.dropWhile p ++ ['/'] := by
  induction cs with
  | nil => simp [kept]
  | cons c cs ih =>
    rw [List.cons_append, List.dropWhile_cons, List.dropWhile_cons]
    split
    · exact ih
    · rfl

theorem tidy_append_slash (ended : s.toList = cs ++ ['/']) :
    ∃ front, tidy s = front ++ ['/'] ∧ front ⊆ cs := by
  refine ⟨(cs.dropWhile isOuter).filter fun c => !isIgnored c, ?_, ?_⟩
  · have outer : isOuter '/' = false := by decide
    have kept : ['/'].filter (fun c => !isIgnored c) = ['/'] := by decide
    rw [tidy, ended, dropWhile_append_slash outer, List.reverse_append, List.reverse_singleton,
      List.singleton_append, List.dropWhile_cons_of_neg (by simp [outer]), List.reverse_cons,
      List.reverse_reverse, List.filter_append, kept]
  · exact fun c hc => List.dropWhile_subset isOuter (List.mem_of_mem_filter hc)

theorem mem_of_mem_tidy {c : Char} (h : c ∈ tidy s) : c ∈ s.toList := by
  have inner := List.mem_reverse.1 (List.mem_of_mem_filter h)
  exact List.dropWhile_subset isOuter (List.mem_reverse.1 (List.dropWhile_subset isOuter inner))

theorem tidy_eq_self (plain : ∀ c ∈ s.toList, isOuter c = false) : tidy s = s.toList := by
  have front (cs : List Char) (plain : ∀ c ∈ cs, isOuter c = false) : cs.dropWhile isOuter = cs := by
    cases cs with
    | nil => rfl
    | cons c cs => exact List.dropWhile_cons_of_neg (by simp [plain c List.mem_cons_self])
  have seen (c : Char) (hc : c ∈ s.toList) : isIgnored c = false := by
    have inner := plain c hc
    by_contra ignored
    simp only [isIgnored, Bool.not_eq_false, Bool.or_eq_true, beq_iff_eq] at ignored
    rcases ignored with (rfl | rfl) | rfl <;> exact absurd inner (by decide)
  rw [tidy, front _ plain, front _ fun c hc => plain c (List.mem_reverse.1 hc), List.reverse_reverse,
    List.filter_eq_self.2 fun c hc => by simp [seen c hc]]

theorem scheme?_eq_none (noColon : ':' ∉ cs) : scheme? cs = none := by
  unfold scheme?
  split
  · rfl
  · split
    · rfl
    · split
      · next behind =>
        refine absurd (List.dropWhile_subset isSchemeChar ?_) noColon
        rw [behind]
        exact List.mem_cons_self
      · rfl

theorem suffix_of_scheme? (h : scheme? cs = some (scheme, rest)) : rest <:+ cs := by
  unfold scheme? at h
  split at h
  · cases h
  · split at h
    · cases h
    · split at h
      · next behind =>
        obtain ⟨-, rfl⟩ := Prod.mk.inj (Option.some.inj h)
        refine (List.suffix_cons ':' _).trans ?_
        rw [← behind]
        exact List.dropWhile_suffix _
      · cases h

theorem scheme_of_parseFile [HostNames] (h : parseFile none cs = .ok u) : u.scheme = fileScheme := by
  have kept (v : Url) (file : v.scheme = fileScheme) : (dropHostOfDrive v).scheme = fileScheme := by
    unfold dropHostOfDrive
    split
    · split <;> exact file
    · exact file
  unfold parseFile at h
  split at h
  · split at h
    · obtain ⟨⟨a, rest⟩, -, h⟩ := bind_eq_ok_iff.1 h
      obtain rfl := Except.ok.inj h
      exact kept _ rfl
    · split at h <;> exact Except.ok.inj h ▸ rfl
  · obtain rfl := Except.ok.inj h
    split <;> rfl
  · exact Except.ok.inj h ▸ rfl

theorem scheme_of_parsePlain [HostNames] (h : parsePlain scheme cs = .ok u) : u.scheme = scheme := by
  unfold parsePlain at h
  split at h
  · exact scheme_of_afterSlashes h
  · exact Except.ok.inj h ▸ rfl
  · exact Except.ok.inj h ▸ rfl

/-- An address on the web that is written with a slash at its end is a folder. -/
theorem isFolder_of_parse [HostNames] (slash : s.toList.getLast? = some '/') (noQuery : '?' ∉ s.toList)
    (noFragment : '#' ∉ s.toList) (h : parse s = .ok u)
    (web : u.scheme = "http" ∨ u.scheme = "https") : IsFolder u := by
  obtain ⟨front, ended⟩ := List.getLast?_eq_some_iff.1 slash
  obtain ⟨path, tidied, -⟩ := tidy_append_slash ended
  have ends : EndsFolder (tidy s) := by
    refine ⟨fun c last => ?_, fun c hc => ?_⟩
    · rw [tidied, List.getLast?_concat] at last
      exact (Option.some.inj last).symm
    · have inside := mem_of_mem_tidy hc
      have query : c ≠ '?' := fun same => noQuery (same ▸ inside)
      have fragment : c ≠ '#' := fun same => noFragment (same ▸ inside)
      simp [endsPath, query, fragment]
  unfold parse parseFrom at h
  dsimp only at h
  split at h
  · next scheme rest named =>
    have ended := ends.of_suffix (suffix_of_scheme? named)
    unfold parseAbsolute at h
    dsimp only [Option.filter_none] at h
    split at h
    · next file =>
      rw [scheme_of_parseFile h] at web
      exact absurd web (by decide)
    · split at h
      · obtain rfl := scheme_of_afterSlashes h
        exact isFolder_of_afterSlashes web (ended.of_suffix (List.dropWhile_suffix _)) h
      · next plain =>
        obtain rfl := scheme_of_parsePlain h
        exact absurd (special_of_web web).1 plain
  · cases h

theorem toString_segments_append (names more : List String) :
    (Route.segments (names ++ more)).toString =
      (Route.segments names).toString ++ (Route.segments more).toString := by
  simp [Route.toString]

theorem toString_segments_cons (name : String) (more : List String) :
    (Route.segments (name :: more)).toString =
      "/" ++ (name ++ (Route.segments more).toString) := by
  simp [Route.toString, ← String.toList_inj, String.toList_join]

theorem toString_pieces (m : List Char) (more : List (List Char)) :
    String.ofList m ++ (Route.segments (more.map .ofList)).toString =
      .ofList (joinChars ['/'] (m :: more)) := by
  induction more generalizing m with
  | nil => rw [← String.toList_inj]; simp [Route.toString, joinChars]
  | cons n more ih =>
    rw [List.map_cons, toString_segments_cons, ih n, ← String.toList_inj]
    simp [joinChars]

/-- The reference goes on below the folder to which it is joined: it does not start with a slash,
and its segments never go above where it began. -/
def staysBelow (reference : String) : Bool :=
  (tidy reference).head?.all (fun c => !isSlash true c) &&
    Path.descends isUp isStay 0
      (cutAtSlashes true ((tidy reference).takeWhile fun c => !endsPath c))

/-- Characters that are written in a path as they stand, and part it only if they are slashes. -/
def isVerbatim (c : Char) : Bool := !isOuter c && !inPath c && !([':', '\\', '%'].contains c)

namespace IsFolder

/-- Segments that go on from those of the folder are written behind it, for its last one is
empty, and so are a query and a fragment. -/
theorem toString_below {names : List String} (folder : IsFolder base)
    (segments : base.route = .segments (names ++ [""])) (m : String) (more : List String)
    (query? fragment? : Option String) :
    ({ base with route := .segments (names ++ m :: more), query?, fragment? } : Url).toString =
      base.toString ++ (m ++ (Route.segments more).toString ++ optional "?" query? ++
        optional "#" fragment?) := by
  obtain ⟨scheme, authority?, route, own?, place?⟩ := base
  obtain ⟨-, ⟨a, rfl⟩, -, rfl, rfl⟩ := folder
  obtain rfl := segments
  have last : (Route.segments [""]).toString = "/" := by decide
  have none (mark : String) : optional mark none = "" := rfl
  simp only [Url.toString, place, toString_segments_append, toString_segments_cons, last, none,
    String.append_empty, String.append_assoc]

variable [HostNames]

theorem join_eq (folder : IsFolder base) (noColon : ':' ∉ reference.toList) :
    base.join reference = parseRelative base (tidy reference) := by
  obtain ⟨names, segments⟩ := folder.segments
  have notFile : base.scheme ≠ fileScheme := by simpa using (special_of_web folder.web).2
  have none : scheme? (tidy reference) = none :=
    scheme?_eq_none fun colon => noColon (mem_of_mem_tidy colon)
  simp only [join, parseFrom, none, segments, if_neg notFile]

theorem parseRelative_eq {names : List String} (folder : IsFolder base)
    (segments : base.route = .segments (names ++ [""])) {c : Char} (noSlash : isSlash true c = false)
    (inside : endsPath c = false) (cs : List Char) :
    parseRelative base (c :: cs) = .ok
      { base with
        route := .segments (walkSegments false names
          (cutAtSlashes true ((c :: cs).takeWhile fun c => !endsPath c)))
        query? := (tail true ((c :: cs).dropWhile fun c => !endsPath c)).1
        fragment? := (tail true ((c :: cs).dropWhile fun c => !endsPath c)).2 } := by
  obtain ⟨special, notFile⟩ := special_of_web folder.web
  have done : base.names.dropLast = names := by
    rw [Url.names, segments]
    exact List.dropLast_concat
  unfold parseRelative
  split
  · next empty => cases empty
  · next query =>
    obtain rfl := (List.cons.inj query).1
    cases inside
  · next fragment =>
    obtain rfl := (List.cons.inj fragment).1
    cases inside
  · next path =>
    obtain ⟨rfl, rfl⟩ := List.cons.inj path
    rw [if_neg (by simp [noSlash]), done, Front.withPath, Front.special, Front.file, ofFront, special,
      notFile, segmentsAfter]
    rfl

/-- What is joined to a folder and stays below it starts with the folder. -/
theorem join_below (folder : IsFolder base) (noColon : ':' ∉ reference.toList)
    (below : staysBelow reference = true) :
    ∃ url rest, base.join reference = .ok url ∧ url.toString = base.toString ++ rest := by
  obtain ⟨names, segments⟩ := folder.segments
  obtain ⟨noSlash, descends⟩ := Bool.and_eq_true_iff.1 below
  have behind (query? fragment? : Option String) :
      ∃ rest, ({ base with query?, fragment? } : Url).toString = base.toString ++ rest := by
    rw [segments]
    exact ⟨_, folder.toString_below segments "" [] query? fragment?⟩
  rw [folder.join_eq noColon]
  generalize tidy reference = cs at noSlash descends
  cases cs with
  | nil =>
    obtain ⟨rest, text⟩ := behind base.query? none
    exact ⟨_, rest, rfl, text⟩
  | cons c cs =>
    by_cases inside : endsPath c = true
    · rcases (by simpa [endsPath] using inside : c = '?' ∨ c = '#') with rfl | rfl
      · obtain ⟨rest, text⟩ := behind (tail (isSpecial base.scheme) ('?' :: cs)).1
          (tail (isSpecial base.scheme) ('?' :: cs)).2
        exact ⟨_, rest, rfl, text⟩
      · obtain ⟨rest, text⟩ := behind base.query? (tail true ('#' :: cs)).2
        exact ⟨_, rest, rfl, text⟩
    · obtain ⟨m, more, walked⟩ :=
        walkSegments_descends names [] descends (cutAtSlashes_ne_nil _ _)
      rw [List.append_nil] at walked
      rw [folder.parseRelative_eq segments (by simpa using noSlash) (by simpa using inside), walked]
      exact ⟨_, _, rfl, folder.toString_below segments m more _ _⟩

/-- Plain segments that are joined to a folder are written behind it as they stand. -/
theorem join_verbatim (folder : IsFolder base) (plain : ∀ c ∈ reference.toList, isVerbatim c = true)
    (filled : reference ≠ "") (relative : reference.toList.head? ≠ some '/')
    (moves : ∀ p ∈ pieces '/' reference.toList, p ≠ ['.'] ∧ p ≠ ['.', '.']) :
    ∃ url, base.join reference = .ok url ∧ url.toString = base.toString ++ reference := by
  obtain ⟨names, segments⟩ := folder.segments
  have kept (c : Char) (hc : c ∈ reference.toList) : isOuter c = false ∧ inPath c = false ∧
      endsPath c = false ∧ c ≠ ':' ∧ c ≠ '\\' ∧ c ≠ '%' := by
    have verbatim := plain c hc
    simp only [isVerbatim, Bool.and_eq_true, Bool.not_eq_true', List.contains_cons] at verbatim
    obtain ⟨⟨outer, path⟩, others⟩ := verbatim
    refine ⟨outer, path, ?_, by simpa using others⟩
    simp only [inPath, Bool.or_eq_false_iff] at path
    simp_all [endsPath]
  have noColon : ':' ∉ reference.toList := fun colon => (kept _ colon).2.2.2.1 rfl
  rw [folder.join_eq noColon, tidy_eq_self fun c hc => (kept c hc).1]
  have whole : String.ofList reference.toList = reference := String.ofList_toList
  generalize reference.toList = cs at kept relative moves whole
  cases cs with
  | nil => exact absurd whole.symm filled
  | cons c cs =>
    obtain ⟨-, -, inside, -, noBackslash, -⟩ := kept c List.mem_cons_self
    have noSlash : isSlash true c = false := by
      simp [isSlash, noBackslash, by simpa using relative]
    have all : (c :: cs).takeWhile (fun c => !endsPath c) = c :: cs :=
      List.takeWhile_eq_self_iff.2 fun d hd => by simp [(kept d hd).2.2.1]
    have ended : (c :: cs).dropWhile (fun c => !endsPath c) = [] :=
      List.dropWhile_eq_nil_iff.2 fun d hd => by simp [(kept d hd).2.2.1]
    have cut : cutAtSlashes true (c :: cs) = pieces '/' (c :: cs) :=
      cutAtSlashes_eq_pieces fun h => (kept _ h).2.2.2.2.1 rfl
    have walked : walkSegments false names (pieces '/' (c :: cs)) =
        names ++ (pieces '/' (c :: cs)).map .ofList := by
      rw [walkSegments_eq_append fun p hp => moves_of_plain
        (fun h => (kept _ (mem_of_mem_pieces hp h)).2.2.2.2.2 rfl) (moves p hp).1 (moves p hp).2]
      congr 1
      refine List.map_congr_left fun p hp => ?_
      rw [percentEncode_eq_self fun d hd => (kept d (mem_of_mem_pieces hp hd)).2.1]
    rw [folder.parseRelative_eq segments noSlash inside, all, ended, cut, walked]
    refine ⟨_, rfl, ?_⟩
    have joined := joinChars_pieces '/' (c :: cs)
    cases e : pieces '/' (c :: cs) with
    | nil => exact absurd e (pieces_ne_nil '/' (c :: cs))
    | cons m more =>
      rw [e] at joined
      rw [List.map_cons, ← whole, ← joined, ← toString_pieces]
      have text := folder.toString_below segments (.ofList m) (more.map .ofList) none none
      simpa [optional, tail] using text

end IsFolder

end Url
end JarAtlas
