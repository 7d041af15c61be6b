import JarAtlas.Proofs.FileTree.Below
import JarAtlas.Proofs.Repository.Coordinate
import JarAtlas.Proofs.Url.Join
import JarAtlas.Repository.Source

/-! Where a repository looks an artifact up: below its directory or its address, unless the pieces
of the coordinate lead away from there. A coordinate with the shape of package names is found at
its place and nowhere else. -/
namespace JarAtlas

open Text

variable {c : Coordinate} {text base : String} {credentials? : Option Credentials}
  {r : RemoteRepository}

namespace Coordinate

theorem isVerbatim_of_isNameChar {x : Char} (h : isNameChar x = true) :
    Url.isVerbatim x = true := by
  have bounds : 0x20 < x.toNat ∧ x.toNat ≤ 0x7E := by
    simp only [isNameChar, isWordChar, Bool.or_eq_true, beq_iff_eq] at h
    rcases h with (((word | rfl) | rfl) | rfl) | rfl
    · change (decide (65 ≤ x.toNat ∧ x.toNat ≤ 90) ||
        (decide (97 ≤ x.toNat) && decide (x.toNat ≤ 122)) ||
        (decide (48 ≤ x.toNat) && decide (x.toNat ≤ 57))) = true at word
      simp only [Bool.or_eq_true, Bool.and_eq_true, decide_eq_true_eq] at word
      omega
    all_goals decide
  have odd : x ∉ [' ', '"', '<', '>', '\x60', '#', '?', '\x7b', '\x7d', ':', '\\', '%'] := by
    intro hx
    simp only [List.mem_cons, List.not_mem_nil, or_false] at hx
    rcases hx with rfl | rfl | rfl | rfl | rfl | rfl | rfl | rfl | rfl | rfl | rfl | rfl <;>
      exact absurd h (by decide)
  simp only [List.mem_cons, List.not_mem_nil, or_false, not_or] at odd
  simp [Url.isVerbatim, Url.isOuter, Url.inPath, Url.inFragment, Url.isControl, bounds.1, bounds.2,
    bounds.1.le, odd]

theorem MavenShaped.isVerbatim (shaped : MavenShaped c) :
    ∀ x ∈ c.repositoryPath.toList, Url.isVerbatim x = true := by
  have name {part : String} (plain : IsPlain part) (x : Char) (hx : x ∈ part.toList) :
      Url.isVerbatim x = true := isVerbatim_of_isNameChar (plain.chars x hx)
  have slash : Url.isVerbatim '/' = true := by decide
  have group (x : Char) (hx : x ∈ replace '.' ['/'] c.group.toList) : Url.isVerbatim x = true := by
    obtain ⟨y, hy, hx⟩ := List.mem_flatMap.1 hx
    split at hx
    · rwa [List.mem_singleton.1 hx]
    · next noDot =>
      rw [List.mem_singleton.1 hx]
      have word := (shaped.group_chars hy).resolve_right noDot
      exact isVerbatim_of_isNameChar (by simp [isNameChar, word])
  have file (x : Char) (hx : x ∈ c.fileName.toList) : Url.isVerbatim x = true := by
    have ends : ∀ y ∈ ".jar".toList, Url.isVerbatim y = true := List.all_eq_true.1 (by decide)
    simp only [fileName, stem, String.toList_append, List.mem_append] at hx
    rcases hx with ((artifact | hyphen) | version) | jar
    · exact name shaped.artifact x artifact
    · obtain rfl : x = '-' := by simpa using hyphen
      decide
    · exact name shaped.version x version
    · exact ends x jar
  intro x hx
  simp only [toList_repositoryPath, List.mem_append, List.mem_cons] at hx
  rcases hx with hx | rfl | hx | rfl | hx | rfl | hx
  · exact group x hx
  · exact slash
  · exact name shaped.artifact x hx
  · exact slash
  · exact name shaped.version x hx
  · exact slash
  · exact file x hx

end Coordinate

namespace RemoteRepository

variable [Url.HostNames]

theorem ofBase_append_slash (noSlash : base.toList.getLast? ≠ some '/')
    (credentials? : Option Credentials) :
    ofBase (base ++ "/") credentials? = ofBase base credentials? := by
  have same : withSlash (base ++ "/") = withSlash base := by
    simp [withSlash, noSlash]
  rw [ofBase, ofBase, same]

theorem isFolder_of_ofBase (noQuery : '?' ∉ base.toList) (noFragment : '#' ∉ base.toList)
    (h : ofBase base credentials? = .ok r) (web : r.base.scheme = "http" ∨ r.base.scheme = "https") :
    Url.IsFolder r.base := by
  have slash : (withSlash base).toList.getLast? = some '/' := by
    unfold withSlash
    split
    · next ended => exact ended
    · simp
  have plain (x : Char) (other : x ≠ '/') (hx : x ∉ base.toList) : x ∉ (withSlash base).toList := by
    unfold withSlash
    split
    · exact hx
    · simp [hx, other]
  unfold ofBase at h
  split at h
  · cases h
  · next url parsed =>
    obtain rfl := Except.ok.inj h
    exact Url.isFolder_of_parse slash (plain _ (by decide) noQuery) (plain _ (by decide) noFragment)
      parsed web

theorem artifactUrl_eq_ok_iff {url : Url} :
    r.artifactUrl c = .ok url ↔ r.base.join c.repositoryPath = .ok url := by
  unfold artifactUrl
  cases r.base.join c.repositoryPath <;> simp [Except.mapError]

end RemoteRepository

/-- Without slashes in its parts, a coordinate leads above a directory only by a step up that is an
artifact or a version of its own. -/
theorem Coordinate.Slashless.staysBelow (plain : Slashless c) (artifact : c.artifact ≠ "..")
    (version : c.version ≠ "..") : Path.staysBelow c.repositoryPath = true := by
  refine Path.descends_of_no_up (fun s hs => ?_) 0
  rw [Path.parts, split, pieces_repositoryPath plain] at hs
  simp only [List.map_append, List.mem_append, List.map_cons, List.map_nil, String.ofList_toList,
    List.mem_cons, List.not_mem_nil, or_false] at hs
  rw [beq_eq_false_iff_ne]
  rintro rfl
  rcases hs with word | same | same | same
  · obtain ⟨cs, piece, up⟩ := List.mem_map.1 word
    have dots : cs = ['.', '.'] := by rw [← String.toList_ofList (l := cs), up]; rfl
    exact not_mem_of_mem_pieces piece (by simp [dots])
  · exact artifact same.symm
  · exact version same.symm
  · have hyphen := c.hyphen_mem_fileName
    rw [← same] at hyphen
    exact absurd hyphen (by decide)

namespace Repository

def webRepository : RemoteRepository :=
  ⟨⟨"https", some ⟨"", "", "h", none⟩, .segments ["m", ""], none, none⟩, none⟩

theorem ofBase_webRepository : RemoteRepository.ofBase "https://h/m" none = .ok webRepository := by
  rfl

/-- An artifact is looked up at its place in the repository. In a directory that is below the
directory, unless the group starts with a dot or a slash or one of the steps leads above it. None
does if no part has a slash in it and neither the artifact nor the version is a step up. On the web
it is below the address of the repository, if that has no query and no fragment and the place stays
below as a reference. -/
theorem looked_up_below [Url.HostNames] (parsed : Coordinate.parse text = .ok c) :
    (∀ root, LocalRepository.artifactPath ⟨root⟩ c =
      if c.group.toList.head? = some '.' ∨ c.group.toList.head? = some '/' then c.repositoryPath
      else if root = "" ∨ root.toList.getLast? = some '/' then root ++ c.repositoryPath
      else root ++ "/" ++ c.repositoryPath) ∧
    (∀ root t here place, c.group.toList.head? ≠ some '.' → c.group.toList.head? ≠ some '/' →
      Path.staysBelow c.repositoryPath = true →
      FileTree.resolve t here (LocalRepository.artifactPath ⟨root⟩ c) = .ok place →
      ∃ above, FileTree.Leads t here root above ∧ above <+: place) ∧
    (Coordinate.Slashless c → c.artifact ≠ ".." → c.version ≠ ".." →
      Path.staysBelow c.repositoryPath = true) ∧
    ∀ base credentials? r, '?' ∉ base.toList → '#' ∉ base.toList →
      RemoteRepository.ofBase base credentials? = .ok r →
      r.base.scheme = "http" ∨ r.base.scheme = "https" →
      Url.staysBelow c.repositoryPath = true →
      ∃ url rest, r.artifactUrl c = .ok url ∧
        url.toString = (Source.onWeb r).describe ++ rest := by
  have start := Coordinate.rooted_repositoryPath_iff (Coordinate.parse_eq_ok parsed).1
  refine ⟨fun root => ?_, fun root t here place noDot noSlash below resolved => ?_,
    Coordinate.Slashless.staysBelow,
    fun base credentials? r noQuery noFragment accepted web below => ?_⟩
  · simp only [LocalRepository.artifactPath, Path.append, start]
  · have relative : Path.rooted c.repositoryPath = false := by
      by_contra root
      exact (start.1 (by simpa using root)).elim noDot noSlash
    exact FileTree.resolve_append_below relative below resolved
  · have folder := RemoteRepository.isFolder_of_ofBase noQuery noFragment accepted web
    obtain ⟨url, rest, joined, text⟩ :=
      folder.join_below (Coordinate.colon_not_mem_repositoryPath parsed) below
    exact ⟨url, rest, RemoteRepository.artifactUrl_eq_ok_iff.2 joined, text⟩

def stepUpBelow : FileTree :=
  ⟨[(["m"], .directory), (["m", "g"], .directory), (["m", "g", "h"], .directory),
    (["m", "g", "a"], .directory), (["m", "g", "a", "1"], .directory),
    (["m", "g", "a", "a-1.jar"], .file [0] false)]⟩

theorem looked_up_below_after_step_up :
    (∃ above, FileTree.Leads stepUpBelow [] "m" above ∧ above <+: ["m", "g", "a", "a-1.jar"]) ∧
    ∃ url rest, webRepository.artifactUrl ⟨"g.h", "../a", "1"⟩ = .ok url ∧
      url.toString = "https://h/m/" ++ rest := by
  have parsed : Coordinate.parse "g.h:../a:1" = .ok ⟨"g.h", "../a", "1"⟩ := by rfl
  obtain ⟨-, inDirectory, -, onWeb⟩ := looked_up_below parsed
  exact ⟨inDirectory "m" stepUpBelow [] _ (by decide) (by decide) (by decide) rfl,
    onWeb "https://h/m" none _ (by decide) (by decide) ofBase_webRepository (by decide)
      (by decide)⟩

/-- A group that starts with a dot is looked up at the root, and a repository with a query loses the
last segment of its path, for the slash that should keep it is added behind the query. -/
theorem looked_up_elsewhere :
    (Coordinate.parse ".x:a:1" = .ok ⟨".x", "a", "1"⟩ ∧
      LocalRepository.artifactPath ⟨"m"⟩ ⟨".x", "a", "1"⟩ = "/x/a/1/a-1.jar" ∧
      (Source.onWeb webRepository).describe = "https://h/m/" ∧
      (webRepository.artifactUrl ⟨".x", "a", "1"⟩).map Url.toString =
        .ok "https://h/x/a/1/a-1.jar") ∧
    Coordinate.parse "g:a:1" = .ok ⟨"g", "a", "1"⟩ ∧
    ∃ r, RemoteRepository.ofBase "https://h/m?q" none = .ok r ∧
      (Source.onWeb r).describe = "https://h/m?q/" ∧
      (r.artifactUrl ⟨"g", "a", "1"⟩).map Url.toString = .ok "https://h/g/a/1/a-1.jar" :=
  ⟨⟨rfl, by decide, by decide, rfl⟩, rfl, _, rfl, by decide, rfl⟩

theorem artifactUrl_of_mavenShaped [Url.HostNames] (shaped : Coordinate.MavenShaped c)
    (folder : Url.IsFolder r.base) : ∃ url, r.artifactUrl c = .ok url ∧
      url.toString = (Source.onWeb r).describe ++ c.repositoryPath := by
  have relative := shaped.relative
  have filled : c.repositoryPath ≠ "" := by
    intro empty
    have length := congrArg (fun s => s.toList.length) empty
    simp [Coordinate.toList_repositoryPath] at length
  obtain ⟨url, joined, text⟩ := folder.join_verbatim shaped.isVerbatim filled
    (by simpa [Path.rooted] using relative) shaped.moves
  exact ⟨url, RemoteRepository.artifactUrl_eq_ok_iff.2 joined, text⟩

/-- A coordinate with the shape of package names is looked up right at its place behind the
repository, with or without a slash at the end of that. Places tell coordinates apart. -/
theorem located_exactly [Url.HostNames] :
    (∀ c, Coordinate.MavenShaped c →
      (∀ base credentials? r, '?' ∉ base.toList → '#' ∉ base.toList →
        RemoteRepository.ofBase base credentials? = .ok r →
        r.base.scheme = "http" ∨ r.base.scheme = "https" →
        ∃ url, r.artifactUrl c = .ok url ∧
          url.toString = (Source.onWeb r).describe ++ c.repositoryPath) ∧
      (∀ r : RemoteRepository, Url.IsFolder r.base →
        ∃ url, r.artifactUrl c = .ok url ∧
          url.toString = (Source.onWeb r).describe ++ c.repositoryPath) ∧
      ∀ root, root ≠ "" → LocalRepository.artifactPath ⟨root⟩ c =
        if root.toList.getLast? = some '/' then root ++ c.repositoryPath
        else root ++ "/" ++ c.repositoryPath) ∧
    (∀ base credentials?, base.toList.getLast? ≠ some '/' →
      RemoteRepository.ofBase (base ++ "/") credentials? =
        RemoteRepository.ofBase base credentials?) ∧
    ∀ c d, Coordinate.Slashless c → Coordinate.Slashless d →
      c.repositoryPath = d.repositoryPath → c = d := by
  refine ⟨fun c shaped =>
      ⟨fun base credentials? r noQuery noFragment accepted web => ?_,
        fun r folder => artifactUrl_of_mavenShaped shaped folder, fun root filled => ?_⟩,
    fun base credentials? noSlash => RemoteRepository.ofBase_append_slash noSlash credentials?,
    fun c d => Coordinate.eq_of_repositoryPath_eq⟩
  · have folder := RemoteRepository.isFolder_of_ofBase noQuery noFragment accepted web
    exact artifactUrl_of_mavenShaped shaped folder
  · simp only [LocalRepository.artifactPath, Path.append_eq_of_relative shaped.relative, filled,
      false_or]

theorem located_exactly_dotted_group :
    (∃ url, webRepository.artifactUrl ⟨"org.x", "a-b", "1.0"⟩ = .ok url ∧
      url.toString = "https://h/m/org/x/a-b/1.0/a-b-1.0.jar") ∧
    LocalRepository.artifactPath ⟨"m"⟩ ⟨"org.x", "a-b", "1.0"⟩ =
      "m/org/x/a-b/1.0/a-b-1.0.jar" := by
  have artifact : Coordinate.IsPlain "a-b" :=
    ⟨by decide, List.all_eq_true.1 (by decide), by decide, by decide⟩
  have version : Coordinate.IsPlain "1.0" :=
    ⟨by decide, List.all_eq_true.1 (by decide), by decide, by decide⟩
  have group : ∀ word ∈ pieces '.' "org.x".toList,
      word ≠ [] ∧ ∀ x ∈ word, Coordinate.isWordChar x = true := by
    have cut : pieces '.' "org.x".toList = [['o', 'r', 'g'], ['x']] := by decide
    rw [cut, List.forall_mem_cons, List.forall_mem_singleton]
    exact ⟨⟨by decide, List.all_eq_true.1 (by decide)⟩, by decide, List.all_eq_true.1 (by decide)⟩
  obtain ⟨onWeb, -, inDirectory⟩ := located_exactly.1 ⟨"org.x", "a-b", "1.0"⟩
    ⟨group, artifact, version⟩
  exact ⟨onWeb "https://h/m" none _ (by decide) (by decide) ofBase_webRepository (by decide),
    inDirectory "m" (by decide)⟩

end Repository
end JarAtlas
