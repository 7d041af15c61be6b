import JarAtlas.Proofs.Url.Segments
import JarAtlas.Url.Parse
import Mathlib.Data.List.TakeWhile

/-! Addresses on the web that end with a slash. They are folders: what is joined to one is found
below it. -/
namespace JarAtlas
namespace Url

open Text

variable {scheme : String} {cs rest : List Char} {u : Url}

/-- The text is empty or ends with a slash, and neither a query nor a fragment starts in it. -/
structure EndsFolder (cs : List Char) : Prop where
  slash : ∀ c, cs.getLast? = some c → c = '/'
  plain : ∀ c ∈ cs, endsPath c = false

namespace EndsFolder

theorem of_suffix (h : EndsFolder cs) (back : rest <:+ cs) : EndsFolder rest := by
  refine ⟨fun c last => h.slash c ?_, fun c hc => h.plain c (back.subset hc)⟩
  obtain ⟨front, rfl⟩ := back
  rw [List.getLast?_append, last]
  rfl

theorem getLast?_cutAtSlashes (h : EndsFolder cs) :
    (cutAtSlashes true cs).getLast? = some [] := by
  cases last : cs.getLast? with
  | none =>
    obtain rfl := List.getLast?_eq_none_iff.1 last
    rfl
  | some c =>
    obtain ⟨front, rfl⟩ := List.getLast?_eq_some_iff.1 last
    rw [h.slash c last, cutAtSlashes_append_slash, List.getLast?_concat]

theorem withPath_eq (h : EndsFolder cs) (f : Front) (special : f.special = true)
    (web : f.file = false) :
    ∃ names, f.withPath [] cs = ⟨f.scheme, f.authority?, .segments (names ++ [""]), none, none⟩ := by
  have all : cs.takeWhile (fun c => !endsPath c) = cs :=
    List.takeWhile_eq_self_iff.2 fun c hc => by simp [h.plain c hc]
  have none : cs.dropWhile (fun c => !endsPath c) = [] :=
    List.dropWhile_eq_nil_iff.2 fun c hc => by simp [h.plain c hc]
  obtain ⟨names, walked⟩ := List.getLast?_eq_some_iff.1
    (getLast?_walkSegments h.getLast?_cutAtSlashes [])
  refine ⟨names, ?_⟩
  rw [Front.withPath, all, none, special, web, segmentsAfter, walked]
  rfl

end EndsFolder

theorem bind_eq_ok_iff {α β : Type} {x : Except Error α} {f : α → Except Error β} {b : β} :
    (x >>= f) = .ok b ↔ ∃ a, x = .ok a ∧ f a = .ok b := by
  cases x <;> simp [bind, Except.bind]

theorem hostChars_append (inside : Bool) (cs : List Char) :
    (hostChars inside cs).1 ++ (hostChars inside cs).2 = cs := by
  induction cs generalizing inside with
  | nil => cases inside <;> rfl
  | cons c cs ih =>
    rw [hostChars]
    split
    · rfl
    · exact congrArg (c :: ·) (ih _)

theorem suffix_of_port {port? : Option Nat} (h : port scheme cs = .ok (port?, rest)) :
    rest <:+ cs := by
  unfold port at h
  dsimp only at h
  split at h
  · cases h
  · obtain ⟨-, rfl⟩ := Prod.mk.inj (Except.ok.inj h)
    exact List.dropWhile_suffix _

theorem suffix_of_hostAndPort [HostNames] {user password : String} {a : Authority}
    (h : hostAndPort scheme user password cs = .ok (a, rest)) : rest <:+ cs := by
  unfold hostAndPort at h
  dsimp only at h
  generalize isSpecial scheme = special at h
  have whole := List.takeWhile_append_dropWhile (p := fun c => !endsAuthority special c) (l := cs)
  generalize cs.takeWhile (fun c => !endsAuthority special c) = here at h whole
  generalize cs.dropWhile (fun c => !endsAuthority special c) = beyond at h whole
  have host := hostChars_append false here
  subst whole
  split at h
  · cases h
  · -- The host is read in one of two ways, and what follows it is read in the same way then.
    split at h
    all_goals
      obtain ⟨name, -, h⟩ := bind_eq_ok_iff.1 h
      split at h
      · next door colon =>
        obtain ⟨⟨port?, behind⟩, ported, h⟩ := bind_eq_ok_iff.1 h
        obtain ⟨-, rfl⟩ := Prod.mk.inj (Except.ok.inj h)
        refine (suffix_of_port ported).trans ?_
        rw [← host, colon]
        exact ⟨(hostChars false here).1 ++ [':'], by simp⟩
      · obtain ⟨-, rfl⟩ := Prod.mk.inj (Except.ok.inj h)
        exact List.suffix_append ..

theorem suffix_of_cutUserInfo {info : List Char} (h : cutUserInfo cs = some (info, rest)) :
    rest <:+ cs := by
  obtain ⟨⟨after, before⟩, cut, same⟩ := Option.map_eq_some_iff.1 h
  obtain ⟨-, rfl⟩ := Prod.mk.inj same
  obtain ⟨parted, -⟩ := eq_append_of_cut? cut
  rw [← List.reverse_prefix, List.reverse_reverse, parted]
  exact List.prefix_append ..

theorem suffix_of_authority [HostNames] {a : Authority} (h : authority scheme cs = .ok (a, rest)) :
    rest <:+ cs := by
  unfold authority at h
  dsimp only at h
  generalize isSpecial scheme = special at h
  have whole := List.takeWhile_append_dropWhile (p := fun c => !endsAuthority special c) (l := cs)
  generalize cs.takeWhile (fun c => !endsAuthority special c) = here at h whole
  generalize cs.dropWhile (fun c => !endsAuthority special c) = beyond at h whole
  have behind {info after : List Char} (cut : cutUserInfo here = some (info, after)) :
      after ++ beyond <:+ cs := by
    obtain ⟨front, rfl⟩ := suffix_of_cutUserInfo cut
    exact ⟨front, by rw [← whole, List.append_assoc]⟩
  split at h
  · exact suffix_of_hostAndPort h
  · next cut =>
    split at h
    · cases h
    · exact (suffix_of_hostAndPort h).trans (behind cut)
  · next cut => exact (suffix_of_hostAndPort h).trans (behind cut)

/-- An address on the web that ends with a slash, without query and fragment. -/
structure IsFolder (u : Url) : Prop where
  web : u.scheme = "http" ∨ u.scheme = "https"
  host : ∃ a, u.authority? = some a
  segments : ∃ names, u.route = .segments (names ++ [""])
  query : u.query? = none
  fragment : u.fragment? = none

theorem special_of_web (web : scheme = "http" ∨ scheme = "https") :
    isSpecial scheme = true ∧ (scheme == fileScheme) = false := by
  rcases web with rfl | rfl <;> decide

theorem isFolder_of_afterSlashes [HostNames] (web : scheme = "http" ∨ scheme = "https")
    (ends : EndsFolder cs) (h : afterSlashes scheme cs = .ok u) : IsFolder u := by
  obtain ⟨special, notFile⟩ := special_of_web web
  unfold afterSlashes at h
  obtain ⟨⟨a, rest⟩, who, h⟩ := bind_eq_ok_iff.1 h
  have ended := ends.of_suffix (suffix_of_authority who)
  have folder {path : List Char} (back : path <:+ rest) :
      IsFolder ((⟨scheme, some a⟩ : Front).withPath [] path) := by
    obtain ⟨names, all⟩ := (ended.of_suffix back).withPath_eq ⟨scheme, some a⟩ special notFile
    rw [all]
    exact ⟨web, ⟨a, rfl⟩, ⟨names, rfl⟩, rfl, rfl⟩
  have specialFront : (⟨scheme, some a⟩ : Front).special = true := special
  dsimp only at h
  split at h
  · rw [if_pos specialFront] at h
    obtain rfl := Except.ok.inj h
    exact folder (List.suffix_refl _)
  · next c path =>
    split at h
    · obtain rfl := Except.ok.inj h
      exact folder (List.suffix_cons ..)
    · rw [if_pos (.inl specialFront)] at h
      obtain rfl := Except.ok.inj h
      exact folder (List.suffix_refl _)

theorem scheme_of_afterSlashes [HostNames] (h : afterSlashes scheme cs = .ok u) :
    u.scheme = scheme := by
  unfold afterSlashes at h
  obtain ⟨⟨a, rest⟩, -, h⟩ := bind_eq_ok_iff.1 h
  dsimp only at h
  split at h
  · split at h <;> exact Except.ok.inj h ▸ rfl
  · split at h
    · exact Except.ok.inj h ▸ rfl
    · split at h <;> exact Except.ok.inj h ▸ rfl

end Url
end JarAtlas
