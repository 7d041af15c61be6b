/-! White space in the sense of the Unicode property White_Space, and trimming by it. -/
namespace JarAtlas
namespace Text

/-- The characters that have the property White_Space. -/
def isBlank (c : Char) : Bool :=
  let n := c.toNat
  (0x09 ≤ n && n ≤ 0x0D) || n == 0x20 || n == 0x85 || n == 0xA0 || n == 0x1680 ||
    (0x2000 ≤ n && n ≤ 0x200A) || n == 0x2028 || n == 0x2029 || n == 0x202F ||
    n == 0x205F || n == 0x3000

def trimChars (cs : List Char) : List Char :=
  ((cs.dropWhile isBlank).reverse.dropWhile isBlank).reverse

def trim (s : String) : String := .ofList (trimChars s.toList)

def blank (s : String) : Bool := s.toList.all isBlank

@[simp] theorem toList_trim (s : String) : (trim s).toList = trimChars s.toList := by
  simp [trim]

theorem mem_of_mem_trimChars {c : Char} {cs : List Char} (h : c ∈ trimChars cs) : c ∈ cs := by
  have inDropped := List.dropWhile_subset isBlank (List.mem_reverse.1 h)
  exact List.dropWhile_subset isBlank (List.mem_reverse.1 inDropped)

theorem trimChars_prefix (cs : List Char) : trimChars cs <+: cs.dropWhile isBlank := by
  rw [trimChars, ← List.reverse_suffix, List.reverse_reverse]
  exact List.dropWhile_suffix isBlank

theorem isBlank_of_head?_trimChars {c : Char} {cs : List Char}
    (h : (trimChars cs).head? = some c) : isBlank c = false := by
  obtain ⟨rest, e⟩ := trimChars_prefix cs
  have first : (cs.dropWhile isBlank).head? = some c := by rw [← e, List.head?_append, h]; rfl
  have kept := List.head?_dropWhile_not isBlank cs
  rwa [first] at kept

theorem isBlank_of_getLast?_trimChars {c : Char} {cs : List Char}
    (h : (trimChars cs).getLast? = some c) : isBlank c = false := by
  rw [trimChars, List.getLast?_reverse] at h
  have kept := List.head?_dropWhile_not isBlank (cs.dropWhile isBlank).reverse
  rwa [h] at kept

theorem dropWhile_isBlank {cs : List Char} (h : ∀ c, cs.head? = some c → isBlank c = false) :
    cs.dropWhile isBlank = cs := by
  cases cs with
  | nil => rfl
  | cons c cs => exact List.dropWhile_cons_of_neg (by simp [h c rfl])

theorem trimChars_eq_self {cs : List Char} (first : ∀ c, cs.head? = some c → isBlank c = false)
    (last : ∀ c, cs.getLast? = some c → isBlank c = false) : trimChars cs = cs := by
  rw [trimChars, dropWhile_isBlank first, dropWhile_isBlank (by simpa using last),
    List.reverse_reverse]

@[simp] theorem trimChars_trimChars (cs : List Char) : trimChars (trimChars cs) = trimChars cs :=
  trimChars_eq_self (fun _ => isBlank_of_head?_trimChars) fun _ => isBlank_of_getLast?_trimChars

theorem trimChars_append_left {lead : List Char} (h : ∀ c ∈ lead, isBlank c = true)
    (cs : List Char) : trimChars (lead ++ cs) = trimChars cs := by
  rw [trimChars, List.dropWhile_append_of_pos h, trimChars]

theorem trimChars_append_right {trail : List Char} (h : ∀ c ∈ trail, isBlank c = true)
    (cs : List Char) : trimChars (cs ++ trail) = trimChars cs := by
  have turned : ∀ c ∈ trail.reverse, isBlank c = true := fun c hc => h c (List.mem_reverse.1 hc)
  by_cases blank : (cs.dropWhile isBlank).isEmpty = true
  · have dropped : (trail ++ []).dropWhile isBlank = [] := List.dropWhile_append_of_pos h
    rw [List.append_nil] at dropped
    rw [trimChars, List.dropWhile_append, if_pos blank, dropped, trimChars,
      List.isEmpty_iff.1 blank]
  · rw [trimChars, List.dropWhile_append, if_neg blank, List.reverse_append,
      List.dropWhile_append_of_pos turned, trimChars]

end Text
end JarAtlas
