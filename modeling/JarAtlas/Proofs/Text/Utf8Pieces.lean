import JarAtlas.Proofs.Text.Utf8

/-! Octets that are cut into pieces, each of which is read by itself. An ASCII octet between two
pieces parts them, whatever they are. Pieces of a text give that text again if and only if no
character is cut in two, for of each such character at least two faults are left. -/
namespace JarAtlas
namespace Utf8

/-- Only octets within a character are owed, and never one that would end a small number. -/
def Place.Sound : Place → Prop
  | .between => True
  | .within value _ low high => 0x80 ≤ low ∧ high < 0xC0 ∧ (0 < value ∨ 0x90 ≤ low)

instance : DecidablePred Place.Sound := fun place => match place with
  | .between => .isTrue trivial
  | .within value _ low high =>
    inferInstanceAs (Decidable (0x80 ≤ low ∧ high < 0xC0 ∧ (0 < value ∨ 0x90 ≤ low)))

/-- The octet does not start a character. -/
def further (b : UInt8) : Bool := 0x80 ≤ b && b < 0xC0

/-- How many octets of these may start a character. -/
def starts (bs : Bytes) : Nat := bs.countP fun b => !further b

/-- A character that has begun leaves a character or a fault behind. -/
def Place.pending : Place → Nat
  | .between => 0
  | .within .. => 1

variable {place : Place} {b : UInt8} {bs : Bytes}

theorem of_all_octets {P : UInt8 → Prop} (h : ∀ n < 256, P (.ofNat n)) (b : UInt8) : P b := by
  have at_b := h b.toNat b.toNat_lt
  rwa [UInt8.ofNat_toNat] at at_b

theorem sound_between : Place.between.Sound := trivial

theorem sound_start : ∀ b, (start b).2.Sound := of_all_octets (by decide +kernel)

theorem eq_feed_of_mem_start : ∀ b, some '\n' ∈ (start b).1 → b = 0x0A :=
  of_all_octets (by decide +kernel)

theorem pending_start : ∀ b,
    (if further b then 0 else 1) ≤ (start b).1.length + (start b).2.pending :=
  of_all_octets (by decide +kernel)

theorem start_of_further : ∀ b, further b = true → start b = ([none], .between) :=
  of_all_octets (by decide +kernel)

theorem readFrom_cons (place : Place) (b : UInt8) (bs : Bytes) :
    readFrom place (b :: bs) = (step place b).1 ++ readFrom (step place b).2 bs := by
  cases place <;> rfl

theorem Place.Sound.step (sound : place.Sound) (b : UInt8) : (step place b).2.Sound := by
  cases place with
  | between => exact sound_start b
  | within value owed low high =>
    obtain ⟨above, -, large⟩ := sound
    simp only [Utf8.step]
    split
    · next inside =>
      split
      · trivial
      · refine ⟨by decide, by decide, .inl ?_⟩
        have reaches := UInt8.le_iff_toNat_le.1 inside.1
        rcases large with large | large
        · omega
        · have bound := UInt8.le_iff_toNat_le.1 large
          have least : (0x90 : UInt8).toNat = 0x90 := rfl
          omega
    · exact sound_start b

/-- An ASCII octet ends what has begun, and is read as if it came first. -/
theorem readFrom_append_ascii (sound : place.Sound) (ascii : b < 0x80) (bs cs : Bytes) :
    readFrom place (bs ++ b :: cs) = readFrom place bs ++ read (b :: cs) := by
  induction bs generalizing place with
  | nil =>
    cases place with
    | between => rfl
    | within value owed low high =>
      have outside : ¬ (low ≤ b ∧ b ≤ high) := fun inside =>
        absurd (UInt8.lt_of_lt_of_le ascii (UInt8.le_trans sound.1 inside.1)) (UInt8.lt_irrefl b)
      rw [List.nil_append, readFrom_cons, step, if_neg outside]
      rfl
  | cons c bs ih =>
    rw [List.cons_append, readFrom_cons, ih (sound.step c), readFrom_cons, List.append_assoc]

theorem decodeLossy_append_ascii (ascii : b < 0x80) (bs cs : Bytes) :
    decodeLossy (bs ++ b :: cs) = decodeLossy bs ++ decodeLossy (b :: cs) := by
  have parted : read (bs ++ b :: cs) = read bs ++ read (b :: cs) :=
    readFrom_append_ascii sound_between ascii bs cs
  rw [decodeLossy, parted, List.map_append, String.ofList_append, decodeLossy, decodeLossy]

theorem decodeLossy_append_encode {s : String} {more : Bytes} (front : encode s = b :: more)
    (ascii : b < 0x80) (bs cs : Bytes) :
    decodeLossy (bs ++ (encode s ++ cs)) = decodeLossy bs ++ (s ++ decodeLossy cs) := by
  rw [← decodeLossy_encode_append, front, List.cons_append, decodeLossy_append_ascii ascii]

theorem ofNat_ne_feed {n : Nat} (large : 0x10 ≤ n) : Char.ofNat n ≠ '\n' := by
  intro feed
  by_cases valid : n.isValidChar
  · rw [Char.ofNat, dif_pos valid] at feed
    have number : n = 10 := congrArg Char.toNat feed
    omega
  · rw [Char.ofNat, dif_neg valid] at feed
    exact absurd feed (by decide)

theorem eq_feed_of_mem_step (sound : place.Sound) (h : some '\n' ∈ (step place b).1) :
    b = 0x0A := by
  cases place with
  | between => exact eq_feed_of_mem_start b h
  | within value owed low high =>
    obtain ⟨above, -, large⟩ := sound
    simp only [step] at h
    split at h
    · next inside =>
      split at h
      · have feed : '\n' = Char.ofNat (value * 64 + (b.toNat - 0x80)) := by simpa using h
        refine absurd feed.symm (ofNat_ne_feed ?_)
        have reaches := UInt8.le_iff_toNat_le.1 inside.1
        rcases large with large | large
        · omega
        · have bound := UInt8.le_iff_toNat_le.1 large
          have least : (0x90 : UInt8).toNat = 0x90 := rfl
          omega
      · simp at h
    · rcases List.mem_cons.1 h with fault | h
      · cases fault
      · exact eq_feed_of_mem_start b h

theorem not_mem_decodeLossy (clean : 0x0A ∉ bs) : '\n' ∉ (decodeLossy bs).toList := by
  have run {place : Place} (sound : place.Sound) (h : some '\n' ∈ readFrom place bs) :
      (0x0A : UInt8) ∈ bs := by
    clear clean
    induction bs generalizing place with
    | nil => cases place <;> simp [readFrom] at h
    | cons b bs ih =>
      rw [readFrom_cons] at h
      rcases List.mem_append.1 h with first | rest
      · rw [eq_feed_of_mem_step sound first]
        exact List.mem_cons_self
      · exact List.mem_cons_of_mem _ (ih (sound.step b) rest)
  intro h
  rw [decodeLossy, String.toList_ofList] at h
  obtain ⟨c, mem, feed⟩ := List.mem_map.1 h
  cases c with
  | none => exact absurd feed (by decide)
  | some c =>
    obtain rfl : c = '\n' := feed
    exact clean (run sound_between mem)

theorem pending_step (sound : place.Sound) (b : UInt8) :
    place.pending + (if further b then 0 else 1) ≤
      (step place b).1.length + (step place b).2.pending := by
  have first := pending_start b
  cases place with
  | between => simpa [step, Place.pending] using first
  | within value owed low high =>
    obtain ⟨above, below, -⟩ := sound
    by_cases inside : low ≤ b ∧ b ≤ high
    · have within : further b = true := by
        simp only [further, Bool.and_eq_true, decide_eq_true_eq]
        exact ⟨UInt8.le_trans above inside.1, UInt8.lt_of_le_of_lt inside.2 below⟩
      rw [step, if_pos inside, if_pos within]
      by_cases last : owed ≤ 1 <;> simp [last, Place.pending]
    · rw [step, if_neg inside]
      change 1 + _ ≤ (start b).1.length + 1 + (start b).2.pending
      omega

/-- Each octet that may start a character leaves a character or a fault of its own. -/
theorem starts_le_length (bs : Bytes) : starts bs ≤ (read bs).length := by
  have run {place : Place} (sound : place.Sound) (bs : Bytes) :
      place.pending + starts bs ≤ (readFrom place bs).length := by
    induction bs generalizing place with
    | nil => cases place <;> simp [readFrom, starts, Place.pending]
    | cons b bs ih =>
      have one := pending_step sound b
      have rest := ih (sound.step b)
      have count : starts (b :: bs) = starts bs + if further b then 0 else 1 := by
        cases h : further b <;> simp [starts, h]
      rw [readFrom_cons, List.length_append, count]
      omega
  have whole := run sound_between bs
  rwa [Place.pending, Nat.zero_add] at whole

theorem starts_lt_length (h : further b = true) (bs : Bytes) :
    starts (b :: bs) < (read (b :: bs)).length := by
  have rest := starts_le_length bs
  have fault : read (b :: bs) = none :: read bs := by
    rw [read, readFrom_cons, step, start_of_further b h]
    rfl
  have count : starts (b :: bs) = starts bs := by simp [starts, h]
  rw [fault, count, List.length_cons]
  omega

theorem encodeChar_eq_cons (c : Char) : ∃ b bs, String.utf8EncodeChar c = b :: bs ∧
    further b = false ∧ ∀ x ∈ bs, further x = true := by
  have six : ∀ n < 64, further (.ofNat (n + 0x80)) = true := by decide +kernel
  have inner (n : Nat) : further (.ofNat (n % 64 + 0x80)) = true :=
    six _ (Nat.mod_lt n (by decide))
  have one : ∀ n < 0x80, further (.ofNat n) = false := by decide +kernel
  have two : ∀ n < 0x20, further (.ofNat (n + 0xC0)) = false := by decide +kernel
  have three : ∀ n < 0x10, further (.ofNat (n + 0xE0)) = false := by decide +kernel
  have four : ∀ n < 8, further (.ofNat (n + 0xF0)) = false := by decide +kernel
  unfold String.utf8EncodeChar
  dsimp only
  generalize c.val.toNat = v
  split
  · next small => exact ⟨_, _, rfl, one v (by omega), by simp⟩
  split
  · exact ⟨_, _, rfl, two _ (Nat.mod_lt _ (by decide)), List.forall_mem_singleton.2 (inner _)⟩
  split
  · exact ⟨_, _, rfl, three _ (Nat.mod_lt _ (by decide)),
      List.forall_mem_cons.2 ⟨inner _, List.forall_mem_singleton.2 (inner _)⟩⟩
  · exact ⟨_, _, rfl, four _ (Nat.mod_lt _ (by decide)), List.forall_mem_cons.2
      ⟨inner _, List.forall_mem_cons.2 ⟨inner _, List.forall_mem_singleton.2 (inner _)⟩⟩⟩

theorem starts_append (bs cs : Bytes) : starts (bs ++ cs) = starts bs + starts cs :=
  List.countP_append

theorem starts_encode (s : String) : starts (encode s) = s.length := by
  have chars (cs : List Char) : starts (cs.flatMap String.utf8EncodeChar) = cs.length := by
    induction cs with
    | nil => rfl
    | cons c cs ih =>
      obtain ⟨b, bs, octets, first, rest⟩ := encodeChar_eq_cons c
      have one : starts (String.utf8EncodeChar c) = 1 := by
        rw [octets, starts, List.countP_cons, List.countP_eq_zero.2 (by simpa using rest)]
        simp [first]
      rw [List.flatMap_cons, starts_append, one, ih, List.length_cons, Nat.add_comm]
  rw [encode, chars, String.length_toList]

theorem exists_encode_of_append {s : String} {bs cs : Bytes} (cut : bs ++ cs = encode s)
    (whole : ∀ b, cs.head? = some b → further b = false) :
    ∃ t u, bs = encode t ∧ cs = encode u := by
  have chars (xs : List Char) (bs : Bytes) (cut : bs ++ cs = xs.flatMap String.utf8EncodeChar) :
      ∃ ts us : List Char, bs = ts.flatMap String.utf8EncodeChar ∧
        cs = us.flatMap String.utf8EncodeChar := by
    induction xs generalizing bs with
    | nil =>
      obtain ⟨rfl, rfl⟩ := List.append_eq_nil_iff.1 cut
      exact ⟨[], [], rfl, rfl⟩
    | cons x xs ih =>
      rw [List.flatMap_cons] at cut
      rcases List.append_eq_append_iff.1 cut with ⟨more, char, rest⟩ | ⟨more, front, rest⟩
      · -- The cut lies within the first character, at its front or at its end.
        cases bs with
        | nil => exact ⟨[], x :: xs, rfl, by rw [List.flatMap_cons, ← cut, List.nil_append]⟩
        | cons d front =>
          cases more with
          | nil => exact ⟨[x], xs, by simpa using char.symm, rest⟩
          | cons e more =>
            obtain ⟨b, within, octets, -, tails⟩ := encodeChar_eq_cons x
            have inner : within = front ++ e :: more := (List.cons.inj (octets.symm.trans char)).2
            have tail : further e = true := tails e (by simp [inner])
            rw [whole e (by simp [rest])] at tail
            cases tail
      · obtain ⟨ts, us, left, right⟩ := ih more rest.symm
        exact ⟨x :: ts, us, by rw [front, left, List.flatMap_cons], right⟩
  obtain ⟨ts, us, left, right⟩ := chars s.toList bs cut
  exact ⟨.ofList ts, .ofList us, by simpa [encode] using left, by simpa [encode] using right⟩

theorem length_decodeLossy (bs : Bytes) : (decodeLossy bs).length = (read bs).length := by
  rw [decodeLossy, String.length_ofList, List.length_map]

/-- Pieces that start no character more than they leave behind start with a character each. -/
theorem further_of_length_le {pieces : List Bytes}
    (few : (String.join (pieces.map decodeLossy)).length ≤ starts pieces.flatten) :
    ∀ p ∈ pieces, ∀ b, p.head? = some b → further b = false := by
  have each (ps : List Bytes) :
      starts ps.flatten ≤ (String.join (ps.map decodeLossy)).length := by
    induction ps with
    | nil => simp [starts]
    | cons p ps ih =>
      have first := starts_le_length p
      simp only [List.flatten_cons, starts_append, List.map_cons, String.join_cons,
        String.length_append, length_decodeLossy]
      omega
  induction pieces with
  | nil => simp
  | cons p pieces ih =>
    simp only [List.flatten_cons, starts_append, List.map_cons, String.join_cons,
      String.length_append, length_decodeLossy] at few
    have first := starts_le_length p
    have rest := each pieces
    refine List.forall_mem_cons.2 ⟨fun b head => ?_, ih (by omega)⟩
    obtain ⟨bs, rfl⟩ := List.head?_eq_some_iff.1 head
    refine Bool.eq_false_iff.2 fun tail => ?_
    have more := starts_lt_length tail bs
    omega

theorem exists_encode_of_mem {pieces : List Bytes} {s : String}
    (cut : pieces.flatten = encode s)
    (whole : ∀ p ∈ pieces, ∀ b, p.head? = some b → further b = false) :
    ∀ p ∈ pieces, ∃ t, p = encode t := by
  induction pieces generalizing s with
  | nil => simp
  | cons p pieces ih =>
    have rest := (List.forall_mem_cons.1 whole).2
    have front : ∀ b, pieces.flatten.head? = some b → further b = false := by
      intro b head
      rw [List.head?_flatten] at head
      obtain ⟨q, mem, first⟩ := List.exists_of_findSome?_eq_some head
      exact rest q mem b first
    obtain ⟨t, u, left, right⟩ := exists_encode_of_append cut front
    exact List.forall_mem_cons.2 ⟨⟨t, left⟩, ih right rest⟩

/-- Pieces of a text that are read one by one give the text again if and only if each of them is a
text itself, so that no character is cut. -/
theorem join_decodeLossy_eq_iff {pieces : List Bytes} {s : String}
    (cut : pieces.flatten = encode s) :
    String.join (pieces.map decodeLossy) = s ↔ ∀ p ∈ pieces, ∃ t, p = encode t := by
  constructor
  · intro same
    have few : (String.join (pieces.map decodeLossy)).length = starts pieces.flatten := by
      rw [cut, starts_encode, same]
    exact exists_encode_of_mem cut (further_of_length_le (Nat.le_of_eq few))
  · intro texts
    have again : encode (String.join (pieces.map decodeLossy)) = pieces.flatten := by
      clear cut
      induction pieces with
      | nil => rfl
      | cons p pieces ih =>
        obtain ⟨⟨t, rfl⟩, rest⟩ := List.forall_mem_cons.1 texts
        rw [List.map_cons, String.join_cons, encode_append, decodeLossy_encode, ih rest,
          List.flatten_cons]
    rw [← decodeLossy_encode (String.join _), again, cut, decodeLossy_encode]

end Utf8
end JarAtlas
