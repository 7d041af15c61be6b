import JarAtlas.Dot.PackageList
import Mathlib.Algebra.Ring.Parity

/-! Lists of packages, clause by clause. A comma parts two clauses if and only if an even number of
quotes stands in front of it, so that lists may be put together at such a comma, and a list that is
written clause by clause gives back its names. -/
namespace JarAtlas
namespace Dot

open Text

/-- Whether a text ends within quotes, by whether it starts so. -/
def endsQuoted (quoted : Bool) (cs : List Char) : Bool :=
  cs.foldl (fun quoted c => if c = '"' then !quoted else quoted) quoted

theorem endsQuoted_iff {quoted : Bool} {cs : List Char} :
    endsQuoted quoted cs = true ↔ (quoted = true ↔ Even (cs.count '"')) := by
  induction cs generalizing quoted with
  | nil => simp [endsQuoted]
  | cons c cs ih =>
    have step : endsQuoted quoted (c :: cs) =
        endsQuoted (if c = '"' then !quoted else quoted) cs := rfl
    rw [step, ih]
    by_cases quote : c = '"'
    · cases quoted <;> simp [quote, Nat.even_add_one]
    · simp [quote]

theorem endsQuoted_of_even {cs : List Char} (even : Even (cs.count '"')) :
    endsQuoted false cs = false := by
  simp [← Bool.not_eq_true, endsQuoted_iff, even]

theorem endsQuoted_of_odd {cs : List Char} (odd : Odd (cs.count '"')) :
    endsQuoted false cs = true := by
  simpa [endsQuoted_iff] using odd

theorem clausesFrom_comma (cs : List Char) :
    clausesFrom false (',' :: cs) = [] :: clausesFrom false cs := by
  simp [clausesFrom]

theorem clausesFrom_cons {quoted : Bool} {c : Char} {cs p : List Char} {ps : List (List Char)}
    (inner : ¬ (c = ',' ∧ quoted = false))
    (rest : clausesFrom (if c = '"' then !quoted else quoted) cs = p :: ps) :
    clausesFrom quoted (c :: cs) = (c :: p) :: ps := by
  rw [clausesFrom, if_neg inner, rest]

/-- What follows a text is read as if it stood alone, from within quotes if the text ends so. Its
first clause goes on with the last one of the text. -/
theorem exists_clausesFrom_append (quoted : Bool) (cs : List Char) :
    ∃ front p, clausesFrom quoted cs = front ++ [p] ∧
      ∀ ds q back, clausesFrom (endsQuoted quoted cs) ds = q :: back →
        clausesFrom quoted (cs ++ ds) = front ++ (p ++ q) :: back := by
  induction cs generalizing quoted with
  | nil => exact ⟨[], [], rfl, fun ds q back rest => rest⟩
  | cons c cs ih =>
    by_cases parts : c = ',' ∧ quoted = false
    · obtain ⟨rfl, rfl⟩ := parts
      obtain ⟨front, p, own, more⟩ := ih false
      refine ⟨[] :: front, p, ?_, fun ds q back rest => ?_⟩
      · rw [clausesFrom_comma, own, List.cons_append]
      · rw [List.cons_append, clausesFrom_comma, more ds q back rest, List.cons_append]
    · obtain ⟨front, p, own, more⟩ := ih (if c = '"' then !quoted else quoted)
      -- The character joins the first clause, which is the last one as well if there is no other.
      cases front with
      | nil =>
        exact ⟨[], c :: p, clausesFrom_cons parts own,
          fun ds q back rest => clausesFrom_cons parts (more ds q back rest)⟩
      | cons f fs =>
        exact ⟨(c :: f) :: fs, p, clausesFrom_cons parts own,
          fun ds q back rest => clausesFrom_cons parts (more ds q back rest)⟩

theorem exists_clausesFrom (quoted : Bool) (cs : List Char) :
    ∃ q back, clausesFrom quoted cs = q :: back := by
  obtain ⟨front, p, own, -⟩ := exists_clausesFrom_append quoted cs
  exact List.exists_cons_of_ne_nil (by simp [own])

variable {a b : List Char}

theorem clauses_append_of_even (even : Even (a.count '"')) :
    clauses (a ++ ',' :: b) = clauses a ++ clauses b := by
  obtain ⟨front, p, own, more⟩ := exists_clausesFrom_append false a
  have parted : clausesFrom (endsQuoted false a) (',' :: b) = [] :: clausesFrom false b := by
    rw [endsQuoted_of_even even, clausesFrom_comma]
  rw [clauses, more _ _ _ parted, clauses, clauses, own]
  simp

theorem clauses_append_of_odd (odd : Odd (a.count '"')) (b : List Char) :
    ∃ front p q back, clauses a = front ++ [p] ∧ clausesFrom true b = q :: back ∧
      ∀ c, c ≠ '"' → clauses (a ++ c :: b) = front ++ (p ++ c :: q) :: back := by
  obtain ⟨front, p, own, more⟩ := exists_clausesFrom_append false a
  obtain ⟨q, back, rest⟩ := exists_clausesFrom true b
  refine ⟨front, p, q, back, own, rest, fun c noQuote => more _ _ _ ?_⟩
  rw [endsQuoted_of_odd odd]
  exact clausesFrom_cons (by simp) (by rw [if_neg noQuote, rest])

theorem clauses_append_single (even : Even (a.count '"')) (first : clauses a = [a])
    (second : clauses b = [b]) : clauses (a ++ b) = [a ++ b] := by
  obtain ⟨front, p, own, more⟩ := exists_clausesFrom_append false a
  have alone : front ++ [p] = [] ++ [a] := by rw [← own, ← clauses, first, List.nil_append]
  obtain ⟨rfl, same⟩ := List.append_inj' alone rfl
  obtain rfl := List.singleton_inj.1 same
  exact more b b [] (by rw [endsQuoted_of_even even, ← clauses, second])

/-- Every comma has an odd number of quotes in front of it. -/
def CommasQuoted (cs : List Char) : Prop :=
  ∀ i, (h : i < cs.length) → cs[i] = ',' → Odd ((cs.take i).count '"')

instance (cs : List Char) : Decidable (CommasQuoted cs) :=
  inferInstanceAs (Decidable (∀ i, (h : i < cs.length) → cs[i] = ',' → _))

theorem clausesFrom_eq_single {quoted : Bool} {cs : List Char}
    (commas : ∀ i, (h : i < cs.length) → cs[i] = ',' → endsQuoted quoted (cs.take i) = true) :
    clausesFrom quoted cs = [cs] := by
  induction cs generalizing quoted with
  | nil => rfl
  | cons c cs ih =>
    have inner : ¬ (c = ',' ∧ quoted = false) := by
      rintro ⟨comma, rfl⟩
      exact Bool.noConfusion (commas 0 (by simp) comma)
    refine clausesFrom_cons inner (ih fun i h comma => ?_)
    exact commas (i + 1) (by simpa using h) comma

theorem CommasQuoted.clauses_eq {cs : List Char} (commas : CommasQuoted cs) :
    clauses cs = [cs] :=
  clausesFrom_eq_single fun i h comma => endsQuoted_of_odd (commas i h comma)

theorem clauses_of_not_mem {cs : List Char} (noComma : ',' ∉ cs) : clauses cs = [cs] :=
  CommasQuoted.clauses_eq fun _ h comma => absurd (comma ▸ List.getElem_mem h) noComma

def packagesOf (clauses : List (List Char)) : List String :=
  ((clauses.map packageName).filter fun p => !p.isEmpty).map .ofList

theorem packages_eq (value : String) : packages value = packagesOf (clauses value.toList) := rfl

theorem packagesOf_append (ps qs : List (List Char)) :
    packagesOf (ps ++ qs) = packagesOf ps ++ packagesOf qs := by
  simp [packagesOf]

theorem trimChars_packageName (clause : List Char) :
    trimChars (packageName clause) = packageName clause := trimChars_trimChars _

theorem semicolon_not_mem_packageName (clause : List Char) : ';' ∉ packageName clause := by
  intro mem
  have first := mem_of_mem_trimChars mem
  cases e : pieces ';' clause with
  | nil => exact pieces_ne_nil _ _ e
  | cons p ps =>
    rw [e] at first
    exact not_mem_of_mem_pieces (e ▸ List.mem_cons_self) first

theorem mem_packages {value p : String} (h : p ∈ packages value) :
    p ≠ "" ∧ trim p = p ∧ ';' ∉ p.toList := by
  obtain ⟨name, listed, rfl⟩ := List.mem_map.1 h
  obtain ⟨taken, filled⟩ := List.mem_filter.1 listed
  obtain ⟨clause, -, rfl⟩ := List.mem_map.1 taken
  refine ⟨?_, ?_, ?_⟩
  · simpa using filled
  · rw [trim, String.toList_ofList, trimChars_packageName]
  · rw [String.toList_ofList]
    exact semicolon_not_mem_packageName clause

/-- A clause of a list: a name with white space around it, and then, behind a semicolon, details
whose quotes are balanced and hide all of their commas. -/
structure Clause where
  lead : String
  name : String
  trail : String
  details : Option String
  blankLead : blank lead = true
  blankTrail : blank trail = true
  filled : name ≠ ""
  trimmed : trim name = name
  plain : ',' ∉ name.toList ∧ ';' ∉ name.toList ∧ '"' ∉ name.toList
  balanced : ∀ d ∈ details, Even (d.toList.count '"')
  hidden : ∀ d ∈ details, CommasQuoted d.toList

namespace Clause

variable (c : Clause)

def written : String :=
  c.lead ++ c.name ++ c.trail ++ (c.details.map fun d => ";" ++ d).getD ""

def shown : List Char := c.lead.toList ++ c.name.toList ++ c.trail.toList

def behind : List Char := (c.details.map fun d => ';' :: d.toList).getD []

theorem toList_written : c.written.toList = c.shown ++ c.behind := by
  cases e : c.details with
  | none => simp [written, shown, behind, e]
  | some d => simp [written, shown, behind, e]

theorem not_mem_shown {x : Char} (blank : isBlank x = false) (plain : x ∉ c.name.toList) :
    x ∉ c.shown := by
  have blanks {s : String} (h : Text.blank s = true) : x ∉ s.toList := by
    intro mem
    have own : isBlank x = true := List.all_eq_true.1 h x mem
    rw [blank] at own
    exact Bool.noConfusion own
  simp [shown, blanks c.blankLead, blanks c.blankTrail, plain]

theorem trimChars_shown : trimChars c.shown = c.name.toList := by
  have before := List.all_eq_true.1 c.blankLead
  have after := List.all_eq_true.1 c.blankTrail
  rw [shown, trimChars_append_right after, trimChars_append_left before, ← toList_trim, c.trimmed]

theorem packageName_written : packageName c.written.toList = c.name.toList := by
  have noMark : ';' ∉ c.shown := c.not_mem_shown (by decide) c.plain.2.1
  have first : (pieces ';' (c.shown ++ c.behind)).headD [] = c.shown := by
    cases e : c.details with
    | none => simp [behind, e, pieces_of_not_mem noMark]
    | some d => simp [behind, e, pieces_append_cons, pieces_of_not_mem noMark]
  rw [toList_written, packageName, first, trimChars_shown]

theorem even_shown : Even (c.shown.count '"') := by
  rw [List.count_eq_zero.2 (c.not_mem_shown (by decide) c.plain.2.2)]
  exact Even.zero

theorem even_written : Even (c.written.toList.count '"') := by
  rw [toList_written, List.count_append]
  refine c.even_shown.add ?_
  cases e : c.details with
  | none => simp [behind, e]
  | some d => simpa [behind, e] using c.balanced d e

theorem clauses_behind : clauses c.behind = [c.behind] := by
  cases e : c.details with
  | none => simp [behind, e, clauses, clausesFrom]
  | some d =>
    have details : clauses d.toList = [d.toList] := (c.hidden d e).clauses_eq
    have whole : c.behind = [';'] ++ d.toList := by simp [behind, e]
    rw [whole]
    exact clauses_append_single (by decide) (by decide) details

theorem clauses_written : clauses c.written.toList = [c.written.toList] := by
  have first := clauses_of_not_mem (c.not_mem_shown (by decide) c.plain.1)
  rw [toList_written]
  exact clauses_append_single c.even_shown first c.clauses_behind

theorem packages_written : packages c.written = [c.name] := by
  have filled : c.name.toList ≠ [] := by simpa using c.filled
  rw [packages_eq, c.clauses_written, packagesOf, List.map_singleton, c.packageName_written]
  simp [filled]

end Clause

theorem packages_append_of_even {a b : String} (even : Even (a.toList.count '"')) :
    packages (a ++ "," ++ b) = packages a ++ packages b := by
  have whole : (a ++ "," ++ b).toList = a.toList ++ ',' :: b.toList := by simp
  rw [packages_eq, whole, clauses_append_of_even even, packagesOf_append, ← packages_eq,
    ← packages_eq]

theorem packages_append_of_odd {a : String} (odd : Odd (a.toList.count '"')) (b : String) :
    ∃ front p q back, clauses a.toList = front ++ [p] ∧ clausesFrom true b.toList = q :: back ∧
      ∀ c, c ≠ '"' → packages (a ++ String.singleton c ++ b) =
        packagesOf front ++ packagesOf [p ++ c :: q] ++ packagesOf back := by
  obtain ⟨front, p, q, back, own, rest, whole⟩ := clauses_append_of_odd odd b.toList
  refine ⟨front, p, q, back, own, rest, fun c noQuote => ?_⟩
  have text : (a ++ String.singleton c ++ b).toList = a.toList ++ c :: b.toList := by simp
  rw [packages_eq, text, whole c noQuote, List.append_cons, packagesOf_append, packagesOf_append]

theorem packages_join (cs : List Clause) :
    packages (join "," (cs.map Clause.written)) = cs.map Clause.name := by
  induction cs with
  | nil => rfl
  | cons c cs ih =>
    cases cs with
    | nil => rw [List.map_singleton, join_singleton, c.packages_written, List.map_singleton]
    | cons d ds =>
      calc packages (join "," ((c :: d :: ds).map Clause.written))
          = packages (c.written ++ "," ++ join "," ((d :: ds).map Clause.written)) := by
            rw [List.map_cons, List.map_cons, join_cons_cons]
        _ = packages c.written ++ packages (join "," ((d :: ds).map Clause.written)) :=
            packages_append_of_even c.even_written
        _ = (c :: d :: ds).map Clause.name := by rw [c.packages_written, ih]; rfl

/-- Commas outside quotes part a list into lists of their own, and a comma within quotes stays in
its clause as any other character would. What comes out are trimmed names without semicolons, and
they are the names that the clauses were written with. -/
theorem packages_respect_quotes :
    (∀ a b : String, Even (a.toList.count '"') →
      packages (a ++ "," ++ b) = packages a ++ packages b) ∧
    (∀ a b : String, Odd (a.toList.count '"') → ∃ front p q back,
      clauses a.toList = front ++ [p] ∧ clausesFrom true b.toList = q :: back ∧
      ∀ c, c ≠ '"' → packages (a ++ String.singleton c ++ b) =
        packagesOf front ++ packagesOf [p ++ c :: q] ++ packagesOf back) ∧
    (∀ value, ∀ p ∈ packages value, p ≠ "" ∧ trim p = p ∧ ';' ∉ p.toList) ∧
    ∀ cs : List Clause, packages (join "," (cs.map Clause.written)) = cs.map Clause.name :=
  ⟨fun _ _ => packages_append_of_even, fun _ b odd => packages_append_of_odd odd b,
    fun _ _ => mem_packages, packages_join⟩

def usingClause : Clause where
  lead := " "
  name := "a.b"
  trail := ""
  details := some "uses:=\"x,y;z\";v=1"
  blankLead := by decide
  blankTrail := by decide
  filled := by decide
  trimmed := by decide
  plain := by decide
  balanced := by decide
  hidden := by decide

/-- A list of two such clauses, one that is cut behind the clause, and one that is cut within its
quotes. -/
theorem packages_respect_quotes_using :
    packages (join "," ([usingClause, usingClause].map Clause.written)) = ["a.b", "a.b"] ∧
    Even (" a.b;uses:=\"x,y;z\";v=1".toList.count '"') ∧
    packages (" a.b;uses:=\"x,y;z\";v=1" ++ "," ++ "c d,,") =
      packages " a.b;uses:=\"x,y;z\";v=1" ++ packages "c d,," ∧
    Odd (" a.b;uses:=\"x".toList.count '"') ∧ ',' ≠ '"' ∧
    (∃ front p q back, clauses " a.b;uses:=\"x".toList = front ++ [p] ∧
      clausesFrom true "y;z\";v=1,c d,,".toList = q :: back ∧
      packages (" a.b;uses:=\"x" ++ String.singleton ',' ++ "y;z\";v=1,c d,,") =
        packagesOf front ++ packagesOf [p ++ ',' :: q] ++ packagesOf back) ∧
    "c d" ∈ packages "c d,," ∧ trim "c d" = "c d" := by
  obtain ⟨apart, within, names, written⟩ := packages_respect_quotes
  have even : Even (" a.b;uses:=\"x,y;z\";v=1".toList.count '"') := by decide
  have odd : Odd (" a.b;uses:=\"x".toList.count '"') := by decide
  have member : "c d" ∈ packages "c d,," := by decide
  obtain ⟨front, p, q, back, own, rest, whole⟩ := within _ "y;z\";v=1,c d,," odd
  exact ⟨written _, even, apart _ _ even, odd, by decide,
    ⟨front, p, q, back, own, rest, whole ',' (by decide)⟩, member, (names _ _ member).2.1⟩

end Dot
end JarAtlas
