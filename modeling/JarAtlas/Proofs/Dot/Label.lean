import JarAtlas.Dot.ManifestDiagram
import JarAtlas.Proofs.Dot.Escaping

/-! Labels of several lines. Titles and line breaks are written as they stand and only items are
escaped, but that comes to the escape of a whole text, from which the lines can be read again. -/
namespace JarAtlas
namespace Dot

open Text

theorem escape_count (n : Nat) : escape (toString n) = toString n := by
  apply escape_of_plain
  intro c hc m hm own
  have digit : c.isDigit = true := by
    apply Nat.isDigit_of_mem_toDigits (b := 10) (n := n) (by decide) (by decide)
    rwa [← Nat.toList_repr]
  have noDigit : ∀ m ∈ marks, m.1.isDigit = false := by decide
  rw [own, noDigit m hm] at digit
  cases digit

namespace ManifestDiagram

theorem escape_feed : escape "\n" = lineBreak := rfl

theorem escape_unlines (ls : List String) :
    escape (unlines ls) = String.join (ls.map fun l => escape l ++ lineBreak) := by
  induction ls with
  | nil => rfl
  | cons l ls ih =>
    have front : unlines (l :: ls) = l ++ "\n" ++ unlines ls := String.toList_inj.1 (by simp)
    rw [front, escape_append, escape_append, ih, escape_feed]
    simp

/-- A list below a title is the escape of its lines, once the title with its line break is the
escape of its own. -/
theorem labelledList_eq {title : String} (heading : List String)
    (spelled : title ++ lineBreak = escape (unlines heading)) (items : List String) :
    labelledList title items = escape (unlines (heading ++ rule :: items)) := by
  have plain : escape rule = rule := by decide
  have below : escape (unlines (rule :: items)) =
      rule ++ lineBreak ++ String.join (items.map fun i => escape i ++ lineBreak) := by
    rw [escape_unlines]
    simp [plain]
  have parts : unlines (heading ++ rule :: items) = unlines heading ++ unlines (rule :: items) :=
    String.toList_inj.1 (by simp)
  rw [parts, escape_append, ← spelled, below]
  simp [labelledList, String.append_assoc]

def countLine (count : Nat) : String := "(" ++ toString count ++ " packages)"

theorem countedTitle_eq {title : String} (plain : escape title = title) (count : Nat) :
    countedTitle title count ++ lineBreak = escape (unlines [title, countLine count]) := by
  have opening : escape "(" = "(" := by decide
  have ending : escape " packages)" = " packages)" := by decide
  rw [escape_unlines]
  simp only [List.map_cons, List.map_nil, plain, countLine, escape_append, escape_count, opening,
    ending]
  simp [countedTitle, String.append_assoc]

def mainText (bundle name version : String) : String :=
  unlines [bundle, name] ++ ("Version: " ++ version)

theorem mainLabel_eq (m : Manifest) (name : String) :
    mainLabel m name = escape (mainText ((m.get? "Bundle-Name").getD name) name
      ((m.get? "Bundle-Version").getD "")) := by
  have word : escape "Version: " = "Version: " := by decide
  rw [mainText, escape_append, escape_unlines, escape_append, word]
  simp [mainLabel, String.append_assoc]

theorem infoLabel_eq (m : Manifest) :
    infoLabel m = escape (unlines ("MANIFEST INFO" :: rule ::
      ((m.attributes.filter fun a => a.name ∈ importantNames).take maxInfoItems).map
        (item 25 20))) :=
  labelledList_eq ["MANIFEST INFO"] (by decide) _

theorem exportLabel_eq (limit : Nat) (packages : List String) :
    exportLabel limit packages = escape (unlines ("EXPORT PACKAGES" ::
      countLine packages.length :: rule :: exportItems limit packages)) :=
  labelledList_eq _ (countedTitle_eq (by decide) _) _

theorem privateLabel_eq (packages : List String) :
    privateLabel packages = escape (unlines ("PRIVATE PACKAGES" ::
      countLine packages.length :: rule :: packages.map fun p => bullet (shortPackage p))) :=
  labelledList_eq _ (countedTitle_eq (by decide) _) _

theorem versionLabel_eq (m : Manifest) :
    versionLabel m = escape (unlines ("VERSION & LICENSE" :: rule ::
      ((m.attributes.filter tellsVersion).take maxVersionItems).map (item 20 25))) :=
  labelledList_eq ["VERSION & LICENSE"] (by decide) _

end ManifestDiagram
end Dot
end JarAtlas
