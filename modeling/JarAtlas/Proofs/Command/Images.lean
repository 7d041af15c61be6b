import JarAtlas.Proofs.Command.Inspect
import JarAtlas.Proofs.Render.ImagePath

/-! The images of diagrams among the files that commands write. None takes the place of another file
of its command, but the image of a dot with an extension is the directory above. -/
namespace JarAtlas
namespace Command

open JarAtlas.Path Render

variable {path other image front name : String} {c : Coordinate}

/-- The last name of the path starts so. -/
def CalledAfter (front path : String) : Prop := ∃ rest, fileName? path = some (front ++ rest)

theorem CalledAfter.shorten {more : String} (called : CalledAfter (front ++ more) path) :
    CalledAfter front path := by
  obtain ⟨rest, named⟩ := called
  exact ⟨more ++ rest, by rw [named, String.append_assoc]⟩

theorem steps_ne_of_calledAfter {mark other_mark : String}
    (called : CalledAfter (front ++ mark) path)
    (other_called : CalledAfter (front ++ other_mark) other)
    (length : mark.toList.length = other_mark.toList.length) (apart : mark ≠ other_mark) :
    steps path ≠ steps other := by
  obtain ⟨rest, named⟩ := called
  obtain ⟨other_rest, other_named⟩ := other_called
  refine steps_ne_of_fileName?_ne other_named named fun same => apart ?_
  have texts := congrArg String.toList same
  simp only [String.toList_append, List.append_assoc, List.append_cancel_left_eq] at texts
  exact String.toList_inj.1 (List.append_inj_left texts length)

theorem exists_fileName?_beside (c : Coordinate) (dir : String) :
    ∃ name, ∀ suffix : String, '/' ∉ suffix.toList → 2 < suffix.toList.length →
      fileName? (append dir (c.stem ++ suffix)) = some (name ++ suffix) := by
  obtain ⟨before, name, beside⟩ := exists_isName_beside c dir
  refine ⟨name, fun suffix clean long => ?_⟩
  obtain ⟨cut, isName⟩ := beside suffix clean long
  have split : splitTail (parts (append dir (c.stem ++ suffix))) = (before ++ [name ++ suffix], []) := by
    rw [cut, splitTail_concat before isName.named]
  rw [fileName?_of_splitTail split, if_neg isName.notUp]

theorem calledAfter_diagram {format stem : String} (named : fileName? path = some (stem ++ "." ++ "dot"))
    (long : 2 < stem.toList.length) (clean : '/' ∉ format.toList) :
    CalledAfter stem path ∧ CalledAfter stem (besideDescription format path) := by
  have filled : stem ≠ "" := fun empty => by simp [empty] at long
  have cut : splitExtension (stem ++ "." ++ "dot") = (stem, some "dot") :=
    splitExtension_append (by decide) filled
  have image := exists_fileName?_besideDescription named (by rwa [cut]) clean
  rw [cut] at image
  exact ⟨⟨"." ++ "dot", by rw [named, String.append_assoc]⟩, image⟩

/-- The archive, the two diagrams and their images do not get in each other's way. -/
theorem inspected_files_apart {format : String} (clean : '/' ∉ format.toList) (dir : String)
    (c : Coordinate) :
    [append dir c.fileName, manifestDiagramPath dir c, moduleDiagramPath dir c,
      besideDescription format (manifestDiagramPath dir c),
      besideDescription format (moduleDiagramPath dir c)].Pairwise fun a b => steps a ≠ steps b := by
  obtain ⟨name, beside⟩ := exists_fileName?_beside c dir
  have jar : CalledAfter (name ++ ".ja") (append dir c.fileName) :=
    ⟨"r", by rw [Coordinate.fileName, beside _ (by decide) (by decide)]; simp [String.append_assoc]⟩
  have manifestName : fileName? (manifestDiagramPath dir c) =
      some (name ++ "-ma" ++ "nifest" ++ "." ++ "dot") := by
    rw [manifestDiagramPath, beside _ (by decide) (by decide)]
    simp [String.append_assoc]
  have moduleName : fileName? (moduleDiagramPath dir c) =
      some (name ++ "-mo" ++ "dules" ++ "." ++ "dot") := by
    rw [moduleDiagramPath, beside _ (by decide) (by decide)]
    simp [String.append_assoc]
  obtain ⟨manifest, manifestImage⟩ := calledAfter_diagram manifestName (by simp) clean
  obtain ⟨modules, moduleImage⟩ := calledAfter_diagram moduleName (by simp) clean
  have apart {a b m n : String} (ha : CalledAfter (name ++ m) a) (hb : CalledAfter (name ++ n) b)
      (differ : m.toList.length = n.toList.length ∧ m ≠ n) : steps a ≠ steps b :=
    steps_ne_of_calledAfter ha hb differ.1 differ.2
  simp only [List.pairwise_cons, List.forall_mem_cons, List.not_mem_nil, false_imp_iff,
    forall_const, and_true, List.Pairwise.nil]
  -- Three characters tell the archive and the two diagrams apart, also by their images. A diagram
  -- and its own image are told apart by what is behind the stem.
  refine ⟨⟨apart jar manifest.shorten ?_, apart jar modules.shorten ?_,
      apart jar manifestImage.shorten ?_, apart jar moduleImage.shorten ?_⟩,
    ⟨apart manifest.shorten modules.shorten ?_,
      (steps_besideDescription_ne manifestName clean).symm,
      apart manifest.shorten moduleImage.shorten ?_⟩,
    ⟨apart modules.shorten manifestImage.shorten ?_,
      (steps_besideDescription_ne moduleName clean).symm⟩,
    apart manifestImage.shorten moduleImage.shorten ?_⟩
  all_goals decide

/-- The image of a description is another path, whatever the format is, and with a format it has the
same parent. It has a name there if and only if the description does not end in a dot with an
extension. The files that inspecting an artifact may write all have different paths. -/
theorem image_beside_description {format : String} (clean : '/' ∉ format.toList) :
    (∀ description name : String, fileName? description = some name →
      ∃ image, imagePath? format description = some image ∧ steps image ≠ steps description ∧
        (format ≠ "" → parent? image = parent? description ∧
          (LiesBeside image description ↔
            ¬ ∃ piece, (parts description).getLast? = some piece ∧ DotExtended piece))) ∧
    ∀ (dir : String) (c : Coordinate), ∃ manifestImage moduleImage,
      imagePath? format (manifestDiagramPath dir c) = some manifestImage ∧
      imagePath? format (moduleDiagramPath dir c) = some moduleImage ∧
      [append dir c.fileName, manifestDiagramPath dir c, moduleDiagramPath dir c, manifestImage,
        moduleImage].Pairwise fun a b => steps a ≠ steps b := by
  refine ⟨fun description name named => ?_, fun dir c => ?_⟩
  · exact ⟨_, imagePath?_of_no_slash clean description, steps_besideDescription_ne named clean,
      fun filled => liesBeside_besideDescription_iff named filled clean⟩
  · exact ⟨_, _, imagePath?_of_no_slash clean _, imagePath?_of_no_slash clean _,
      inspected_files_apart clean dir c⟩

/-- A description whose name is the format of its image with the word in front, and the files of an
artifact with the same format. -/
theorem image_beside_description_rendered :
    (steps "d/x.rendered.rendered.dot" ≠ steps "d/x.rendered.dot" ∧
      LiesBeside "d/x.rendered.rendered.dot" "d/x.rendered.dot") ∧
    ["d/a-1.jar", "d/a-1-manifest.dot", "d/a-1-modules.dot", "d/a-1-manifest.rendered.dot",
      "d/a-1-modules.rendered.dot"].Pairwise fun a b => steps a ≠ steps b := by
  have clean : '/' ∉ "dot".toList := by decide
  obtain ⟨beside, apart⟩ := image_beside_description clean
  constructor
  · obtain ⟨image, drawn, other, lies⟩ :=
      beside "d/x.rendered.dot" "x.rendered.dot" (by decide)
    obtain rfl : "d/x.rendered.rendered.dot" = image := Option.some.inj drawn
    refine ⟨other, (lies (by decide)).2.2 ?_⟩
    rintro ⟨piece, last, ext, clean, rfl⟩
    have same : "x.rendered.dot" = ".." ++ ext := Option.some.inj last
    have first := congrArg (fun s => s.toList.head?) same
    simp at first
  · obtain ⟨manifestImage, moduleImage, manifest, modules, pairwise⟩ :=
      apart "d" ⟨"g", "a", "1"⟩
    obtain rfl : "d/a-1-manifest.rendered.dot" = manifestImage := Option.some.inj manifest
    obtain rfl : "d/a-1-modules.rendered.dot" = moduleImage := Option.some.inj modules
    exact pairwise

def dottedDiagram : FileTree := ⟨[(["a"], .directory), (["a", "..dot"], .file [] false)]⟩

/-- The image of a dot with an extension is the directory above the one in which the description
is, and no file in that. -/
theorem image_leaves_directory :
    (fileName? "a/..dot" = some "..dot" ∧ imagePath? "png" "a/..dot" = some "a/..") ∧
    (dottedDiagram.resolve [] "a/..dot" = .ok ["a", "..dot"] ∧
      dottedDiagram.resolve [] "a/.." = .ok []) ∧
    ¬ ∀ format description name image : String, '/' ∉ format.toList → format ≠ "" →
      fileName? description = some name → imagePath? format description = some image →
        LiesBeside image description := by
  have named : fileName? "a/..dot" = some "..dot" := by decide
  have drawn : imagePath? "png" "a/..dot" = some "a/.." := by decide
  refine ⟨⟨named, drawn⟩, ⟨rfl, rfl⟩, fun claim => ?_⟩
  have lies := claim "png" "a/..dot" "..dot" "a/.." (by decide) (by decide) named drawn
  exact absurd lies.2 (by decide)

end Command
end JarAtlas
