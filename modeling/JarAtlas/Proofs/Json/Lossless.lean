import JarAtlas.Proofs.Json.Reading
import JarAtlas.Proofs.Manifest.Pairs
import JarAtlas.Proofs.Modules.Operations

/-! What the documents of manifests and of graphs tell. Nothing is lost on the way, and since no name
comes twice in an object, no reader has to choose between two members. -/
namespace JarAtlas

namespace Manifest

open Text

/-- How manifests come about: they are read from a text, or made of pairs. -/
inductive Built : Manifest → Prop where
  | parse (text : String) : Built (Manifest.parse text)
  | ofPairs (ps : List (String × String)) : Built (Manifest.ofPairs ps)

theorem Built.distinct {m : Manifest} (h : m.Built) : Distinct m.attributes := by
  cases h with
  | parse text => exact (wellFormed_parse text).distinct
  | ofPairs ps => exact (describes_ofPairs ps).distinct

theorem Distinct.nodup_names {as : List Attribute} (distinct : Distinct as) :
    (as.map Attribute.name).Nodup := by
  have small := nodup_lower distinct
  rw [← Function.comp_def lower, ← List.map_map] at small
  exact small.of_map lower

theorem toJson_inj {m n : Manifest} (same : m.toJson = n.toJson) : m = n := by
  have members := Json.object.inj same
  obtain ⟨as⟩ := m
  obtain ⟨bs⟩ := n
  refine congrArg Manifest.mk ((List.map_inj_right fun a b e => ?_).1 members)
  obtain ⟨name, value⟩ := a
  obtain ⟨name', value'⟩ := b
  simpa using e

end Manifest

namespace ModuleGraph

def listed (g : ModuleGraph) : List (String × List String) :=
  g.entries.map fun e => (e.1, e.2.toList)

theorem toJson_eq (g : ModuleGraph) :
    g.toJson = .object (g.listed.map fun e => (e.1, .list (e.2.map .text))) := by
  rw [toJson, listed, List.map_map]
  rfl

theorem map_fst_listed (g : ModuleGraph) : g.listed.map Prod.fst = g.modules := by
  rw [listed, List.map_map]
  rfl

theorem dependencies_of_mem_listed {g : ModuleGraph} {e : String × List String}
    (mem : e ∈ g.listed) : e.2.Pairwise (· < ·) ∧ ∀ t, t ∈ e.2 ↔ g.DependsOn e.1 t := by
  obtain ⟨⟨module, deps⟩, entry, rfl⟩ := List.mem_map.1 mem
  have found : g.dependencies? module = some deps := NameTable.mem_entries_iff.1 entry
  refine ⟨deps.ascending, fun t => ?_⟩
  simp [DependsOn, found, NameSet.mem_def]

theorem toJson_inj {g h : ModuleGraph} (same : g.toJson = h.toJson) : g = h := by
  have entries : g.entries = h.entries := by
    refine (List.map_inj_right fun e e' alike => ?_).1 (Json.object.inj same)
    obtain ⟨module, deps⟩ := Prod.mk.inj alike
    have targets : e.2.toList = e'.2.toList :=
      (List.map_inj_right fun _ _ => Json.text.inj).1 (Json.list.inj deps)
    exact Prod.ext module (NameSet.ext targets)
  exact congrArg ModuleGraph.mk (NameTable.ext entries)

end ModuleGraph

namespace Json

/-- The document of a manifest is read as its attributes, in their order, and no two members have the
same name. The document of a graph is read as its modules, each once and ascending, with their
dependencies, ascending as well. So manifests are equal if their documents are, and so are graphs. -/
theorem compact_lossless :
    (∀ m : Manifest, m.Built →
      decode? m.toJson.compact =
          some (.object (m.attributes.map fun a => (a.name, .text a.value))) ∧
        (m.attributes.map Attribute.name).Nodup) ∧
    (∀ g : ModuleGraph, ∃ entries : List (String × List String),
      decode? g.toJson.compact =
          some (.object (entries.map fun e => (e.1, .list (e.2.map .text)))) ∧
        (entries.map Prod.fst).Pairwise (· < ·) ∧
        (∀ m, m ∈ entries.map Prod.fst ↔ m ∈ g.modules) ∧
        ∀ e ∈ entries, e.2.Pairwise (· < ·) ∧ ∀ t, t ∈ e.2 ↔ g.DependsOn e.1 t) ∧
    (∀ m n : Manifest, m.toJson.compact = n.toJson.compact ↔ m = n) ∧
    ∀ g h : ModuleGraph, g.toJson.compact = h.toJson.compact ↔ g = h := by
  refine ⟨fun m built => ⟨decode?_compact _, built.distinct.nodup_names⟩, fun g => ?_,
    fun m n => ⟨fun same => Manifest.toJson_inj (compact_inj same), fun same => same ▸ rfl⟩,
    fun g h => ⟨fun same => ModuleGraph.toJson_inj (compact_inj same), fun same => same ▸ rfl⟩⟩
  refine ⟨g.listed, ?_, ?_, ?_, fun e mem => ModuleGraph.dependencies_of_mem_listed mem⟩
  · rw [decode?_compact, ModuleGraph.toJson_eq]
  · rw [ModuleGraph.map_fst_listed]
    exact g.dependencies.ascending
  · intro m
    rw [ModuleGraph.map_fst_listed]

/-- A quote and a backslash in a name, a line feed and a control character in a value. A target that
is no module, and a dependency of a module on itself. -/
theorem compact_lossless_marked :
    (Manifest.ofPairs [("a\"\\", "\n\x01é"), ("b", "")]).toJson.compact =
      "\x7b\"a\\\"\\\\\":\"\\n\\u0001é\",\"b\":\"\"\x7d" ∧
    decode? "\x7b\"a\\\"\\\\\":\"\\n\\u0001é\",\"b\":\"\"\x7d" =
      some (.object [("a\"\\", .text "\n\x01é"), ("b", .text "")]) ∧
    ∃ entries : List (String × List String),
      decode? (ModuleGraph.ofOperations
          [.addDependency "b" "c", .addDependency "b" "b", .addModule "a"]).toJson.compact =
        some (.object (entries.map fun e => (e.1, .list (e.2.map .text)))) ∧
      ∃ e ∈ entries, e.1 = "b" ∧ "c" ∈ e.2 ∧ "b" ∉ e.2 := by
  have written : (Manifest.ofPairs [("a\"\\", "\n\x01é"), ("b", "")]).toJson.compact =
      "\x7b\"a\\\"\\\\\":\"\\n\\u0001é\",\"b\":\"\"\x7d" := by decide
  have read := (compact_lossless.1 _ (.ofPairs [("a\"\\", "\n\x01é"), ("b", "")])).1
  rw [written] at read
  refine ⟨written, read, ?_⟩
  obtain ⟨entries, read, -, names, targets⟩ := compact_lossless.2.1
    (ModuleGraph.ofOperations [.addDependency "b" "c", .addDependency "b" "b", .addModule "a"])
  obtain ⟨e, mem, same⟩ := List.mem_map.1 ((names "b").2 (by decide))
  refine ⟨entries, read, e, mem, same, ?_, ?_⟩
  · rw [(targets e mem).2, same, ModuleGraph.dependsOn_ofOperations]
    decide
  · rw [(targets e mem).2, same, ModuleGraph.dependsOn_ofOperations]
    decide

end Json
end JarAtlas
