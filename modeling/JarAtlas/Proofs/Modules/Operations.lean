import JarAtlas.Proofs.Modules.Layers
import Mathlib.Algebra.GroupWithZero.Nat
import Mathlib.Data.Finset.Dedup
import Mathlib.Data.Finset.Card
import Mathlib.Data.List.Nodup

/-! A graph is made by two operations. What a sequence of them makes depends on nothing but which
operations are in it: not on their order, and not on how often each comes. -/
namespace JarAtlas
namespace ModuleGraph

inductive Operation where
  | addModule (module : String)
  | addDependency (source target : String)
  deriving DecidableEq, Repr

namespace Operation

/-- The module that the operation is about, which becomes one if it was none. -/
def module : Operation → String
  | .addModule module => module
  | .addDependency source _ => source

/-- The dependency that the operation records. None is recorded of a module on itself. -/
def edge? : Operation → Option (String × String)
  | .addModule _ => none
  | .addDependency source target => if target ≠ source then some (source, target) else none

theorem edge?_eq_some_iff {op : Operation} {s t : String} :
    op.edge? = some (s, t) ↔ t ≠ s ∧ op = .addDependency s t := by
  cases op with
  | addModule module => simp [edge?]
  | addDependency source target =>
    simp only [edge?, Operation.addDependency.injEq]
    split
    · next other =>
      constructor
      · rintro ⟨⟩
        exact ⟨other, rfl, rfl⟩
      · rintro ⟨-, rfl, rfl⟩
        rfl
    · next itself =>
      constructor
      · intro none
        cases none
      · rintro ⟨other, rfl, rfl⟩
        exact absurd other itself

end Operation

def apply (g : ModuleGraph) : Operation → ModuleGraph
  | .addModule module => g.addModule module
  | .addDependency source target => g.addDependency source target

def ofOperations (ops : List Operation) : ModuleGraph := ops.foldl apply empty

def recorded (ops : List Operation) : Finset (String × String) :=
  (ops.filterMap Operation.edge?).toFinset

variable {g h : ModuleGraph} {op : Operation} {ops : List Operation} {m s t x : String}

theorem mem_recorded : (s, t) ∈ recorded ops ↔ t ≠ s ∧ .addDependency s t ∈ ops := by
  simp only [recorded, List.mem_toFinset, List.mem_filterMap, Operation.edge?_eq_some_iff]
  constructor
  · rintro ⟨op, mem, other, rfl⟩
    exact ⟨other, mem⟩
  · rintro ⟨other, mem⟩
    exact ⟨_, mem, other, rfl⟩

theorem dependencies?_apply_of_ne (other : x ≠ op.module) :
    (g.apply op).dependencies? x = g.dependencies? x := by
  cases op with
  | addModule module => simp [apply, show x ≠ module from other]
  | addDependency source target => simp [apply, show x ≠ source from other]

theorem mem_modules_apply : x ∈ (g.apply op).modules ↔ x ∈ g.modules ∨ op.module = x := by
  rw [or_comm, eq_comm]
  cases op with
  | addModule module => exact mem_modules_addModule
  | addDependency source target => exact mem_modules_addDependency

/-- An operation adds the dependency that it records, and takes none away. -/
theorem dependsOn_apply :
    (g.apply op).DependsOn s t ↔ g.DependsOn s t ∨ op.edge? = some (s, t) := by
  rw [Operation.edge?_eq_some_iff]
  by_cases own : s = op.module
  · subst own
    unfold DependsOn
    cases op with
    | addModule module =>
      cases known : g.dependencies? module <;> simp [apply, Operation.module, known]
    | addDependency source target =>
      simp only [apply, Operation.module, dependencies?_addDependency]
      cases known : g.dependencies? source <;> grind [NameSet.mem_insert, NameSet.not_mem_empty]
  · have elsewhere : op ≠ .addDependency s t := fun e => own (e ▸ rfl)
    simp [DependsOn, dependencies?_apply_of_ne own, elsewhere]

theorem mem_modules_foldl_apply :
    x ∈ (ops.foldl apply g).modules ↔ x ∈ g.modules ∨ ∃ op ∈ ops, op.module = x := by
  induction ops generalizing g with
  | nil => simp
  | cons op ops ih =>
    simp only [List.foldl_cons, ih, mem_modules_apply, List.exists_mem_cons_iff, or_assoc]

theorem dependsOn_foldl_apply :
    (ops.foldl apply g).DependsOn s t ↔
      g.DependsOn s t ∨ ∃ op ∈ ops, op.edge? = some (s, t) := by
  induction ops generalizing g with
  | nil => simp
  | cons op ops ih =>
    simp only [List.foldl_cons, ih, dependsOn_apply, List.exists_mem_cons_iff, or_assoc]

theorem mem_modules_ofOperations :
    m ∈ (ofOperations ops).modules ↔ .addModule m ∈ ops ∨ ∃ t, .addDependency m t ∈ ops := by
  have new : m ∉ empty.modules := by simp [mem_modules_iff]
  rw [ofOperations, mem_modules_foldl_apply, or_iff_right new]
  constructor
  · rintro ⟨op, mem, rfl⟩
    cases op with
    | addModule module => exact .inl mem
    | addDependency source target => exact .inr ⟨target, mem⟩
  · rintro (mem | ⟨t, mem⟩)
    · exact ⟨_, mem, rfl⟩
    · exact ⟨_, mem, rfl⟩

theorem dependsOn_ofOperations :
    (ofOperations ops).DependsOn s t ↔ t ≠ s ∧ .addDependency s t ∈ ops := by
  have new : ¬ empty.DependsOn s t := by simp [DependsOn]
  rw [ofOperations, dependsOn_foldl_apply, or_iff_right new, ← mem_recorded]
  simp [recorded]

theorem eq_of_same (modules : ∀ x, x ∈ g.modules ↔ x ∈ h.modules)
    (edges : ∀ s t, g.DependsOn s t ↔ h.DependsOn s t) : g = h := by
  refine ext_dependencies? fun x => ?_
  have same := modules x
  rw [mem_modules_iff, mem_modules_iff] at same
  cases left : g.dependencies? x with
  | none =>
    rw [left] at same
    exact (Option.not_isSome_iff_eq_none.1 (mt same.2 Bool.false_ne_true)).symm
  | some deps =>
    rw [left] at same
    obtain ⟨others, right⟩ := Option.isSome_iff_exists.1 (same.1 rfl)
    have members : deps = others := by
      refine NameSet.eq_of_mem_iff fun t => ?_
      have edge := edges x t
      simpa [DependsOn, left, right] using edge
    rw [right, members]

def pairs (g : ModuleGraph) : List (String × String) :=
  g.entries.flatMap fun e => e.2.toList.map (Prod.mk e.1)

theorem mem_pairs : (s, t) ∈ g.pairs ↔ g.DependsOn s t := by
  simp only [pairs, List.mem_flatMap, List.mem_map, Prod.mk.injEq]
  constructor
  · rintro ⟨e, listed, _, mem, rfl, rfl⟩
    exact ⟨e.2, NameTable.mem_entries_iff.1 listed, mem⟩
  · rintro ⟨deps, found, mem⟩
    exact ⟨(s, deps), NameTable.mem_entries_iff.2 found, t, mem, rfl, rfl⟩

theorem nodup_pairs (g : ModuleGraph) : g.pairs.Nodup := by
  have differ {a b : String} (lt : a < b) : a ≠ b := fun same => String.lt_irrefl b (same ▸ lt)
  have names : g.entries.Pairwise fun e f => e.1 ≠ f.1 :=
    (List.pairwise_map.1 g.dependencies.ascending).imp differ
  refine List.nodup_flatMap.2 ⟨fun e _ => ?_, names.imp fun {e f} other => ?_⟩
  · have targets : e.2.toList.Nodup := e.2.ascending.imp differ
    exact targets.map (Prod.mk_right_injective e.1)
  · intro p left right
    obtain ⟨t, -, rfl⟩ := List.mem_map.1 left
    obtain ⟨u, -, same⟩ := List.mem_map.1 right
    exact other (congrArg Prod.fst same).symm

theorem edgeCount_eq_sum_size (g : ModuleGraph) :
    g.edgeCount = (g.entries.map fun e => e.2.size).sum := by
  rw [edgeCount, List.sum_eq_foldr, List.foldr_map]

theorem length_pairs (g : ModuleGraph) : g.pairs.length = g.edgeCount := by
  simp [pairs, edgeCount_eq_sum_size, NameSet.size, List.length_flatMap]

theorem edgeCount_eq_sum (g : ModuleGraph) :
    g.edgeCount = (g.modules.map g.outDegree).sum := by
  rw [edgeCount_eq_sum_size, modules, NameTable.names, List.map_map]
  refine congrArg List.sum (List.map_congr_left fun e listed => ?_)
  have found : g.dependencies? e.1 = some e.2 := NameTable.mem_entries_iff.1 listed
  simp [outDegree, found]

theorem edgeCount_ofOperations (ops : List Operation) :
    (ofOperations ops).edgeCount = (recorded ops).card := by
  rw [← length_pairs, ← List.toFinset_card_of_nodup (nodup_pairs _)]
  congr 1
  ext ⟨s, t⟩
  rw [List.mem_toFinset, mem_pairs, dependsOn_ofOperations, mem_recorded]

/-- What a sequence of operations makes is told by the set of them. Targets do not become modules,
no module depends on itself, each dependency counts once, and an operation on one module does not
touch another. -/
theorem ofOperations_spec (ops : List Operation) :
    (∀ m, m ∈ (ofOperations ops).modules ↔
      .addModule m ∈ ops ∨ ∃ t, .addDependency m t ∈ ops) ∧
    (∀ m ∈ (ofOperations ops).modules, ∃ deps, (ofOperations ops).dependencies? m = some deps ∧
      m ∉ deps ∧ ∀ t, t ∈ deps ↔ t ≠ m ∧ .addDependency m t ∈ ops) ∧
    (ofOperations ops).edgeCount = (recorded ops).card ∧
    (ofOperations ops).edgeCount =
      ((ofOperations ops).modules.map (ofOperations ops).outDegree).sum ∧
    (∀ others : List Operation, (∀ op, op ∈ ops ↔ op ∈ others) →
      ofOperations ops = ofOperations others) ∧
    ∀ op x, x ≠ op.module →
      (ofOperations (ops ++ [op])).dependencies? x = (ofOperations ops).dependencies? x := by
  refine ⟨fun m => mem_modules_ofOperations, fun m known => ?_, edgeCount_ofOperations ops,
    edgeCount_eq_sum _, fun others same => ?_, fun op x other => ?_⟩
  · obtain ⟨deps, found⟩ := Option.isSome_iff_exists.1 (mem_modules_iff.1 known)
    have targets (t : String) : t ∈ deps ↔ t ≠ m ∧ .addDependency m t ∈ ops := by
      rw [← dependsOn_ofOperations]
      simp [DependsOn, found]
    exact ⟨deps, found, fun itself => ((targets m).1 itself).1 rfl, targets⟩
  · refine eq_of_same (fun x => ?_) fun s t => ?_
    · simp only [mem_modules_ofOperations, same]
    · simp only [dependsOn_ofOperations, same]
  · rw [ofOperations, List.foldl_append]
    exact dependencies?_apply_of_ne other

/-- A dependency of a module on itself makes it a module without dependencies, and neither the order
nor a repetition of what is done to another module changes that. -/
theorem ofOperations_spec_itself :
    (∃ deps, (ofOperations [.addDependency "b" "b", .addDependency "a" "c"]).dependencies? "b" =
      some deps ∧ "c" ∉ deps) ∧
    ofOperations [.addDependency "b" "b", .addDependency "a" "c"] =
      ofOperations [.addDependency "a" "c", .addDependency "a" "c", .addDependency "b" "b"] ∧
    (ofOperations ([.addDependency "b" "b"] ++ [.addDependency "a" "c"])).dependencies? "b" =
      (ofOperations [.addDependency "b" "b"]).dependencies? "b" := by
  have known : "b" ∈ (ofOperations [.addDependency "b" "b", .addDependency "a" "c"]).modules := by
    decide
  have spec := ofOperations_spec [.addDependency "b" "b", .addDependency "a" "c"]
  obtain ⟨deps, found, -, targets⟩ := spec.2.1 "b" known
  refine ⟨⟨deps, found, ?_⟩, spec.2.2.2.2.1 _ ?_, ?_⟩
  · simp [targets]
  · intro op
    simp only [List.mem_cons, List.not_mem_nil]
    tauto
  · exact (ofOperations_spec [.addDependency "b" "b"]).2.2.2.2.2 (.addDependency "a" "c") "b"
      (by decide)

end ModuleGraph
end JarAtlas
