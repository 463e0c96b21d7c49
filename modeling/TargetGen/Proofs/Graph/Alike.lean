import TargetGen.Proofs.Graph.Propagation
import TargetGen.Proofs.Phase.Waves

/-!
# Alike — the order of the edges cannot be seen

Edges are kept in the order in which they came. Nothing that is asked of a graph
depends on it: what lists dependencies puts them in order, what lists modules goes
through them in load order, and levels, failed dependencies and the spread of
failures only ask whether there is an edge of some kind. So two graphs with the
same nodes, whose edges differ by their order, answer every question alike
(`Alike.agree`), and they stay alike when failures are spread.
-/

namespace TargetGen

/-! ## The order of dependencies -/

theorem DepTag.eq_of_rank_of_output {a b : DepTag} (hrank : a.rank = b.rank)
    (houtput : a.output = b.output) : a = b := by
  cases a <;> cases b <;> simp_all [rank, output]

theorem Dependency.eq_of_compare {a b : Dependency} (h : Dependency.compare a b = .eq) : a = b := by
  obtain ⟨id, tag⟩ := a
  obtain ⟨id', tag'⟩ := b
  simp only [Dependency.compare, compareLex, compareOn, Ordering.then_eq_eq,
    Std.LawfulEqCmp.compare_eq_iff_eq] at h
  obtain ⟨rfl, hrank, houtput⟩ := h
  rw [DepTag.eq_of_rank_of_output hrank houtput]

instance : Std.LawfulEqCmp Dependency.compare where
  compare_self {a} := by simp [Dependency.compare, compareLex, compareOn]
  eq_of_compare := Dependency.eq_of_compare

namespace Graph

variable {g g' : Graph} {id : ModuleId}

/-! ## Graphs that differ by the order of their edges -/

/-- Two graphs have the same nodes, and the same edges in some order. -/
structure Alike (g g' : Graph) : Prop where
  nodes : g'.nodes = g.nodes
  edges : g'.edges.Perm g.edges

namespace Alike

theorem mem_edges (h : Alike g g') {e : Edge} : e ∈ g'.edges ↔ e ∈ g.edges := h.edges.mem_iff

theorem node (h : Alike g g') (id : ModuleId) : g'.node id = g.node id := by
  rw [Graph.node, h.nodes, Graph.node]

theorem ids (h : Alike g g') : g'.ids = g.ids := by
  rw [Graph.ids, size, h.nodes, Graph.ids, size]

theorem module (h : Alike g g') (id : ModuleId) : g'.module id = g.module id := by
  rw [Graph.module, h.node, Graph.module]

theorem errors (h : Alike g g') (id : ModuleId) : g'.errors id = g.errors id := by
  rw [Graph.errors, h.node, Graph.errors]

theorem isFailed (h : Alike g g') (id : ModuleId) : g'.isFailed id = g.isFailed id := by
  rw [Graph.isFailed, h.errors, Graph.isFailed]

theorem dependsOn (h : Alike g g') (a b : ModuleId) : g'.dependsOn a b = g.dependsOn a b := by
  rw [Bool.eq_iff_iff, dependsOn_iff, dependsOn_iff]
  exact exists_congr fun tag => h.mem_edges

theorem dependencies (h : Alike g g') (id : ModuleId) :
    g'.dependencies id = g.dependencies id := by
  apply Ordered.ofList_congr
  intro d
  simp only [List.mem_map, List.mem_filter, h.mem_edges]

theorem dependencyIds (h : Alike g g') (id : ModuleId) :
    g'.dependencyIds id = g.dependencyIds id := by
  simp only [Graph.dependencyIds, h.ids, h.dependsOn]

theorem dependentIds (h : Alike g g') (id : ModuleId) :
    g'.dependentIds id = g.dependentIds id := by
  simp only [Graph.dependentIds, h.ids, h.dependsOn]

theorem failedDependency (h : Alike g g') (id : ModuleId) :
    g'.failedDependency id = g.failedDependency id := by
  simp only [Graph.failedDependency, h.dependencyIds, h.isFailed]

theorem isReady (h : Alike g g') (d : Direction) (remaining : List ModuleId) (id : ModuleId) :
    g'.isReady d remaining id = g.isReady d remaining id := by
  rw [Bool.eq_iff_iff, Graph.isReady, Graph.isReady, List.all_eq_true, List.all_eq_true]
  exact forall_congr' fun e => imp_congr h.mem_edges Iff.rfl

theorem levelsOf (h : Alike g g') (d : Direction) (remaining : List ModuleId) :
    g'.levelsOf d remaining = g.levelsOf d remaining := by
  apply levelsOf_congr
  funext remaining id
  exact h.isReady d remaining id

theorem levels (h : Alike g g') (d : Direction) : g'.levels d = g.levels d := by
  rw [Graph.levels, h.ids, h.levelsOf, Graph.levels]

/-! ## The spread of failures -/

theorem spread (h : Alike g g') (queue sound : List ModuleId) :
    g'.spread queue sound = g.spread queue sound := by
  have hreached : g'.reachedFrom = g.reachedFrom := by
    funext failed sound
    simp only [reachedFrom, h.dependsOn]
  have hspared : g'.sparedBy = g.sparedBy := by
    funext failed sound
    simp only [sparedBy, h.dependsOn]
  fun_induction Graph.spread g queue sound with
  | case1 sound => rw [Graph.spread]
  | case2 failed queue sound ih => rw [spread_cons, hreached, hspared, ih]

theorem newlyFailed (h : Alike g g') : g'.newlyFailed = g.newlyFailed := by
  simp only [Graph.newlyFailed, h.ids, h.isFailed, h.spread]

theorem recordError (h : Alike g g') (id : ModuleId) (e : ModuleError) :
    Alike (g.recordError id e) (g'.recordError id e) := by
  refine ⟨?_, h.edges⟩
  show g'.nodes.modify id _ = g.nodes.modify id _
  rw [h.nodes]

theorem failBy (h : Alike g g') (pairs : List (ModuleId × ModuleId)) :
    Alike (g.failBy pairs) (g'.failBy pairs) := by
  induction pairs generalizing g g' with
  | nil => exact h
  | cons pair rest ih =>
    rw [failBy_cons, failBy_cons, h.module]
    exact ih (h.recordError _ _)

theorem propagateFailures (h : Alike g g') :
    Alike g.propagateFailures.1 g'.propagateFailures.1 := by
  rw [propagateFailures_fst, propagateFailures_fst, h.newlyFailed]
  exact h.failBy _

end Alike

/-! ## Questions -/

/-- Two graphs answer alike what is asked of them. -/
structure Agree (g g' : Graph) : Prop where
  dependencies : ∀ id, g'.dependencies id = g.dependencies id
  dependencyIds : ∀ id, g'.dependencyIds id = g.dependencyIds id
  dependentIds : ∀ id, g'.dependentIds id = g.dependentIds id
  published : ∀ id, (g'.node id).store = (g.node id).store
  errors : ∀ id, g'.errors id = g.errors id
  edgeCount : g'.edgeCount = g.edgeCount
  levels : ∀ d, g'.levels d = g.levels d
  failedDependency : ∀ id, g'.failedDependency id = g.failedDependency id

theorem Alike.agree (h : Alike g g') : Agree g g' where
  dependencies := h.dependencies
  dependencyIds := h.dependencyIds
  dependentIds := h.dependentIds
  published id := by rw [h.node]
  errors := h.errors
  edgeCount := h.edges.length_eq
  levels := h.levels
  failedDependency := h.failedDependency

/-- Two graphs answer alike, and spread failures alike: the same modules fail by the
same dependencies, and afterwards the graphs answer alike again. -/
structure Indistinguishable (g g' : Graph) : Prop where
  agree : Agree g g'
  newlyFailed : g'.newlyFailed = g.newlyFailed
  count : g'.propagateFailures.2 = g.propagateFailures.2
  spread : Agree g.propagateFailures.1 g'.propagateFailures.1

/-- **The order of the edges cannot be seen.** -/
theorem Alike.indistinguishable (h : Alike g g') : Indistinguishable g g' where
  agree := h.agree
  newlyFailed := h.newlyFailed
  count := congrArg List.length h.newlyFailed
  spread := h.propagateFailures.agree

end Graph

end TargetGen
