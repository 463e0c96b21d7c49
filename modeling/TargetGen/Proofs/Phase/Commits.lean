import TargetGen.Proofs.Graph.Alike
import TargetGen.Proofs.Phase.Order

/-!
# Commits — the order within a wave cannot be seen

The outcomes of a wave are committed one after the other, in whatever order they
come in. Each of them is about a module of its own, so what a module gains is the
same in any order (`Graph.gained_commitAll`), and the edges that are added are the
same but for their order, which cannot be seen (`Graph.Alike.indistinguishable`).
-/

namespace TargetGen

open TargetGen.Graph

namespace Graph

variable {g g' : Graph} {id : ModuleId} {o : Outcome} {phase : String}
  {outcomes outcomes' : List (ModuleId × Outcome)}

/-! ## The edges of commits -/

/-- The edges from a module to some dependencies. -/
def edgesFrom (id : ModuleId) (dependencies : List Dependency) : List Edge :=
  dependencies.map fun d => ⟨id, d.1, d.2⟩

/-- The edges that outcomes add. -/
def edgesOf (outcomes : List (ModuleId × Outcome)) : List Edge :=
  outcomes.flatMap fun x => edgesFrom x.1 x.2.edges

theorem edges_foldl_addEdge (es : List Edge) :
    (es.foldl addEdge g).edges = es.foldl Distinct.append g.edges := by
  induction es generalizing g with
  | nil => rfl
  | cons e rest ih => exact ih

@[simp] theorem nodes_foldl_addEdge (es : List Edge) : (es.foldl addEdge g).nodes = g.nodes := by
  induction es generalizing g with
  | nil => rfl
  | cons e rest ih => exact ih.trans rfl

theorem edges_addEdges (dependencies : List Dependency) :
    (g.addEdges id dependencies).edges =
      (edgesFrom id dependencies).foldl Distinct.append g.edges := by
  rw [edgesFrom, ← edges_foldl_addEdge, List.foldl_map]
  rfl

theorem edges_commit (h : (g.commit phase id o).2 = none) :
    (g.commit phase id o).1.edges = (edgesFrom id o.edges).foldl Distinct.append g.edges := by
  match o, h with
  | .ran (.ok output), h =>
    rw [commit_ok_of_eq_none (commit_ok_eq_none h), edges_addEdges, edges_publishAll,
      Outcome.edges]
  | .ran (.error e), _ => rfl
  | .blocked dependency, _ => rfl
  | .alreadyFailed, _ => rfl

theorem edges_commitAll (h : g.commitAll phase outcomes = (g', none)) :
    g'.edges = (edgesOf outcomes).foldl Distinct.append g.edges := by
  induction outcomes generalizing g with
  | nil =>
    obtain rfl := (Prod.mk.inj h).1
    rfl
  | cons x rest ih =>
    have hstep : (g.commit phase x.1 x.2).2 = none → (g.commit phase x.1 x.2).1.edges =
        (edgesFrom x.1 x.2.edges).foldl Distinct.append g.edges := edges_commit
    unfold commitAll at h
    cases hc : g.commit phase x.1 x.2 with
    | mk g₁ fault? =>
      rw [hc] at h hstep
      cases fault? with
      | some fault => cases h
      | none =>
        show g'.edges = (edgesFrom x.1 x.2.edges ++ edgesOf rest).foldl Distinct.append g.edges
        rw [ih h, hstep rfl, List.foldl_append]

/-! ## Outcomes of a wave -/

/-- Outcomes of distinct modules of a graph, none of which publishes a kind of
provider that is there. -/
structure Committable (g : Graph) (outcomes : List (ModuleId × Outcome)) : Prop where
  inside : ∀ x ∈ outcomes, x.1 < g.size
  distinct : (outcomes.map Prod.fst).Nodup
  kinds : ∀ x ∈ outcomes, (x.2.providers.map Provider.kind).Nodup
  fresh : ∀ x ∈ outcomes, ∀ p ∈ x.2.providers, p.kind ∉ g.kinds x.1

theorem Committable.perm (h : g.Committable outcomes) (hperm : outcomes.Perm outcomes') :
    g.Committable outcomes' where
  inside x hx := h.inside x (hperm.symm.subset hx)
  distinct := (hperm.map Prod.fst).nodup h.distinct
  kinds x hx := h.kinds x (hperm.symm.subset hx)
  fresh x hx := h.fresh x (hperm.symm.subset hx)

theorem Committable.exists_commitAll (h : g.Committable outcomes) (phase : String) :
    ∃ g', g.commitAll phase outcomes = (g', none) := by
  induction outcomes generalizing g with
  | nil => exact ⟨g, rfl⟩
  | cons x rest ih =>
    obtain ⟨hfirst, hrest⟩ := List.nodup_cons.mp h.distinct
    have hstep := extendsAt_commit g phase x.1 x.2
    have hnone : (g.commit phase x.1 x.2).2 = none :=
      commit_of_fresh phase (h.inside x List.mem_cons_self) (h.kinds x List.mem_cons_self)
        (h.fresh x List.mem_cons_self)
    have hlater : (g.commit phase x.1 x.2).1.Committable rest := by
      refine ⟨fun y hy => ?_, hrest, fun y hy => h.kinds y (List.mem_cons_of_mem x hy),
        fun y hy => ?_⟩
      · exact hstep.size ▸ h.inside y (List.mem_cons_of_mem x hy)
      · have hne : y.1 ≠ x.1 := fun heq => hfirst (heq ▸ List.mem_map_of_mem hy)
        rw [Graph.kinds, hstep.node y.1 hne]
        exact h.fresh y (List.mem_cons_of_mem x hy)
    obtain ⟨g', hg'⟩ := ih hlater
    refine ⟨g', ?_⟩
    unfold commitAll
    cases hc : g.commit phase x.1 x.2 with
    | mk g₁ fault? =>
      rw [hc] at hnone hg'
      obtain rfl : fault? = none := hnone
      exact hg'

theorem node_eq (hmodule : g'.module id = g.module id)
    (hpublished : (g'.node id).store.published = (g.node id).store.published)
    (herrors : g'.errors id = g.errors id) : g'.node id = g.node id := by
  unfold Graph.module at hmodule
  unfold Graph.errors at herrors
  generalize g'.node id = n' at hmodule hpublished herrors ⊢
  generalize g.node id = n at hmodule hpublished herrors ⊢
  obtain ⟨m', ⟨ps'⟩, es'⟩ := n'
  obtain ⟨m, ⟨ps⟩, es⟩ := n
  obtain rfl : m' = m := hmodule
  obtain rfl : ps' = ps := hpublished
  obtain rfl : es' = es := herrors
  rfl

theorem nodes_eq_of_node_eq (hsize : g'.size = g.size) (h : ∀ id, g'.node id = g.node id) :
    g'.nodes = g.nodes := by
  apply List.ext_getElem hsize
  intro id hid hid'
  have hnode := h id
  rw [node, node, List.getD_eq_getElem _ _ hid, List.getD_eq_getElem _ _ hid'] at hnode
  exact hnode

/-- **What commits leave** does not depend on their order, but for the order of edges. -/
theorem Committable.alike {g₁ g₂ : Graph} (h : g.Committable outcomes)
    (hperm : outcomes.Perm outcomes') (h₁ : g.commitAll phase outcomes = (g₁, none))
    (h₂ : g.commitAll phase outcomes' = (g₂, none)) : Alike g₁ g₂ := by
  have h' := h.perm hperm
  obtain ⟨hvisited₁, hgained₁⟩ := gained_commitAll h.distinct h.inside h₁
  obtain ⟨hvisited₂, hgained₂⟩ := gained_commitAll h'.distinct h'.inside h₂
  have hext₁ := hvisited₁.extends_start
  have hext₂ := hvisited₂.extends_start
  constructor
  · apply nodes_eq_of_node_eq (hext₂.size.trans hext₁.size.symm)
    intro id
    by_cases hid : id ∈ outcomes.map Prod.fst
    · obtain ⟨x, hx, rfl⟩ := List.mem_map.mp hid
      have hx₁ := hgained₁ x hx
      have hx₂ := hgained₂ x (hperm.subset hx)
      apply node_eq
      · rw [hext₂.module, hext₁.module]
      · rw [hx₂.published, hx₁.published]
      · rw [hx₂.errors, hx₁.errors]
    · have hid' : id ∉ outcomes'.map Prod.fst := fun hmem =>
        hid ((hperm.map Prod.fst).symm.subset hmem)
      rw [hvisited₁.node id hid, hvisited₂.node id hid']
  · rw [edges_commitAll h₁, edges_commitAll h₂]
    exact Distinct.foldl_append_perm (hperm.symm.flatMap_right _) g.edges

end Graph

/-! ## Counting -/

theorem PhaseSummary.count_perm {outcomes outcomes' : List (ModuleId × Outcome)}
    (h : outcomes.Perm outcomes') (summary : PhaseSummary) :
    summary.count outcomes' = summary.count outcomes := by
  simp only [count, h.countP_eq]

/-- **The order of commits cannot be seen.** Take outcomes of distinct modules of a
graph, none of which publishes a kind of provider that is there, and the same
outcomes in another order. Both are committed without fault and counted alike, and
the graphs that they leave cannot be told apart: neither by what is asked of them,
nor by how failures spread in them.

The second part is about edges alone: it makes no difference in which order some
are added to a graph. -/
theorem Graph.commit_order_cannot_be_seen {g : Graph}
    {outcomes outcomes' : List (ModuleId × Outcome)} (phase : String)
    (h : g.Committable outcomes) (hperm : outcomes.Perm outcomes') :
    ((∀ summary : PhaseSummary, summary.count outcomes' = summary.count outcomes) ∧
      ∃ g₁ g₂, g.commitAll phase outcomes = (g₁, none) ∧
        g.commitAll phase outcomes' = (g₂, none) ∧ Indistinguishable g₁ g₂) ∧
    ∀ (g : Graph) (es es' : List Edge), es.Perm es' →
      Indistinguishable (es.foldl addEdge g) (es'.foldl addEdge g) := by
  refine ⟨⟨PhaseSummary.count_perm hperm, ?_⟩, fun g es es' hes => ?_⟩
  · obtain ⟨g₁, h₁⟩ := h.exists_commitAll phase
    obtain ⟨g₂, h₂⟩ := (h.perm hperm).exists_commitAll phase
    exact ⟨g₁, g₂, h₁, h₂, (h.alike hperm h₁ h₂).indistinguishable⟩
  · apply Alike.indistinguishable
    constructor
    · rw [nodes_foldl_addEdge, nodes_foldl_addEdge]
    · rw [edges_foldl_addEdge, edges_foldl_addEdge]
      exact Distinct.foldl_append_perm hes.symm g.edges

/-! Two modules of which one fails, and the other adds edges of two kinds to it. -/

def wavedOutcomes : List (ModuleId × Outcome) :=
  [(0, .ran (.ok ⟨[.custom "seen" "app"], [(1, .license), (1, .outputOf "")]⟩)),
   (1, .ran (.error (.missingDependencies ["gone"])))]

theorem waved_commits_cannot_be_told_apart :
    relayGraph.Committable wavedOutcomes ∧
      ∃ g₁ g₂, relayGraph.commitAll "relay" wavedOutcomes = (g₁, none) ∧
        relayGraph.commitAll "relay" wavedOutcomes.reverse = (g₂, none) ∧
        Indistinguishable g₁ g₂ := by
  have hcommittable : relayGraph.Committable wavedOutcomes :=
    ⟨by decide +kernel, by decide +kernel, by decide +kernel, by decide +kernel⟩
  have hperm : wavedOutcomes.Perm wavedOutcomes.reverse := (List.reverse_perm _).symm
  exact ⟨hcommittable, (commit_order_cannot_be_seen "relay" hcommittable hperm).1.2⟩

end TargetGen
