import TargetGen.Proofs.Phase.History

/-!
# Additions — what a phase adds to the graph

Only the commit of a step that succeeded adds edges, and it adds those that the
step asks for. So what is true of all the edges for which the steps of a phase
ask is true of all that is new afterwards, however the phase ends
(`Phase.StepsAdd.run`).

When a phase is completed, everything that is new can be traced to a module that
was visited: an edge to its step (`Phase.mem_edges_run`), likewise a kind of
provider (`Phase.mem_kinds_run`), and an error to its step or to the spread of
failures (`Phase.mem_errors_run`).
-/

namespace TargetGen

open TargetGen.Graph

variable {p : Phase} {registry : Registry} {config : Config} {g g' : Graph}
  {s s' : RunState} {id : ModuleId} {o : Outcome} {phase : String} {e : Edge}
  {R : Edge → Prop}

/-! ## Edges that are new -/

/-- What the second graph has beyond the edges of the first one has property `R`. -/
def Graph.AddsOnly (R : Edge → Prop) (g g' : Graph) : Prop :=
  ∀ e ∈ g'.edges, e ∈ g.edges ∨ R e

namespace Graph.AddsOnly

theorem of_edges_eq (h : g'.edges = g.edges) : AddsOnly R g g' := by
  intro e he
  exact .inl (h ▸ he)

theorem trans {g'' : Graph} (h : AddsOnly R g g') (h' : AddsOnly R g' g'') :
    AddsOnly R g g'' := by
  intro e he
  rcases h' e he with hold | hnew
  · exact h e hold
  · exact .inr hnew

end Graph.AddsOnly

/-- A commit adds edges of its outcome only, whether or not there is a fault. -/
theorem Graph.mem_edges_of_commit (h : e ∈ (g.commit phase id o).1.edges) :
    e ∈ g.edges ∨ e.source = id ∧ (e.target, e.tag) ∈ o.edges := by
  cases hc : (g.commit phase id o).2 with
  | none => exact (mem_edges_commit hc).mp h
  | some fault =>
    match o, hc, h with
    | .ran (.ok output), hc, h =>
      -- publishing was at fault, so no edge was added
      left
      simp only [commit] at hc h
      split at hc
      next g' fault' heq =>
        rw [heq] at h
        have hsame := edges_publishAll g id phase output.providers
        rw [heq] at hsame
        exact hsame ▸ h
      next => cases hc

theorem Graph.nodup_addEdges (edges : List Dependency) (h : g.edges.Nodup) :
    (g.addEdges id edges).edges.Nodup := by
  induction edges generalizing g with
  | nil => exact h
  | cons d rest ih => exact ih (g := g.addEdge ⟨id, d.1, d.2⟩) (Distinct.nodup_append _ h)

theorem Graph.nodup_edges_commit (o : Outcome) (h : g.edges.Nodup) :
    (g.commit phase id o).1.edges.Nodup := by
  match o with
  | .ran (.ok output) =>
    have hsame := edges_publishAll g id phase output.providers
    simp only [commit]
    split
    next g' fault heq =>
      rw [heq] at hsame
      exact hsame ▸ h
    next g' heq =>
      rw [heq] at hsame
      exact nodup_addEdges _ (hsame ▸ h)
  | .ran (.error e) => exact h
  | .blocked dependency => exact h
  | .alreadyFailed => exact h

/-! ## However a phase ends -/

/-- The steps of a phase ask only for edges with property `R`. -/
def Phase.StepsAdd (p : Phase) (registry : Registry) (config : Config) (R : Edge → Prop) : Prop :=
  ∀ g id output, p.step ⟨g, registry, config, id⟩ = .ok (.ok output) →
    ∀ d ∈ output.edges, R ⟨id, d.1, d.2⟩

theorem Phase.StepsAdd.staysWithin (h : p.StepsAdd registry config R) :
    p.StaysWithin registry config (AddsOnly R) where
  refl g := .of_edges_eq rfl
  trans := .trans
  commit {before g id o} _ _ ho := by
    intro e he
    rcases mem_edges_of_commit he with hold | ⟨rfl, hnew⟩
    · exact .inl hold
    · obtain ⟨output, rfl⟩ := Outcome.eq_ran_of_mem_edges hnew
      exact .inr (h before _ output (outcome_eq_ran ho).2.2 _ hnew)

/-- **What a phase adds**, however it ends: edges for which its steps ask. -/
theorem Phase.StepsAdd.run (h : p.StepsAdd registry config R)
    (hbarrier : ∀ s, (p.barrier config s).1.graph.edges = s.graph.edges) (s : RunState) :
    AddsOnly R s.graph (p.run registry config s).1.graph :=
  h.staysWithin.run (fun s => .of_edges_eq (hbarrier s))
    (fun g => .of_edges_eq (edges_propagateFailures g)) s

theorem Phase.staysWithin_nodup (p : Phase) (registry : Registry) (config : Config) :
    p.StaysWithin registry config (fun g g' => g.edges.Nodup → g'.edges.Nodup) where
  refl _ h := h
  trans h h' hg := h' (h hg)
  commit _ _ _ hg := nodup_edges_commit _ hg

/-! ## Phases that are completed -/

/-- **Which edges are new** when a phase is completed: those for which the step of a
module asked, where the module was visited. -/
theorem Phase.mem_edges_run {summary : PhaseSummary}
    (hbarrier : ∀ s, (p.barrier config s).1.graph.edges = s.graph.edges)
    (hrun : p.run registry config s = (s', .ok summary)) :
    e ∈ s'.graph.edges ↔ e ∈ s.graph.edges ∨
      ∃ w ∈ p.history registry config s.graph, e.source ∈ w.modules ∧
        ∃ output, p.outcome ⟨w.before, registry, config, e.source⟩ = .ok (.ran (.ok output)) ∧
          (e.target, e.tag) ∈ output.edges := by
  obtain ⟨g, sb, hdone, hb, rfl⟩ := historyDone_of_run hrun
  have hedges : sb.graph.propagateFailures.1.edges = g.edges := by
    have hsame := hbarrier { s with graph := g }
    rw [hb] at hsame
    exact (edges_propagateFailures sb.graph).trans hsame
  show e ∈ sb.graph.propagateFailures.1.edges ↔ _
  rw [hedges]
  constructor
  · intro he
    rcases hdone.inside e he with hold | hinside
    · exact .inl hold
    · obtain ⟨w, hw, hmem⟩ := hdone.exists_wave hinside
      obtain ⟨o, hdealt⟩ := hdone.dealt w hw _ hmem
      rcases (hdealt.gained.edges e rfl).mp he with hold | hnew
      · exact .inl hold
      · obtain ⟨output, rfl⟩ := Outcome.eq_ran_of_mem_edges hnew
        exact .inr ⟨w, hw, hmem, output, hdealt.outcome, hnew⟩
  · rintro (hold | ⟨w, hw, hmem, output, ho, hnew⟩)
    · exact hdone.extends_start.mem_edges hold
    · obtain ⟨o, hdealt⟩ := hdone.dealt w hw _ hmem
      obtain rfl := Except.ok.inj (ho.symm.trans hdealt.outcome)
      exact (hdealt.gained.edges e rfl).mpr (.inr hnew)

/-- **Which kinds of providers are new**: those that the step of the module
published, unless the barrier did. -/
theorem Phase.mem_kinds_run {summary : PhaseSummary} {kind : ProviderKind}
    (hbarrier : ∀ s id, kind ∈ (p.barrier config s).1.graph.kinds id → kind ∈ s.graph.kinds id)
    (hrun : p.run registry config s = (s', .ok summary)) (h : kind ∈ s'.graph.kinds id) :
    kind ∈ s.graph.kinds id ∨ ∃ w ∈ p.history registry config s.graph, id ∈ w.modules ∧
      ∃ output, p.outcome ⟨w.before, registry, config, id⟩ = .ok (.ran (.ok output)) ∧
        ∃ q ∈ output.providers, q.kind = kind := by
  obtain ⟨g, sb, hdone, hb, rfl⟩ := historyDone_of_run hrun
  have hg : kind ∈ g.kinds id := by
    have hback := hbarrier { s with graph := g } id
    rw [hb] at hback
    apply hback
    rwa [← kinds_propagateFailures]
  by_cases hid : id < s.graph.size
  · obtain ⟨w, hw, hmem⟩ := hdone.exists_wave hid
    obtain ⟨o, hdealt⟩ := hdone.dealt w hw id hmem
    rw [hdealt.gained.kinds, List.mem_append] at hg
    rcases hg with hold | hnew
    · exact .inl hold
    · obtain ⟨q, hq, hkind⟩ := List.mem_map.mp hnew
      obtain ⟨output, rfl⟩ := Outcome.eq_ran_of_mem_providers hq
      exact .inr ⟨w, hw, hmem, output, hdealt.outcome, q, hq, hkind⟩
  · rw [Graph.kinds, node_of_size_le (hdone.extends_start.size ▸ Nat.le_of_not_lt hid)] at hg
    cases hg

/-- **Which errors are new**: that of the step of the module, and those about a
dependency that failed. -/
theorem Phase.mem_errors_run {summary : PhaseSummary} {error : ModuleError}
    (hbarrier : ∀ s id, (p.barrier config s).1.graph.errors id = s.graph.errors id)
    (hrun : p.run registry config s = (s', .ok summary)) (h : error ∈ s'.graph.errors id) :
    error ∈ s.graph.errors id ∨ (∃ name, error = .dependencyFailed name) ∨
      ∃ w ∈ p.history registry config s.graph, id ∈ w.modules ∧
        p.outcome ⟨w.before, registry, config, id⟩ = .ok (.ran (.error error)) := by
  obtain ⟨g, sb, hdone, hb, rfl⟩ := historyDone_of_run hrun
  rcases mem_errors_propagateFailures h with hsb | hspread
  · have hg : error ∈ g.errors id := by
      have hsame := hbarrier { s with graph := g } id
      rw [hb] at hsame
      exact hsame ▸ hsb
    by_cases hid : id < s.graph.size
    · obtain ⟨w, hw, hmem⟩ := hdone.exists_wave hid
      obtain ⟨o, hdealt⟩ := hdone.dealt w hw id hmem
      rw [hdealt.gained.errors, List.mem_append] at hg
      rcases hg with hold | hnew
      · exact .inl hold
      · have ho := hdealt.outcome
        match o, ho, hnew with
        | .ran (.error e), ho, hnew =>
          obtain rfl := List.mem_singleton.mp hnew
          exact .inr (.inr ⟨w, hw, hmem, ho⟩)
        | .blocked dependency, _, hnew => exact .inr (.inl ⟨_, List.mem_singleton.mp hnew⟩)
        | .ran (.ok _), _, hnew => cases hnew
        | .alreadyFailed, _, hnew => cases hnew
    · rw [Graph.errors, node_of_size_le (hdone.extends_start.size ▸ Nat.le_of_not_lt hid)] at hg
      cases hg
  · exact .inr (.inl hspread)

end TargetGen
