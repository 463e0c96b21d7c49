import TargetGen.Proofs.Build.Ordering

/-!
# Growth — what a run of phases may change

Whatever the steps of some phases return, a run of them only adds: commits do, the
spread of failures does, and so do the barriers of this library, which publish and
nothing else (`publishes_of_ownBarrier`). This holds however the run ends, since a
phase stays within any relation within which its parts stay (`Phase.StaysWithin`).

What is added belongs to the module whose step asked for it: a commit leaves all
other modules and the edges that leave them as they were (`Graph.extendsAt_commit`).
A step that fails adds its error and nothing else (`Phase.HistoryDone.of_error`), and
a phase that finds no waves adds nothing at all.
-/

namespace TargetGen

open TargetGen.Graph

variable {p : Phase} {registry : Registry} {config : Config} {s : RunState} {g g' : Graph}
  {id : ModuleId}

/-! ## Steps that fail -/

theorem ProviderStore.eq_of_published {a b : ProviderStore} (h : a.published = b.published) :
    a = b := by
  cases a
  cases b
  exact congrArg ProviderStore.mk h

/-- **A step that fails** adds one error to a module that had none, and nothing else:
when the waves are done, the module has the providers and the edges that it had. -/
theorem Phase.HistoryDone.of_error {start : Graph} {w : StartedWave} {e : ModuleError}
    (h : p.HistoryDone registry config start g) (hw : w ∈ p.history registry config start)
    (hid : id ∈ w.modules)
    (ho : p.outcome ⟨w.before, registry, config, id⟩ = .ok (.ran (.error e))) :
    start.errors id = [] ∧ g.errors id = [e] ∧ (g.node id).store = (start.node id).store ∧
      ∀ edge : Edge, edge.source = id → (edge ∈ g.edges ↔ edge ∈ start.edges) := by
  obtain ⟨earlier, later, hsplit⟩ := List.append_of_mem hw
  have hnone : start.errors id = [] := by
    have hsound := (outcome_eq_ran ho).1
    rw [Graph.isFailed, Graph.errors, node_of_history hsplit hid, ← Graph.errors] at hsound
    simpa using hsound
  obtain ⟨o, hdealt⟩ := h.dealt w hw id hid
  obtain rfl := Except.ok.inj (hdealt.outcome.symm.trans ho)
  refine ⟨hnone, ?_, ?_, ?_⟩
  · rw [hdealt.gained.errors, hnone]
    rfl
  · apply ProviderStore.eq_of_published
    rw [hdealt.gained.published]
    exact List.append_nil _
  · intro edge hsource
    rw [hdealt.gained.edges edge hsource]
    exact or_iff_left List.not_mem_nil

/-! ## Phases without waves -/

theorem Phase.run_of_no_waves (h : s.graph.waves p.order = none) :
    (p.run registry config s).1 = s := by
  unfold Phase.run
  rw [h]

namespace Build

/-! ## The barriers of this library -/

/-- The phase has no barrier, or the one that has all queries answered. -/
def OwnBarrier (p : Phase) : Prop :=
  p.barrier = Phase.noBarrier ∨ ∃ executor, p.barrier = (queries executor).barrier

theorem publishes_of_ownBarrier (h : OwnBarrier p) (config : Config) (s : RunState) :
    Publishes s.graph (p.barrier config s).1.graph := by
  rcases h with hnone | ⟨executor, hqueries⟩
  · rw [hnone]
    exact Publishes.refl s.graph
  · rw [hqueries]
    exact publishes_answerAll executor s

theorem ne_cycle_of_ownBarrier (h : OwnBarrier p) (config : Config) (s : RunState)
    (name : String) : (p.barrier config s).2 ≠ some (.graph (.cycle name)) := by
  rcases h with hnone | ⟨executor, hqueries⟩
  · rw [hnone]
    exact (Option.some_ne_none _).symm
  · have hmem : queries executor ∈ phases executor := by simp [phases]
    rw [hqueries]
    exact barrier_ne_cycle hmem config s name

theorem ownBarrier_of_mem {executor : Executor} (h : p ∈ phases executor) : OwnBarrier p := by
  simp only [phases, List.mem_cons, List.not_mem_nil, or_false] at h
  rcases h with rfl | rfl | rfl | rfl | rfl
  · exact .inl rfl
  · exact .inl rfl
  · exact .inl rfl
  · exact .inr ⟨executor, rfl⟩
  · exact .inl rfl

theorem extends_runAll_of_ownBarrier {ps : List Phase} (h : ∀ p ∈ ps, OwnBarrier p)
    (s : RunState) : Extends s.graph (Phase.runAll registry config ps s).1.graph :=
  Phase.StaysWithin.runAll Extends.refl
    (fun p _ => Phase.staysWithin_extends p registry config)
    (fun p hp s => (publishes_of_ownBarrier (h p hp) config s).toExtends)
    extends_propagateFailures s

/-- **Runs only add, and each module for itself.** Take phases of whatever steps, whose
barriers are those of this library.

* However a run of them ends, every module is what it was, every provider that was
  there is there with its value, every edge that was there is there, and the errors
  of a module begin with those that it had.
* The commit of an outcome changes the providers, the errors and the outgoing edges
  of its own module only, and no module itself. That of a step that failed adds its
  error, and no provider or edge.
* So after the waves of a phase, a module whose step failed in one of them has one
  error, and the providers and edges with which the phase began.
* A phase that ends the run by a cycle changes nothing. -/
theorem runs_only_add (registry : Registry) (config : Config) (ps : List Phase)
    (hbarriers : ∀ p ∈ ps, OwnBarrier p) :
    (∀ s s' result, Phase.runAll registry config ps s = (s', result) →
      s'.graph.size = s.graph.size ∧
      (∀ id, s'.graph.module id = s.graph.module id) ∧
      (∀ id kind q, s.graph.provider? id kind = some q → s'.graph.provider? id kind = some q) ∧
      (∀ e ∈ s.graph.edges, e ∈ s'.graph.edges) ∧
      ∀ id, s.graph.errors id <+: s'.graph.errors id) ∧
    (∀ (g g' : Graph) phase id o fault, g.commit phase id o = (g', fault) →
      g'.size = g.size ∧ g'.module id = g.module id ∧
      (∀ other, other ≠ id → g'.node other = g.node other) ∧
      (∀ e : Edge, e.source ≠ id → (e ∈ g'.edges ↔ e ∈ g.edges)) ∧
      ∀ e, o = .ran (.error e) → id < g.size →
        fault = none ∧ g'.errors id = g.errors id ++ [e] ∧
        (g'.node id).store = (g.node id).store ∧ g'.edges = g.edges) ∧
    (∀ (p : Phase) (s : RunState) waves summary g counted, s.graph.waves p.order = some waves →
      p.runWaves registry config s.graph summary waves = (g, .ok counted) →
      ∀ w ∈ p.history registry config s.graph, ∀ id ∈ w.modules, ∀ e,
        p.outcome ⟨w.before, registry, config, id⟩ = .ok (.ran (.error e)) →
          s.graph.errors id = [] ∧ g.errors id = [e] ∧
          (g.node id).store = (s.graph.node id).store ∧
          ∀ edge : Edge, edge.source = id → (edge ∈ g.edges ↔ edge ∈ s.graph.edges)) ∧
    ∀ p ∈ ps, ∀ s s' name,
      p.run registry config s = (s', .error (.graph (.cycle name))) → s' = s := by
  refine ⟨?_, ?_, ?_, ?_⟩
  · intro s s' result hrun
    have hext : Extends s.graph (Phase.runAll registry config ps s).1.graph :=
      extends_runAll_of_ownBarrier hbarriers s
    rw [hrun] at hext
    exact ⟨hext.size, hext.module, fun id kind q => hext.provider?, fun e => hext.mem_edges,
      hext.errors⟩
  · intro g g' phase id o fault hcommit
    have hat := extendsAt_commit g phase id o
    rw [hcommit] at hat
    refine ⟨hat.size, hat.module id, hat.node, ?_, ?_⟩
    · intro e hsource
      exact ⟨fun he => (hat.own e he).resolve_right hsource, hat.toExtends.mem_edges⟩
    · rintro e rfl hid
      obtain ⟨rfl, rfl⟩ := Prod.mk.inj hcommit
      refine ⟨rfl, errors_recordError hid e, ?_, edges_modifyNode _⟩
      rw [recordError, node_modifyNode_self _ hid]
  · intro p s waves summary g counted hwaves hrun w hw id hid e ho
    exact (Phase.HistoryDone.of_runWaves hwaves hrun).of_error hw hid ho
  · intro p hp s s' name hrun
    have hcycle : (p.run registry config s).2 = .error (.graph (.cycle name)) := by rw [hrun]
    have hnone := (Phase.run_eq_cycle_iff fun s =>
      ne_cycle_of_ownBarrier (hbarriers p hp) config s name).mp hcycle
    have hsame : (p.run registry config s).1 = s := Phase.run_of_no_waves hnone.2
    rwa [hrun] at hsame

/-! The two modules that need each other, whose conversions meet with the cycle. -/

theorem circular_run_keeps_its_edges :
    (∃ s', conversions.run circularTypes circularConfig
        (RunState.ofGraph (discoveredGraph circularTypes circularConfig circularGraph)) =
          (s', .error (.graph (.cycle "convert"))) ∧
      s' = RunState.ofGraph (discoveredGraph circularTypes circularConfig circularGraph)) ∧
    ⟨0, 1, .ordinary⟩ ∈ (Phase.runAll circularTypes circularConfig (phases Executor.none)
      (RunState.ofGraph (discoveredGraph circularTypes circularConfig circularGraph))).1.graph.edges := by
  have hbarriers : ∀ p ∈ phases Executor.none, OwnBarrier p := fun p => ownBarrier_of_mem
  have hcycle : (conversions.run circularTypes circularConfig
      (RunState.ofGraph (discoveredGraph circularTypes circularConfig circularGraph))).2 =
        .error (.graph (.cycle "convert")) := by
    decide +kernel
  have hedge : ⟨0, 1, .ordinary⟩ ∈
      (discoveredGraph circularTypes circularConfig circularGraph).edges := by
    decide +kernel
  obtain ⟨hkept, -, -, hstopped⟩ :=
    runs_only_add circularTypes circularConfig (phases Executor.none) hbarriers
  refine ⟨⟨_, Prod.ext rfl hcycle, ?_⟩, ?_⟩
  · exact hstopped conversions (by simp [phases]) _ _ "convert" (Prod.ext rfl hcycle)
  · exact (hkept _ _ _ rfl).2.2.2.1 _ hedge

end Build

end TargetGen
