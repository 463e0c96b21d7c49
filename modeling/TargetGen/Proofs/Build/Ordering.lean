import TargetGen.Proofs.Build.Conversions
import TargetGen.Proofs.Build.Dependencies
import TargetGen.Proofs.Graph.Level
import TargetGen.SourceTree.Listing

/-!
# Ordering — only the conversions can meet with a cycle

The edges that order modules are those of discovery. It finds its own levels on a
graph without edges; what later phases add is conversion-only and orders nothing
(`sameOrder_run`). So the graph has levels at every later time or at none, and
the first phase that asks for them is the one of the conversions.

What is true of the edges at every time of a build, however it ends, comes from what
its steps ask for (`holds_of_build`): no edge is there twice or leads from a module to
itself, and both ends are modules of the graph.
-/

namespace TargetGen

open TargetGen.Graph

theorem Phase.run_eq_cycle_iff {p : Phase} {registry : Registry} {config : Config} {s : RunState}
    {name : String} (hbarrier : ∀ s, (p.barrier config s).2 ≠ some (.graph (.cycle name))) :
    (p.run registry config s).2 = .error (.graph (.cycle name)) ↔
      name = p.name ∧ s.graph.waves p.order = none := by
  unfold Phase.run
  split
  next hnone => simp [hnone, eq_comm]
  next waves hw =>
    have hno : ¬ (name = p.name ∧ s.graph.waves p.order = none) := by simp [hw]
    refine iff_of_false ?_ hno
    split
    next => simp
    next g counted _ =>
      have hquiet := hbarrier { s with graph := g }
      split
      next sb abort hb =>
        rw [hb] at hquiet
        intro heq
        exact hquiet (congrArg some (Except.error.inj heq))
      next => simp

/-- No edge is there twice, and none leads from a module to itself. -/
structure Graph.Simple (g : Graph) : Prop where
  nodup : g.edges.Nodup
  loopless : ∀ e ∈ g.edges, e.source ≠ e.target

theorem Graph.Simple.of_edges_eq {g g' : Graph} (h : g.Simple) (heq : g'.edges = g.edges) :
    g'.Simple := ⟨heq ▸ h.nodup, heq ▸ h.loopless⟩

namespace Build

variable {registry : Registry} {config : Config} {executor : Executor} {g : Graph}
  {s s' : RunState} {p : Phase}

/-- The graph that discovery leaves. -/
def discoveredGraph (registry : Registry) (config : Config) (g : Graph) : Graph :=
  (discovery.run registry config (RunState.ofGraph g)).1.graph

/-- The phases that come after discovery. -/
def afterDiscovery (executor : Executor) : List Phase :=
  [decisions, conversions, queries executor, consumption]

theorem mem_phases_of_afterDiscovery (h : p ∈ afterDiscovery executor) : p ∈ phases executor :=
  List.mem_cons_of_mem discovery h

/-! ## Edges that order modules -/

theorem stepsAdd_afterDiscovery (hp : p ∈ afterDiscovery executor) :
    p.StepsAdd registry config fun e => e.tag = .conversionOnly := by
  have hquiet : p ∈ [decisions, queries executor, consumption] →
      p.StepsAdd registry config fun e => e.tag = .conversionOnly := by
    intro hp g id output hstep d hd
    rw [edges_eq_nil hp hstep] at hd
    cases hd
  simp only [afterDiscovery, List.mem_cons, List.not_mem_nil, or_false] at hp
  rcases hp with rfl | rfl | rfl | rfl
  · exact hquiet (by simp)
  · intro g id output hstep d hd
    obtain ⟨_, -, ⟨-, rfl⟩ | ⟨targets, r, -, rfl⟩⟩ := convert_eq_ok hstep
    · cases hd
    · obtain ⟨target, -, rfl⟩ := List.mem_map.mp hd
      rfl
  · exact hquiet (by simp)
  · exact hquiet (by simp)

/-- **What orders modules is settled by discovery.** However a later phase ends, the
edges that order modules are those with which it began. -/
theorem sameOrder_run (hp : p ∈ afterDiscovery executor) (s : RunState) :
    SameOrder s.graph (p.run registry config s).1.graph := by
  have hpublishes := fun s => publishes_barrier (mem_phases_of_afterDiscovery hp) config s
  have hext : Extends s.graph (p.run registry config s).1.graph :=
    (Phase.staysWithin_extends p registry config).run (fun s => (hpublishes s).toExtends)
      extends_propagateFailures s
  refine ⟨hext.size, fun e horders => ⟨fun he => ?_, hext.mem_edges⟩⟩
  rcases (stepsAdd_afterDiscovery hp).run (fun s => (hpublishes s).edges_eq) s e he with
    hold | hnew
  · exact hold
  · rw [hnew] at horders
    cases horders

/-! ## Every graph of a build -/

/-- No step asks for an edge from its module to itself: such a pair is exempt. -/
theorem stepsAdd_noLoop (hp : p ∈ phases executor) :
    p.StepsAdd registry config fun e => e.source ≠ e.target := by
  intro g id output hstep d hd hloop
  have hadmitted :=
    (admitsEdges_phases registry config executor p hp g id output hstep d hd).2
  obtain rfl : id = d.1 := hloop
  simp [EdgeExemptions.isExempt] at hadmitted

/-- **What holds of every graph of a build**, those of a build that is not completed as
well: what holds of a graph without edges, does not depend on providers and errors, and
is kept by the commits of the phases. -/
theorem holds_of_build {P : Graph → Prop} {g' : Graph} (hstart : P g)
    (hedges : ∀ {g g' : Graph}, Extends g g' → g'.edges = g.edges → P g → P g')
    (hcommit : ∀ p ∈ phases executor, p.StaysWithin registry config fun g g' => P g → P g')
    (hg' : Phase.Passes registry config (phases executor) (RunState.ofGraph g) g' ∨
      g' = (runOn registry config executor g).1.graph) : P g' := by
  have hbarrier : ∀ p ∈ phases executor, ∀ s : RunState,
      P s.graph → P (p.barrier config s).1.graph := fun p hp s =>
    hedges (publishes_barrier hp config s).toExtends (publishes_barrier hp config s).edges_eq
  have hspread : ∀ g : Graph, P g → P g.propagateFailures.1 := fun g =>
    hedges (extends_propagateFailures g) (edges_propagateFailures g)
  rcases hg' with hpasses | rfl
  · exact Phase.StaysWithin.passes (fun _ h => h) hcommit hbarrier hspread hpasses hstart
  · exact Phase.StaysWithin.runAll (fun _ h => h) hcommit hbarrier hspread (RunState.ofGraph g)
      hstart

/-- **Every graph of a build is simple.** -/
theorem simple_of_build {g' : Graph} (hfresh : g.Fresh)
    (hg' : Phase.Passes registry config (phases executor) (RunState.ofGraph g) g' ∨
      g' = (runOn registry config executor g).1.graph) : g'.Simple := by
  refine holds_of_build ⟨by simp [hfresh.edges], by simp [hfresh.edges]⟩
    (fun _ hsame hs => hs.of_edges_eq hsame) (fun p hp => ?_) hg'
  refine ⟨fun _ h => h, fun h h' hg => h' (h hg), fun hext hid ho hg => ⟨?_, fun e he => ?_⟩⟩
  · exact (Phase.staysWithin_nodup p registry config).commit hext hid ho hg.nodup
  · exact ((stepsAdd_noLoop hp).staysWithin.commit hext hid ho e he).elim (hg.loopless e)
      fun hloop => hloop

/-- **Every graph of a build has both ends of its edges inside**: the step of a module
asks for edges to modules that it has looked up. -/
theorem edgesInside_of_build {g' : Graph} (hfresh : g.Fresh)
    (hg' : Phase.Passes registry config (phases executor) (RunState.ofGraph g) g' ∨
      g' = (runOn registry config executor g).1.graph) : g'.EdgesInside := by
  refine holds_of_build (edgesInside_of_edges_nil hfresh.edges)
    (fun hext hsame hs => hs.of_edges_eq hext.size hsame) (fun p hp => ?_) hg'
  refine ⟨fun _ h => h, fun h h' hg => h' (h hg), fun {before g id o} hext hid ho hg e he => ?_⟩
  rw [(extendsAt_commit g p.name id o).size]
  rcases mem_edges_of_commit he with hold | ⟨rfl, hnew⟩
  · exact hg e hold
  · obtain ⟨output, rfl⟩ := Outcome.eq_ran_of_mem_edges hnew
    have hstep := (Phase.outcome_eq_ran ho).2.2
    have htarget :=
      (admitsEdges_phases registry config executor p hp before _ output hstep _ hnew).1
    exact ⟨hid, hext.size ▸ htarget⟩

theorem ordersInside_discoveredGraph (hfresh : g.Fresh) :
    (discoveredGraph registry config g).OrdersInside := by
  obtain ⟨s₁, _, _, _, hdiscovery, -⟩ := exists_decided registry config hfresh
  have hpasses : Phase.Passes registry config (phases Executor.none) (RunState.ofGraph g)
      s₁.graph := .phase hdiscovery .start
  rw [discoveredGraph, hdiscovery]
  exact (edgesInside_of_build hfresh (.inl hpasses)).ordersInside

/-! ## Whole builds -/

theorem barrier_ne_cycle (hp : p ∈ phases executor) (config : Config) (s : RunState)
    (name : String) : (p.barrier config s).2 ≠ some (.graph (.cycle name)) := by
  simp only [phases, List.mem_cons, List.not_mem_nil, or_false] at hp
  rcases hp with rfl | rfl | rfl | rfl | rfl
  · exact Option.some_ne_none _ |>.symm
  · exact Option.some_ne_none _ |>.symm
  · exact Option.some_ne_none _ |>.symm
  · show (answerAll executor s).2 ≠ _
    rcases answerAll_cases executor s with h | ⟨e, h⟩ | ⟨answers, h⟩
    · simp [h]
    · simp [h]
    · simp [h]
  · exact Option.some_ne_none _ |>.symm

theorem runOn_eq_error_iff {abort : Abort} :
    (runOn registry config executor g).2 = .error abort ↔
      (Phase.runAll registry config (phases executor) (RunState.ofGraph g)).2 = .error abort :=
  map_eq_error_iff

theorem run_eq_cycle_iff (hp : p ∈ afterDiscovery executor) (hinside : s.graph.OrdersInside)
    (name : String) :
    (p.run registry config s).2 = .error (.graph (.cycle name)) ↔
      name = p.name ∧ p.order ≠ .parallel ∧ s.graph.Cyclic := by
  rw [Phase.run_eq_cycle_iff fun s =>
      barrier_ne_cycle (mem_phases_of_afterDiscovery hp) config s name,
    waves_eq_none_iff hinside]

theorem cyclic_of_runAll {ps : List Phase} {name : String}
    (hps : ∀ p ∈ ps, p ∈ afterDiscovery executor) (hinside : s.graph.OrdersInside)
    (h : (Phase.runAll registry config ps s).2 = .error (.graph (.cycle name))) :
    s.graph.Cyclic := by
  induction ps generalizing s with
  | nil => cases h
  | cons p rest ih =>
    have hp := hps p List.mem_cons_self
    rcases Phase.runAll_cons_eq_error h with hfirst | ⟨s₁, summary, hrun, hlater⟩
    · exact ((run_eq_cycle_iff hp hinside name).mp hfirst).2.2
    · have hsame : SameOrder s.graph (p.run registry config s).1.graph := sameOrder_run hp s
      rw [hrun] at hsame
      exact hsame.cyclic_iff.mp (ih (fun q hq => hps q (List.mem_cons_of_mem p hq))
        (hsame.ordersInside hinside) hlater)

/-- **Who reports a cycle.** Discovery and decisions never do; the conversions do if
what discovery found is cyclic; and after them it is not. -/
theorem runOn_eq_cycle_iff (hfresh : g.Fresh) (name : String) :
    (runOn registry config executor g).2 = .error (.graph (.cycle name)) ↔
      name = "convert" ∧ (discoveredGraph registry config g).Cyclic := by
  obtain ⟨s₁, summary₁, s₂, summary₂, hdiscovery, hdecisions, -, -⟩ :=
    exists_decided registry config hfresh
  have hgraph : discoveredGraph registry config g = s₁.graph := by
    rw [discoveredGraph, hdiscovery]
  have hin : ∀ p ∈ [decisions, conversions, queries executor, consumption],
      p ∈ afterDiscovery executor := fun _ hp => hp
  have hsame : SameOrder s₁.graph s₂.graph := by
    have hsame : SameOrder s₁.graph (decisions.run registry config s₁).1.graph :=
      sameOrder_run (hin decisions (by simp)) s₁
    rwa [hdecisions] at hsame
  have hinside : s₂.graph.OrdersInside :=
    hsame.ordersInside (hgraph ▸ ordersInside_discoveredGraph hfresh)
  have hconversions : ∀ name, (conversions.run registry config s₂).2 =
      .error (.graph (.cycle name)) ↔
        name = conversions.name ∧ conversions.order ≠ .parallel ∧ s₂.graph.Cyclic :=
    run_eq_cycle_iff (hin conversions (by simp)) hinside
  have hlast : (runOn registry config executor g).2 = .error (.graph (.cycle name)) ↔
      (Phase.runAll registry config [conversions, queries executor, consumption] s₂).2 =
        .error (.graph (.cycle name)) := by
    rw [runOn_eq_error_iff, phases, Phase.runAll_cons_of_ok hdiscovery,
      Phase.runAll_cons_of_ok hdecisions, map_eq_error_iff, map_eq_error_iff]
  rw [hlast, hgraph, ← hsame.cyclic_iff]
  constructor
  · intro h
    have hcyclic : s₂.graph.Cyclic :=
      cyclic_of_runAll (fun p hp => hin p (List.mem_cons_of_mem _ hp)) hinside h
    -- so the conversions have reported it, and under their name
    have hcycle := (hconversions conversions.name).mpr ⟨rfl, by decide, hcyclic⟩
    rcases Phase.runAll_cons_eq_error h with hfirst | ⟨s₃, summary₃, hrun, -⟩
    · exact ⟨((hconversions name).mp hfirst).1, hcyclic⟩
    · rw [hrun] at hcycle
      cases hcycle
  · rintro ⟨rfl, hcyclic⟩
    have hcycle := (hconversions "convert").mpr ⟨rfl, by decide, hcyclic⟩
    cases hrun : conversions.run registry config s₂ with
    | mk s₃ result =>
      rw [hrun] at hcycle
      obtain rfl : result = .error (.graph (.cycle "convert")) := hcycle
      rw [Phase.runAll_cons_of_error hrun]

/-- **Edges that order modules are frozen after discovery.** Take a build whose modules
were loaded.

* However one of the later phases ends, it leaves the edges that order modules as
  they were. The conversions, when they are completed, add an edge for each module
  in the record of a conversion that succeeded, and no others.
* No graph of the build holds an edge twice, or one from a module to itself.
* The build reports a cycle if and only if the edges that discovery committed make
  one, and then in the phase of the conversions, whatever cycles the edges make
  that order nothing. -/
theorem ordering_is_frozen {modules : List Module} (executor : Executor)
    (hload : Graph.ofModules registry modules = .ok g) :
    (∀ p ∈ afterDiscovery executor, ∀ s : RunState, ∀ e : Edge, e.tag.orders = true →
      (e ∈ (p.run registry config s).1.graph.edges ↔ e ∈ s.graph.edges)) ∧
    (∀ s s' summary, conversions.run registry config s = (s', .ok summary) → ∀ e : Edge,
      e ∈ s'.graph.edges ↔ e ∈ s.graph.edges ∨ e.tag = .conversionOnly ∧
        ∃ w ∈ conversions.history registry config s.graph, ∃ targets r,
          ConvertedIn registry config w e.source targets r ∧ e.target ∈ r.edges) ∧
    (∀ g', Phase.Passes registry config (phases executor) (RunState.ofGraph g) g' ∨
        g' = (runOn registry config executor g).1.graph → g'.Simple) ∧
    ∀ name, run registry config executor modules = .error (.graph (.cycle name)) ↔
      name = "convert" ∧ (discoveredGraph registry config g).Cyclic := by
  have hfresh := fresh_ofModules hload
  refine ⟨fun p hp s e => (sameOrder_run hp s).edges e,
    fun s s' summary hrun e => mem_edges_conversions hrun,
    fun g' => simple_of_build hfresh, fun name => ?_⟩
  rw [← runOn_eq_cycle_iff hfresh, run, hload]

/-! Two modules that need each other. -/

def circularTypes : Registry :=
  Registry.empty.register "lib" ⟨.native, DependencyProperty.standard⟩

def circularConfig : Config := Config.ofTree Listing.empty.sourceTree

def circularModules : List Module :=
  [(Module.plain "a" "lib" "").withProp "deps" (.list ["b"]),
   (Module.plain "b" "lib" "").withProp "deps" (.list ["a"])]

def circularGraph : Graph :=
  (Graph.ofModules circularTypes circularModules).toOption.getD default

theorem circular_run_reports_conversions :
    run circularTypes circularConfig Executor.none circularModules =
      .error (.graph (.cycle "convert")) := by
  have hload : Graph.ofModules circularTypes circularModules = .ok circularGraph := rfl
  have hforth : ⟨0, 1, .ordinary⟩ ∈
      (discoveredGraph circularTypes circularConfig circularGraph).edges := by
    decide +kernel
  have hback : ⟨1, 0, .ordinary⟩ ∈
      (discoveredGraph circularTypes circularConfig circularGraph).edges := by
    decide +kernel
  have hcyclic : (discoveredGraph circularTypes circularConfig circularGraph).Cyclic :=
    ⟨0, .tail (.single ⟨_, hforth, rfl, rfl, rfl⟩) ⟨_, hback, rfl, rfl, rfl⟩⟩
  have hcycle : ∀ name, run circularTypes circularConfig Executor.none circularModules =
      .error (.graph (.cycle name)) ↔ name = "convert" ∧
        (discoveredGraph circularTypes circularConfig circularGraph).Cyclic :=
    (ordering_is_frozen Executor.none hload).2.2.2
  exact (hcycle "convert").mpr ⟨rfl, hcyclic⟩

end Build

end TargetGen
