import TargetGen.Proofs.Build.Fault
import TargetGen.Proofs.Build.Report
import TargetGen.Proofs.Phase.Additions
import TargetGen.Proofs.Phase.Order

/-!
# Conversions — whose conversion succeeds, and what that leaves

A module is visited once by the conversions. Its conversion succeeds in the wave
of that visit or not at all (`ConvertedIn.unique`), and what succeeds is committed
as it is: an edge for each module that it noted, the names that it listed, and its
targets. Nothing takes these back later, but the module may still fail.

That a positive decision finds a converter is no matter of this phase. A module has
the capability of its registered type, only a convertible one is decided to
convert, and a type of that capability has a converter.
-/

namespace TargetGen

open TargetGen.Graph

/-! ## Decisions and converters -/

theorem Module.isConvertible_of_decide {m : Module} {config : Config}
    (h : (m.decide config).convert = true) : m.capability.isConvertible = true := by
  cases hcapability : m.capability.isConvertible with
  | true => rfl
  | false =>
    simp only [decide, hcapability] at h
    cases h

theorem Ability.exists_converter {ability : Ability}
    (h : ability.capability.isConvertible = true) : ∃ c, ability.converter? = some c := by
  cases ability with
  | native => cases h
  | convertible c => exact ⟨c, rfl⟩
  | mixed c builder => exact ⟨c, rfl⟩

/-- **A positive decision finds a converter.** -/
theorem Graph.Typed.exists_converter {registry : Registry} {config : Config} {g : Graph}
    {id : ModuleId} (h : g.Typed registry) (hid : id < g.size)
    (hconvert : ((g.module id).decide config).convert = true) :
    ∃ c, registry.converter? (g.module id) = some c := by
  obtain ⟨type, htype, hcapability⟩ := h id hid
  have hconvertible := Module.isConvertible_of_decide hconvert
  rw [hcapability] at hconvertible
  obtain ⟨c, hc⟩ := Ability.exists_converter hconvertible
  exact ⟨c, Option.bind_eq_some_iff.mpr ⟨type, htype, hc⟩⟩

namespace Build

variable {registry : Registry} {config : Config} {executor : Executor} {g : Graph}
  {s s' : RunState} {report : BuildReport} {id : ModuleId} {w : StartedWave}
  {targets : List Target} {r : ReferenceRecord}

/-- The graph on which the conversions of a build begin. -/
def decidedGraph (registry : Registry) (config : Config) (g : Graph) : Graph :=
  (Phase.runAll registry config [discovery, decisions] (RunState.ofGraph g)).1.graph

/-! ## What conversions begin on -/

theorem exists_run_of_noBarrier {p : Phase} (hbarrier : p.barrier = Phase.noBarrier)
    (hw : s.graph.waves p.order ≠ none)
    (hfault : ∀ fault, (p.run registry config s).2 ≠ .error (.fault fault)) :
    ∃ s' summary, p.run registry config s = (s', .ok summary) := by
  obtain ⟨g, counted, -, hrun⟩ := Phase.run_eq_finish hw hfault
  rw [hrun, Phase.finish, hbarrier]
  exact ⟨_, _, rfl⟩

/-- **Discovery and decisions are always completed.** Nothing orders the modules yet,
and then nothing has to. -/
theorem exists_decided (registry : Registry) (config : Config) (hfresh : g.Fresh) :
    ∃ s₁ summary₁ s₂ summary₂,
      discovery.run registry config (RunState.ofGraph g) = (s₁, .ok summary₁) ∧
      decisions.run registry config s₁ = (s₂, .ok summary₂) ∧
      s₁.graph.KindsBelow 1 ∧ decidedGraph registry config g = s₂.graph := by
  have hkinds : (RunState.ofGraph g).graph.KindsBelow 0 := .of_fresh hfresh
  have hwaves : (RunState.ofGraph g).graph.waves discovery.order ≠ none := by
    obtain ⟨waves, hwaves, -⟩ := waves_of_edges_nil hfresh.edges discovery.order
    exact Option.ne_none_iff_exists'.mpr ⟨waves, hwaves⟩
  have hfault₁ : ∀ fault, (discovery.run registry config (RunState.ofGraph g)).2 ≠
      .error (.fault fault) :=
    emits_discovery.run_ne_fault hkinds (faultless_of_total fun _ _ hno => by cases hno)
      (noBarrier_keeps rfl)
  obtain ⟨s₁, summary₁, hdiscovery⟩ := exists_run_of_noBarrier rfl hwaves hfault₁
  have hkinds₁ : s₁.graph.KindsBelow 1 :=
    emits_discovery.kindsBelow_run hkinds (noBarrier_keeps rfl) hdiscovery
  have hfault₂ : ∀ fault, (decisions.run registry config s₁).2 ≠ .error (.fault fault) :=
    emits_decisions.run_ne_fault hkinds₁ (faultless_of_total fun _ _ hno => by cases hno)
      (noBarrier_keeps rfl)
  have hparallel : s₁.graph.waves decisions.order ≠ none := Option.some_ne_none _
  obtain ⟨s₂, summary₂, hdecisions⟩ := exists_run_of_noBarrier rfl hparallel hfault₂
  refine ⟨s₁, summary₁, s₂, summary₂, hdiscovery, hdecisions, hkinds₁, ?_⟩
  rw [decidedGraph, Phase.runAll_cons_of_ok hdiscovery, Phase.runAll_cons_of_ok hdecisions]
  rfl

theorem extends_decidedGraph (registry : Registry) (config : Config) (g : Graph) :
    Extends g (decidedGraph registry config g) :=
  Phase.StaysWithin.runAll Extends.refl
    (fun p _ => Phase.staysWithin_extends p registry config)
    (fun p hp s => by
      rcases List.mem_pair.mp hp with rfl | rfl
      · exact Extends.refl s.graph
      · exact Extends.refl s.graph)
    extends_propagateFailures (RunState.ofGraph g)

theorem kindsBelow_decidedGraph (registry : Registry) (config : Config) (hfresh : g.Fresh) :
    (decidedGraph registry config g).KindsBelow 2 := by
  obtain ⟨s₁, _, s₂, _, -, hdecisions, hkinds, hgraph⟩ := exists_decided registry config hfresh
  rw [hgraph]
  exact emits_decisions.kindsBelow_run hkinds (noBarrier_keeps rfl) hdecisions

/-- **The phases of a build from the conversions on.** -/
theorem exists_later_runs (hrun : runOn registry config executor g = (s, .ok report)) :
    ∃ s₂ s₃ s₄ summary₃ summary₄ summary₅, s₂.graph = decidedGraph registry config g ∧
      conversions.run registry config s₂ = (s₃, .ok summary₃) ∧
      (queries executor).run registry config s₃ = (s₄, .ok summary₄) ∧
      consumption.run registry config s₄ = (s, .ok summary₅) ∧ Extends g s₄.graph := by
  obtain ⟨summaries, hall⟩ := runOn_eq_ok hrun
  have hsplit : phases executor =
      [discovery, decisions] ++ [conversions, queries executor, consumption] := rfl
  rw [hsplit] at hall
  obtain ⟨s₂, _, _, hfirst, hall⟩ := Phase.runAll_append_eq_ok hall
  obtain ⟨s₃, summary₃, _, hconversions, hall⟩ := Phase.runAll_cons_eq_ok hall
  obtain ⟨s₄, summary₄, _, hqueries, hall⟩ := Phase.runAll_cons_eq_ok hall
  obtain ⟨s₅, summary₅, _, hconsumption, hall⟩ := Phase.runAll_cons_eq_ok hall
  obtain rfl := (Prod.mk.inj hall).1
  have hgraph : s₂.graph = decidedGraph registry config g := by rw [decidedGraph, hfirst]
  refine ⟨s₂, s₃, s₄, summary₃, summary₄, summary₅, hgraph, hconversions, hqueries,
    hconsumption, ?_⟩
  have hfour : Phase.runAll registry config [conversions, queries executor] s₂ =
      (s₄, .ok [summary₃, summary₄]) := by
    rw [Phase.runAll_cons_of_ok hconversions, Phase.runAll_cons_of_ok hqueries]
    rfl
  have hphases : ∀ p ∈ [conversions, queries executor], p ∈ phases executor := by
    intro p hp
    rcases List.mem_pair.mp hp with rfl | rfl <;> simp [phases]
  have hlater : Extends s₂.graph s₄.graph := extends_runAll hphases hfour
  exact (hgraph ▸ extends_decidedGraph registry config g).trans hlater

/-- **A decision is the one for its module.** -/
theorem decision_of_decidedGraph {d : Decision} (hfresh : g.Fresh)
    (h : (decidedGraph registry config g).provider? id .decision = some (.decision d)) :
    d = (g.module id).decide config := by
  have hext := extends_decidedGraph registry config g
  obtain ⟨s₁, _, s₂, _, -, hdecisions, hkinds, hgraph⟩ := exists_decided registry config hfresh
  rw [hgraph] at h hext
  obtain ⟨g₂, sb, hdone, hb, rfl⟩ := Phase.historyDone_of_run hdecisions
  obtain rfl : { s₁ with graph := g₂ } = sb := (Prod.mk.inj hb).1
  have h : g₂.provider? id .decision = some (.decision d) := by
    rwa [← provider?_propagateFailures]
  have hid : id < s₁.graph.size := by
    by_contra hno
    rw [Graph.provider?, node_of_size_le (hdone.extends_start.size ▸ Nat.le_of_not_lt hno)] at h
    cases h
  obtain ⟨w, hw, hmem⟩ := hdone.exists_wave hid
  obtain ⟨o, hdealt⟩ := hdone.dealt w hw id hmem
  have hnew : .decision ∈ o.providers.map Provider.kind := by
    have hkind := mem_kinds_of_provider? h
    rw [hdealt.gained.kinds, List.mem_append] at hkind
    exact hkind.resolve_left fun hold => Nat.lt_irrefl 1 (hkinds id .decision hold)
  obtain ⟨_, hq, -⟩ := List.mem_map.mp hnew
  obtain ⟨output, rfl⟩ := Outcome.eq_ran_of_mem_providers hq
  obtain ⟨-, -, hstep⟩ := Phase.outcome_eq_ran hdealt.outcome
  obtain rfl := Except.ok.inj (Except.ok.inj hstep)
  have hfound := hdealt.gained.provider (.decision _) List.mem_cons_self
  obtain rfl := Provider.decision.inj (Option.some.inj (h.symm.trans hfound))
  have hmodule : w.before.module id = g.module id := by
    rw [← hext.module, module_propagateFailures, hdealt.extends_before.module]
  rw [← hmodule]
  rfl

/-! ## Success -/

/-- The conversion of a module succeeded in a wave: its step was run on the graph
that the wave saw, and came to `targets` with the record `r`. -/
structure ConvertedIn (registry : Registry) (config : Config) (w : StartedWave) (id : ModuleId)
    (targets : List Target) (r : ReferenceRecord) : Prop where
  visited : id ∈ w.modules
  ran : conversions.RunsStep ⟨w.before, registry, config, id⟩
  converts : Converts ⟨w.before, registry, config, id⟩ targets r

theorem ConvertedIn.outcome (h : ConvertedIn registry config w id targets r) :
    conversions.outcome ⟨w.before, registry, config, id⟩ =
      .ok (.ran (.ok (converted targets r))) := by
  have hstep : conversions.step ⟨w.before, registry, config, id⟩ =
      .ok (.ok (converted targets r)) := h.converts.convert_eq
  rw [h.ran, hstep]
  rfl

/-- A module whose step comes to something has a conversion that succeeded, unless
there was nothing to be done. -/
theorem convertedIn_of_outcome {output : StepOutput} (hid : id ∈ w.modules)
    (h : conversions.outcome ⟨w.before, registry, config, id⟩ = .ok (.ran (.ok output))) :
    (output = StepOutput.empty ∧ (w.before.decidedToConvert id = true →
      registry.converter? (w.before.module id) = none)) ∨
      ∃ targets r, ConvertedIn registry config w id targets r ∧ output = converted targets r := by
  obtain ⟨-, -, hstep⟩ := Phase.outcome_eq_ran h
  have hruns : conversions.RunsStep ⟨w.before, registry, config, id⟩ := by
    rw [Phase.RunsStep, h, hstep]
    rfl
  obtain ⟨d, hd, ⟨hidle, houtput⟩ | ⟨targets, r, hconverts, houtput⟩⟩ := convert_eq_ok hstep
  · refine .inl ⟨houtput, fun hdecided => hidle.resolve_left fun hno => ?_⟩
    obtain ⟨d', hd', hconvert⟩ := decidedToConvert_iff.mp hdecided
    obtain rfl := Provider.decision.inj (Option.some.inj (hd.symm.trans hd'))
    rw [hno] at hconvert
    cases hconvert
  · exact .inr ⟨targets, r, ⟨hid, hruns, hconverts⟩, houtput⟩

/-- A step that came to something has read the decision that is there in the end. -/
theorem decidedToConvert_before {output : StepOutput} {g' : Graph}
    (h : conversions.outcome ⟨w.before, registry, config, id⟩ = .ok (.ran (.ok output)))
    (hext : Extends w.before g') (hdecided : g'.decidedToConvert id = true) :
    w.before.decidedToConvert id = true := by
  obtain ⟨d, hd, -⟩ := convert_eq_ok (Phase.outcome_eq_ran h).2.2
  obtain ⟨d', hd', hconvert⟩ := decidedToConvert_iff.mp hdecided
  obtain rfl := Provider.decision.inj (Option.some.inj ((hext.provider? hd).symm.trans hd'))
  exact decidedToConvert_iff.mpr ⟨d, hd, hconvert⟩

/-- **A conversion succeeds once**: in one wave, with one result. -/
theorem ConvertedIn.unique {w' : StartedWave} {targets' : List Target} {r' : ReferenceRecord}
    (hw : w ∈ conversions.history registry config g)
    (hw' : w' ∈ conversions.history registry config g)
    (h : ConvertedIn registry config w id targets r)
    (h' : ConvertedIn registry config w' id targets' r') :
    w' = w ∧ targets' = targets ∧ r' = r := by
  obtain rfl := Phase.wave_unique hw hw' h.visited h'.visited
  exact ⟨rfl, h.converts.unique h'.converts⟩

/-! ## Edges -/

/-- **Which edges the conversions add**: for each module whose conversion succeeded
those to the modules in its record, all of the one kind. -/
theorem mem_edges_conversions {summary : PhaseSummary} {e : Edge}
    (hrun : conversions.run registry config s = (s', .ok summary)) :
    e ∈ s'.graph.edges ↔ e ∈ s.graph.edges ∨ e.tag = .conversionOnly ∧
      ∃ w ∈ conversions.history registry config s.graph, ∃ targets r,
        ConvertedIn registry config w e.source targets r ∧ e.target ∈ r.edges := by
  rw [Phase.mem_edges_run (fun _ => rfl) hrun]
  refine or_congr_right ⟨?_, ?_⟩
  · rintro ⟨w, hw, hmem, output, ho, hnew⟩
    rcases convertedIn_of_outcome hmem ho with ⟨rfl, -⟩ | ⟨targets, r, hconverted, rfl⟩
    · cases hnew
    · obtain ⟨target, htarget, heq⟩ := List.mem_map.mp hnew
      obtain ⟨rfl, htag⟩ := Prod.mk.inj heq
      exact ⟨htag.symm, w, hw, targets, r, hconverted, htarget⟩
  · rintro ⟨htag, w, hw, targets, r, hconverted, htarget⟩
    refine ⟨w, hw, hconverted.visited, _, hconverted.outcome, ?_⟩
    rw [htag]
    exact List.mem_map_of_mem htarget

/-! ## Providers -/

theorem exists_dealt_conversions (hrun : runOn registry config executor g = (s, .ok report))
    (hid : id < s.graph.size) :
    ∃ w ∈ conversions.history registry config (decidedGraph registry config g), id ∈ w.modules ∧
      ∃ o g₃, conversions.Dealt registry config (decidedGraph registry config g) w id o g₃ ∧
        Extends g₃ s.graph := by
  have hsplit : phases executor =
      [discovery, decisions] ++ conversions :: [queries executor, consumption] := rfl
  obtain ⟨s₂, summaries, hfirst, hdealt⟩ := exists_dealt hsplit hrun hid
  have hgraph : decidedGraph registry config g = s₂.graph := by rw [decidedGraph, hfirst]
  rw [hgraph]
  exact hdealt

/-- **What a conversion that succeeded published** is there in the end. -/
theorem ConvertedIn.published (hrun : runOn registry config executor g = (s, .ok report))
    (hid : id < s.graph.size)
    (hw : w ∈ conversions.history registry config (decidedGraph registry config g))
    (h : ConvertedIn registry config w id targets r) :
    s.graph.provider? id .targets = some (.targets targets) ∧
      s.graph.provider? id .references = some (.references r.missing r.unconverted) := by
  obtain ⟨w', hw', hmem, o, g₃, hdealt, hext⟩ := exists_dealt_conversions hrun hid
  obtain rfl := Phase.wave_unique hw hw' h.visited hmem
  obtain rfl := Except.ok.inj (hdealt.outcome.symm.trans h.outcome)
  constructor
  · exact hext.provider? (hdealt.gained.provider (.targets _) (by simp [Outcome.providers, converted]))
  · exact hext.provider?
      (hdealt.gained.provider (.references _ _) (by simp [Outcome.providers, converted]))

/-- **Where a positive decision meets the conversions**, there is a converter. -/
theorem exists_converter_of_history {modules : List Module}
    (hload : Graph.ofModules registry modules = .ok g)
    (hw : w ∈ conversions.history registry config (decidedGraph registry config g))
    (hid : id ∈ w.modules) (hdecided : w.before.decidedToConvert id = true) :
    ∃ c, registry.converter? (w.before.module id) = some c := by
  have hext := extends_decidedGraph registry config g
  have hinside : id < g.size := hext.size ▸ Phase.lt_size_of_history hw hid
  obtain ⟨earlier, later, hsplit⟩ := List.append_of_mem hw
  have hnode := Phase.node_of_history hsplit hid
  obtain ⟨d, hd, hconvert⟩ := decidedToConvert_iff.mp hdecided
  rw [Graph.provider?, hnode, ← Graph.provider?] at hd
  obtain rfl := decision_of_decidedGraph (fresh_ofModules hload) hd
  rw [Graph.module, hnode, ← Graph.module, hext.module]
  exact (typed_ofModules hload).exists_converter hinside hconvert

/-- **Who is sound and was decided to convert** has had a conversion that succeeded. -/
theorem exists_convertedIn {modules : List Module}
    (hload : Graph.ofModules registry modules = .ok g)
    (hrun : runOn registry config executor g = (s, .ok report)) (hid : id < s.graph.size)
    (hsound : s.graph.isFailed id = false) (hdecided : s.graph.decidedToConvert id = true) :
    ∃ w ∈ conversions.history registry config (decidedGraph registry config g), ∃ targets r,
      ConvertedIn registry config w id targets r := by
  obtain ⟨w, hw, hmem, o, g₃, hdealt, hext⟩ := exists_dealt_conversions hrun hid
  obtain ⟨output, rfl⟩ := hdealt.ran_of_sound (hext.isFailed_eq_false hsound)
  refine ⟨w, hw, ?_⟩
  have hbefore : w.before.decidedToConvert id = true :=
    decidedToConvert_before hdealt.outcome (hdealt.extends_before.trans hext) hdecided
  obtain ⟨c, hc⟩ := exists_converter_of_history hload hw hmem hbefore
  rcases convertedIn_of_outcome hmem hdealt.outcome with ⟨-, hnone⟩ | ⟨targets, r, hconverted, -⟩
  · rw [hnone hbefore] at hc
    cases hc
  · exact ⟨targets, r, hconverted⟩

end Build

end TargetGen
