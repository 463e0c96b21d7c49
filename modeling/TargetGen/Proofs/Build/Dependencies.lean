import TargetGen.Proofs.Build.Report
import TargetGen.Proofs.Conversion
import TargetGen.Proofs.Phase.Order
import TargetGen.SourceTree.Listing

/-!
# Dependencies — which declared dependencies count

A declared dependency counts if it has its edge, since failures spread over
edges. Discovery sees the graph as it was loaded, adds the edges of all entries
at once, and leaves out the exempt ones. Whether a pair is exempt is asked of the
names of its modules; and a name belongs to one module in each namespace, not to
one module of the graph. So two modules of one name in different namespaces are
taken for one that refers to itself, and the failure of one of them never reaches
the other (`namesake_failure_is_ignored`).

All else counts. No edge of a build joins modules of one name
(`noneExempt_runOn`), and apart from the tables every entry makes its edge
exactly when the names differ (`edge_iff_names_differ`).
-/

namespace TargetGen

open TargetGen.Graph

variable {registry : Registry} {config : Config} {executor : Executor} {g g' : Graph}
  {s s' : RunState} {report : BuildReport}

/-! ## What discovery adds -/

/-- An entry of a dependency property of a module names another one, with the tag
of the property. -/
def Build.Declares (v : Viewpoint) (name : String) (tag : DepTag) : Prop :=
  ∃ type property entry reference, v.registry.get? v.module.moduleType = some type ∧
    property ∈ type.dependencyProperties ∧ entry ∈ v.module.list property.property ∧
    v.reference? entry = .ok reference ∧
    Build.declared property.kind entry reference = some (name, tag)

namespace Build

theorem orders_of_declared {kind : ReferenceKind} {entry name : String} {tag : DepTag}
    {reference : Option Reference} (h : declared kind entry reference = some (name, tag)) :
    tag.orders = true := by
  unfold declared at h
  split at h
  next => obtain ⟨-, rfl⟩ := Prod.mk.inj (Option.some.inj h); rfl
  next => cases h
  next => obtain ⟨-, rfl⟩ := Prod.mk.inj (Option.some.inj h); rfl
  next => obtain ⟨-, rfl⟩ := Prod.mk.inj (Option.some.inj h); rfl

/-- **What is found** in the properties of a module is what their entries declare. -/
theorem mem_declarations_of_entry {v : Viewpoint} {properties : List DependencyProperty}
    {found : List (String × DepTag)} {property : DependencyProperty} {entry name : String}
    {tag : DepTag} {reference : Option Reference}
    (h : declarations v properties = .ok found) (hproperty : property ∈ properties)
    (hentry : entry ∈ v.module.list property.property)
    (hreference : v.reference? entry = .ok reference)
    (hdeclared : declared property.kind entry reference = some (name, tag)) :
    (name, tag) ∈ found := by
  obtain ⟨all, hall, h⟩ := bind_eq_ok h
  obtain rfl := Except.ok.inj h
  have hmem : (property.kind, entry) ∈
      properties.flatMap fun p => (v.module.list p.property).map (p.kind, ·) :=
    List.mem_flatMap.mpr ⟨property, hproperty, List.mem_map_of_mem hentry⟩
  obtain ⟨result, hresult, hitem⟩ := exists_result_of_mapM hall hmem
  obtain ⟨reference', hread, hitem⟩ := bind_eq_ok hitem
  obtain rfl := Except.ok.inj (hreference.symm.trans hread)
  obtain rfl := Except.ok.inj hitem
  exact List.mem_filterMap.mpr ⟨_, hresult, hdeclared⟩

theorem mem_declaredEdges {v : Viewpoint} {found : List (String × DepTag)} {id : ModuleId}
    {tag : DepTag} :
    (id, tag) ∈ declaredEdges v found ↔ ∃ name, (name, tag) ∈ found ∧
      v.graph.lookup v.id name = some id ∧
      v.config.exemptions.isExempt v.module.name (v.graph.module id).name = false := by
  rw [declaredEdges, List.mem_filterMap]
  constructor
  · rintro ⟨⟨name, tag'⟩, hfound, hedge⟩
    obtain ⟨target, hlookup, hedge⟩ := Option.bind_eq_some_iff.mp hedge
    obtain ⟨_, hguard, hedge⟩ := Option.bind_eq_some_iff.mp hedge
    obtain ⟨rfl, rfl⟩ := Prod.mk.inj (Option.some.inj hedge)
    refine ⟨name, hfound, hlookup, ?_⟩
    unfold guard at hguard
    split at hguard
    next hexempt => simpa using hexempt
    next => cases hguard
  · rintro ⟨name, hfound, hlookup, hexempt⟩
    have hadmitted : (!v.config.exemptions.isExempt v.module.name (v.graph.module id).name) =
        true := by
      rw [hexempt]
      rfl
    exact ⟨(name, tag), hfound, Option.bind_eq_some_iff.mpr
      ⟨id, hlookup, Option.bind_eq_some_iff.mpr ⟨(), if_pos hadmitted, rfl⟩⟩⟩

/-- **Which declarations make an edge**: those between modules that are not exempt. -/
theorem mem_edges_of_declares {v : Viewpoint} {output : StepOutput} {name : String}
    {tag : DepTag} {id : ModuleId} (h : discover v = .ok output)
    (hdeclares : Declares v name tag) (hlookup : v.graph.lookup v.id name = some id)
    (hexempt : v.config.exemptions.isExempt v.module.name (v.graph.module id).name = false) :
    (id, tag) ∈ output.edges := by
  obtain ⟨type, property, entry, reference, htype, hproperty, hentry, hreference, hdeclared⟩ :=
    hdeclares
  rcases discover_eq_ok h with ⟨hnone, -⟩ | ⟨type', found, htype', hfound, -, rfl⟩
  · rw [hnone] at htype
    cases htype
  · obtain rfl := Option.some.inj (htype.symm.trans htype')
    have hmem := mem_declarations_of_entry hfound hproperty hentry hreference hdeclared
    exact mem_declaredEdges.mpr ⟨name, hmem, hlookup, hexempt⟩

theorem before_of_mem_discovery {w : StartedWave} (hfresh : g.Fresh)
    (hw : w ∈ discovery.history registry config g) : w.before = g := by
  obtain ⟨waves, hwaves, hone⟩ := waves_of_edges_nil hfresh.edges discovery.order
  exact Phase.before_of_one_wave hwaves hone hw

theorem runsStep_of_fresh (p : Phase) (hfresh : g.Fresh) (id : ModuleId) :
    p.RunsStep ⟨g, registry, config, id⟩ := by
  refine Phase.runsStep_iff.mpr ⟨?_, fun dep hdep => ?_⟩
  · show g.isFailed id = false
    rw [Graph.isFailed, hfresh.errors]
    rfl
  · obtain ⟨tag, he⟩ := dependsOn_iff.mp hdep
    rw [show (Viewpoint.graph ⟨g, registry, config, id⟩).edges = [] from hfresh.edges] at he
    cases he

end Build

/-! ## No edge is exempt -/

/-- No edge of a graph joins a pair that is exempt. -/
def Graph.NoneExempt (config : Config) (g : Graph) : Prop :=
  ∀ e ∈ g.edges,
    config.exemptions.isExempt (g.module e.source).name (g.module e.target).name = false

/-- A phase whose steps add edges to modules that are there, and none to a pair that is
exempt. -/
def Phase.AdmitsEdges (p : Phase) (registry : Registry) (config : Config) : Prop :=
  ∀ g id output, p.step ⟨g, registry, config, id⟩ = .ok (.ok output) →
    ∀ d ∈ output.edges, d.1 < g.size ∧
      config.exemptions.isExempt (g.module id).name (g.module d.1).name = false

theorem Graph.NoneExempt.of_edges_eq (h : g.NoneExempt config) (hext : Extends g g')
    (hedges : g'.edges = g.edges) : g'.NoneExempt config := by
  intro e he
  rw [hext.module, hext.module]
  exact h e (hedges ▸ he)

/-- **Visits add no exempt edge.** -/
theorem Phase.AdmitsEdges.keeps {p : Phase} {start : Graph} {waves : List (List ModuleId)}
    (hp : p.AdmitsEdges registry config) :
    p.Keeps registry config start waves (fun _ g => g.NoneExempt config) (fun _ => True) where
  commit {seen done before now id o} v _ hnow ho hc := by
    have hext := (extendsAt_commit now p.name id o).toExtends
    intro e he
    rw [hext.module, hext.module]
    rcases (mem_edges_commit hc).mp he with hold | ⟨rfl, hnew⟩
    · exact hnow e hold
    · obtain ⟨output, rfl⟩ := Outcome.eq_ran_of_mem_edges hnew
      rw [v.extends_now.module, v.extends_now.module]
      exact (hp before e.source output (Phase.outcome_eq_ran ho).2.2 _ hnew).2
  clash _ _ _ _ _ := trivial
  fault _ _ _ := trivial

theorem Graph.NoneExempt.run {p : Phase} {summary : PhaseSummary}
    (hp : p.AdmitsEdges registry config)
    (hbarrier : ∀ s, Publishes s.graph (p.barrier config s).1.graph)
    (h : s.graph.NoneExempt config) (hrun : p.run registry config s = (s', .ok summary)) :
    s'.graph.NoneExempt config := by
  obtain ⟨g, sb, hg, hpublishes, rfl⟩ :=
    Phase.run_eq_ok_of_publishes (fun _ => hp.keeps) hbarrier h hrun
  have hkept : sb.graph.NoneExempt config :=
    hg.of_edges_eq hpublishes.toExtends hpublishes.edges_eq
  exact hkept.of_edges_eq (extends_propagateFailures _) (edges_propagateFailures _)

namespace Build

theorem admitsEdges_discovery : discovery.AdmitsEdges registry config := by
  intro g id output hstep d hd
  rcases discover_eq_ok (Except.ok.inj hstep) with ⟨-, rfl⟩ | ⟨type, found, -, -, -, rfl⟩
  · cases hd
  · obtain ⟨name, -, hlookup, hexempt⟩ := mem_declaredEdges.mp hd
    exact ⟨lookup_lt_size hlookup, hexempt⟩

theorem admitsEdges_conversions : conversions.AdmitsEdges registry config := by
  intro g id output hstep d hd
  obtain ⟨decision, -, ⟨-, rfl⟩ | ⟨targets, r, hconverts, rfl⟩⟩ := convert_eq_ok hstep
  · cases hd
  · obtain ⟨c, -, hrun⟩ := hconverts.converter
    have hadmits : Viewpoint.Admits ⟨g, registry, config, id⟩
        (c.run ⟨g, registry, config, id⟩ ReferenceRecord.empty).2 := by
      apply Conversion.admits_run
      intro target htarget
      cases htarget
    rw [hrun] at hadmits
    obtain ⟨target, htarget, rfl⟩ := List.mem_map.mp hd
    exact hadmits target htarget

/-- **Edges of a build** lead to modules that are there, and no exempt one is added. -/
theorem admitsEdges_phases (registry : Registry) (config : Config) (executor : Executor) :
    ∀ p ∈ phases executor, p.AdmitsEdges registry config := by
  have hquiet : ∀ p ∈ [decisions, queries executor, consumption],
      p.AdmitsEdges registry config := by
    intro p hp g id output hstep d hd
    rw [edges_eq_nil hp hstep] at hd
    cases hd
  intro p hp
  simp only [phases, List.mem_cons, List.not_mem_nil, or_false] at hp
  rcases hp with rfl | rfl | rfl | rfl | rfl
  · exact admitsEdges_discovery
  · exact hquiet _ (by simp)
  · exact admitsEdges_conversions
  · exact hquiet _ (by simp)
  · exact hquiet _ (by simp)

theorem noneExempt_runOn (hfresh : g.Fresh)
    (hrun : runOn registry config executor g = (s, .ok report)) :
    s.graph.NoneExempt config := by
  obtain ⟨summaries, hall⟩ := runOn_eq_ok hrun
  refine Phase.runAll_induct (J := fun s => s.graph.NoneExempt config)
    (fun p hp s s' summary hs hp' => ?_) ?_ hall
  · exact hs.run (admitsEdges_phases registry config executor p hp)
      (publishes_barrier hp config) hp'
  · intro e he
    simp [hfresh.edges] at he

/-! ## Whole builds -/

theorem exists_dealt_discovery {a : ModuleId} (hfresh : g.Fresh)
    (hrun : runOn registry config executor g = (s, .ok report)) (ha : a < g.size) :
    ∃ w g₁, discovery.Dealt registry config g w a
        (.ran (discover ⟨g, registry, config, a⟩)) g₁ ∧ Extends g₁ s.graph := by
  have hsplit : phases executor =
      [] ++ discovery :: [decisions, conversions, queries executor, consumption] := rfl
  have hsize : a < s.graph.size := (extends_runOn hrun).size ▸ ha
  obtain ⟨s₁, _, hnone, w, hw, hmem, o, g₁, hdealt, hext⟩ := exists_dealt hsplit hrun hsize
  obtain rfl : RunState.ofGraph g = s₁ := (Prod.mk.inj hnone).1
  have hran : discovery.outcome ⟨w.before, registry, config, a⟩ =
      .ok (.ran (discover ⟨g, registry, config, a⟩)) := by
    rw [before_of_mem_discovery hfresh hw]
    exact runsStep_of_fresh discovery hfresh a
  obtain rfl := Except.ok.inj (hdealt.outcome.symm.trans hran)
  exact ⟨w, g₁, hdealt, hext⟩

theorem mem_edges_of_discover {a b : ModuleId} {tag : DepTag} {output : StepOutput}
    (hfresh : g.Fresh) (hrun : runOn registry config executor g = (s, .ok report))
    (ha : a < g.size) (hstep : discover ⟨g, registry, config, a⟩ = .ok output)
    (hedge : (b, tag) ∈ output.edges) : ⟨a, b, tag⟩ ∈ s.graph.edges := by
  obtain ⟨w, g₁, hdealt, hext⟩ := exists_dealt_discovery hfresh hrun ha
  rw [hstep] at hdealt
  apply hext.mem_edges
  rw [hdealt.gained.edges ⟨a, b, tag⟩ rfl]
  exact .inr hedge

/-- **Which declared dependencies count.** Let the discovery of a module `a` of a
build succeed, and let one of its entries name a module `b`, where the tables
exempt neither `a` nor `b`. The tag of the entry orders modules. The edge of the
entry is in the last graph exactly when the names of `a` and `b` differ, and if
they do, `a` fails in the report when `b` does. -/
theorem edge_iff_names_differ {modules : List Module} {a b : ModuleId} {name : String}
    {tag : DepTag} {output : StepOutput}
    (hload : Graph.ofModules registry modules = .ok g)
    (hrun : runOn registry config executor g = (s, .ok report)) (ha : a < g.size)
    (hstep : discover ⟨g, registry, config, a⟩ = .ok output)
    (hdeclares : Declares ⟨g, registry, config, a⟩ name tag)
    (hlookup : g.lookup a name = some b)
    (hsource : config.exemptions.sources.contains (g.module a).name = false)
    (htarget : config.exemptions.targets.contains (g.module b).name = false) :
    tag.orders = true ∧
      (⟨a, b, tag⟩ ∈ s.graph.edges ↔ (g.module a).name ≠ (g.module b).name) ∧
      ((g.module a).name ≠ (g.module b).name → ∀ ra ∈ report.modules, ∀ rb ∈ report.modules,
        ra.id = a → rb.id = b → rb.isFailed = true → ra.isFailed = true) := by
  have hfresh := fresh_ofModules hload
  have hext : Extends g s.graph := extends_runOn hrun
  have hforth : (g.module a).name ≠ (g.module b).name → ⟨a, b, tag⟩ ∈ s.graph.edges := by
    intro hne
    have hexempt : config.exemptions.isExempt (g.module a).name (g.module b).name = false := by
      simp [EdgeExemptions.isExempt, hne, hsource, htarget]
    exact mem_edges_of_discover hfresh hrun ha hstep
      (mem_edges_of_declares hstep hdeclares hlookup hexempt)
  refine ⟨?_, ⟨fun hedge heq => ?_, hforth⟩, ?_⟩
  · obtain ⟨_, _, _, _, -, -, -, -, hdeclared⟩ := hdeclares
    exact orders_of_declared hdeclared
  · have hadmitted := noneExempt_runOn hfresh hrun _ hedge
    rw [hext.module, hext.module] at hadmitted
    simp [EdgeExemptions.isExempt, heq] at hadmitted
  · intro hne ra hra rb hrb hida hidb hfailed
    rw [modules_report hrun] at hra hrb
    obtain ⟨a', hinside, rfl⟩ := List.mem_map.mp hra
    obtain ⟨b', -, rfl⟩ := List.mem_map.mp hrb
    obtain rfl : a' = a := hida
    obtain rfl : b' = b := hidb
    have hdirect : s.graph.dependsOn a' b' = true := dependsOn_of_mem (hforth hne)
    exact isFailed_of_runOn hrun (mem_ids.mp hinside) hdirect hfailed

/-! Two modules in two namespaces. The one in `vendor` fails, as it needs a module
that is not there; the one called `m`, in the global namespace, needs it. -/

def vendorTypes : Registry :=
  Registry.empty.register "lib" ⟨.native, DependencyProperty.standard⟩

def vendorConfig : Config := Config.ofTree Listing.empty.sourceTree

/-- The modules, with the name of the one in `vendor`. -/
def vendorModules (name : String) : List Module :=
  [(Module.plain "m" "lib" "x").withProp "deps" (.list [Reference.qualified "vendor" name]),
   ((Module.plain name "lib" "y").inScope "vendor").withProp "deps" (.list ["gone"])]

def vendorGraph (name : String) : Graph :=
  (Graph.ofModules vendorTypes (vendorModules name)).toOption.getD default

def vendorRun (name : String) : RunState × Except Abort BuildReport :=
  runOn vendorTypes vendorConfig Executor.none (vendorGraph name)

/-- Under a name of its own, the one in `vendor` takes the other one with it. -/
theorem stranger_failure_spreads :
    ⟨0, 1, .ordinary⟩ ∈ (vendorRun "k").1.graph.edges ∧
      ∀ ra ∈ ((vendorRun "k").2.toOption.getD ⟨[], []⟩).modules,
      ∀ rb ∈ ((vendorRun "k").2.toOption.getD ⟨[], []⟩).modules,
        ra.id = 0 → rb.id = 1 → rb.isFailed = true → ra.isFailed = true := by
  have hload : Graph.ofModules vendorTypes (vendorModules "k") = .ok (vendorGraph "k") := rfl
  have hrun : runOn vendorTypes vendorConfig Executor.none (vendorGraph "k") =
      ((vendorRun "k").1, .ok ((vendorRun "k").2.toOption.getD ⟨[], []⟩)) := by
    decide +kernel
  have hstep : discover ⟨vendorGraph "k", vendorTypes, vendorConfig, 0⟩ =
      .ok ⟨[.discovery []], [(1, .ordinary)]⟩ := by
    decide +kernel
  have hdeclares : Declares ⟨vendorGraph "k", vendorTypes, vendorConfig, 0⟩ "//vendor:k"
      .ordinary := by
    refine ⟨⟨.native, DependencyProperty.standard⟩, ⟨"deps", .modules⟩, "//vendor:k",
      some ⟨"//vendor:k", ""⟩, rfl, List.mem_cons_self, ?_, ?_, rfl⟩ <;> decide +kernel
  have hcounts := edge_iff_names_differ hload hrun (b := 1) (by decide +kernel) hstep hdeclares
    (by decide +kernel) (by decide +kernel) (by decide +kernel)
  have hne : ((vendorGraph "k").module 0).name ≠ ((vendorGraph "k").module 1).name := by
    decide +kernel
  exact ⟨hcounts.2.1.mpr hne, hcounts.2.2 hne⟩

/-- **The failure of a namesake is ignored.** Called `m` as well, the one in
`vendor` is another module all the same: the discovery of the first succeeds, its
entry names the second, and the tables exempt neither. But no edge joins them,
and the first is sound in the end although the second has failed. -/
theorem namesake_failure_is_ignored :
    (∃ report, runOn vendorTypes vendorConfig Executor.none (vendorGraph "m") =
      ((vendorRun "m").1, .ok report)) ∧
    (∃ output, discover ⟨vendorGraph "m", vendorTypes, vendorConfig, 0⟩ = .ok output) ∧
    Declares ⟨vendorGraph "m", vendorTypes, vendorConfig, 0⟩ "//vendor:m" .ordinary ∧
    (vendorGraph "m").lookup 0 "//vendor:m" = some 1 ∧
    vendorConfig.exemptions.sources.names = [] ∧ vendorConfig.exemptions.targets.names = [] ∧
    (vendorRun "m").1.graph.edges = [] ∧
    (vendorRun "m").1.graph.isFailed 1 = true ∧ (vendorRun "m").1.graph.isFailed 0 = false := by
  refine ⟨⟨(vendorRun "m").2.toOption.getD ⟨[], []⟩, by decide +kernel⟩,
    ⟨⟨[.discovery []], []⟩, by decide +kernel⟩, ?_, by decide +kernel, rfl, rfl,
    by decide +kernel, by decide +kernel, by decide +kernel⟩
  refine ⟨⟨.native, DependencyProperty.standard⟩, ⟨"deps", .modules⟩, "//vendor:m",
    some ⟨"//vendor:m", ""⟩, rfl, List.mem_cons_self, ?_, ?_, rfl⟩ <;> decide +kernel

end Build

end TargetGen
