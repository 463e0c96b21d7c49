import TargetGen.Proofs.Build.Discovery
import TargetGen.Proofs.Build.Ordering

/-!
# Names — conversions find the modules that discovery found

A name is looked up twice: by discovery, which adds the edge, and by a conversion,
which needs the label. In between the graph grows, but a name is looked up among the
modules alone, and these do not change (`Graph.Extends.lookup`). So what an entry
means is the same at both times, and whether a module of that name exists is, too.

Among names of modules nothing is left that could fail: what is malformed has failed
the discovery, and a name is empty only if the entry is. A name that conversions cannot
find is thus one that discovery has recorded; where it must not be missing, there is none.
-/

namespace TargetGen

open TargetGen.Graph

variable {registry : Registry} {config : Config} {executor : Executor} {g now : Graph}
  {id : ModuleId} {v : Viewpoint} {entry name : String} {reference : Reference}
  {r : ReferenceRecord}

/-! ## Names do not change -/

namespace Graph.Extends

variable {g' : Graph}

theorem find? (h : Extends g g') (name scope : String) :
    g'.find? name scope = g.find? name scope := by
  have hmodules : g'.nodes.map Node.module = g.nodes.map Node.module := by
    rw [← map_module_ids, ← map_module_ids, h.ids]
    exact List.map_congr_left fun id _ => h.module id
  have hfind : ∀ g : Graph, g.find? name scope =
      (g.nodes.map Node.module).findIdx? fun m => m.name = name && m.scopeName = scope := by
    intro g
    rw [List.findIdx?_map]
    rfl
  rw [hfind, hfind, hmodules]

theorem lookup (h : Extends g g') (source : ModuleId) (name : String) :
    g'.lookup source name = g.lookup source name := by
  simp only [Graph.lookup, h.module, h.find?]

theorem reference? (h : Extends g g') (entry : String) :
    Viewpoint.reference? ⟨g', registry, config, id⟩ entry =
      Viewpoint.reference? ⟨g, registry, config, id⟩ entry := by
  simp only [Viewpoint.reference?, h.find?]

theorem means_iff (h : Extends g g') :
    Viewpoint.Means ⟨g', registry, config, id⟩ entry reference ↔
      Viewpoint.Means ⟨g, registry, config, id⟩ entry reference := by
  constructor
  · intro hmeans
    obtain ⟨found, hread, hfound⟩ := Viewpoint.exists_of_means hmeans
    rw [h.reference?] at hread
    exact (Viewpoint.means_iff hread).mpr hfound
  · intro hmeans
    obtain ⟨found, hread, hfound⟩ := Viewpoint.exists_of_means hmeans
    rw [← h.reference?] at hread
    exact (Viewpoint.means_iff hread).mpr hfound

end Graph.Extends

/-! ## The expansion of one name -/

namespace Viewpoint

theorem name_ne_empty_of_means (h : v.Means entry reference) (hentry : entry ≠ "") :
    reference.name ≠ "" := by
  cases h with
  | marked hrefers =>
    cases hrefers with
    | insight _ hread => exact Reference.name_ne_empty_of_marked hread
    | qualified _ _ _ _ => simp [Reference.qualified]
  | plain _ => exact hentry

theorem expandModules_of_means (h : v.Means entry reference) (hentry : entry ≠ "")
    (r : ReferenceRecord) :
    v.expandModules [entry] r =
      (.ok ⟨[v.moduleLabel entry reference], []⟩, v.note false reference r) := by
  have hexpand := expandName_of_means h (name_ne_empty_of_means h hentry)
  rw [expandModules, collect, hexpand]
  rfl

theorem moduleLabel_of_none (h : v.graph.lookup v.id reference.name = none) :
    v.moduleLabel entry reference =
      ⟨":" ++ Reference.bareName reference.name ++ missingSuffix, entry⟩ := by
  simp [moduleLabel, moduleAddress, h]

theorem note_of_none {wantsEdge : Bool} (h : v.graph.lookup v.id reference.name = none)
    (r : ReferenceRecord) : v.note wantsEdge reference r = r.addMissing reference.name := by
  rw [note, h]

theorem missing_note_of_isSome {wantsEdge : Bool}
    (h : (v.graph.lookup v.id reference.name).isSome = true) (r : ReferenceRecord) :
    (v.note wantsEdge reference r).missing = r.missing := by
  have hfound : v.unfound [reference] = [] := by simpa [unfound_eq_nil_iff] using h
  rw [note_eq]
  show (v.unfound [reference]).foldl Distinct.append r.missing = r.missing
  rw [hfound]
  rfl

/-! ## The expansion of whole lists -/

theorem mem_collect {α : Type} {f : String → Except ModuleError α} {entries : List String} {a : α}
    (h : a ∈ (collect f entries).1) : ∃ entry ∈ entries, f entry = .ok a := by
  induction entries with
  | nil => cases h
  | cons first rest ih =>
    unfold collect at h
    split at h
    next => cases h
    next a' hfirst =>
      rcases List.mem_cons.mp h with rfl | hlater
      · exact ⟨first, List.mem_cons_self, hfirst⟩
      · obtain ⟨entry, hentry, hread⟩ := ih hlater
        exact ⟨entry, List.mem_cons_of_mem first hentry, hread⟩

theorem exists_means_of_mem_namedReferences {names : List String}
    (h : reference ∈ v.namedReferences names) : ∃ entry ∈ names, v.Means entry reference := by
  obtain ⟨expanded, hexpanded, hreference⟩ := List.mem_filterMap.mp h
  obtain ⟨entry, hentry, hexpand⟩ := mem_collect hexpanded
  obtain ⟨meant, hmeant, hmeans⟩ := exists_means_of_expandName hexpand
  obtain rfl := Option.some.inj (hmeant.symm.trans hreference)
  exact ⟨entry, hentry, hmeans⟩

/-- Where all names denote modules, an expansion notes none as missing, even one that
fails. -/
theorem missing_expandModules {names : List String}
    (h : ∀ entry ∈ names, ∀ reference, v.Means entry reference →
      (v.graph.lookup v.id reference.name).isSome = true) (r : ReferenceRecord) :
    (v.expandModules names r).2.missing = r.missing := by
  have hfound : v.unfound (v.namedReferences names) = [] := by
    rw [unfound_eq_nil_iff]
    intro reference hreference
    obtain ⟨entry, hentry, hmeans⟩ := exists_means_of_mem_namedReferences hreference
    exact h entry hentry reference hmeans
  rw [record_expandModules]
  show (v.unfound (v.namedReferences names)).foldl Distinct.append r.missing = r.missing
  rw [hfound]
  rfl

end Viewpoint

namespace Build

variable {s₀ s : RunState} {w : StartedWave} {output : StepOutput} {type : ModuleType}
  {property : DependencyProperty}

/-! ## Later graphs -/

/-- The graphs of a run in which the discovery of the modules of a wave is over: those
that the later waves of discovery see, those that the later phases pass, and the one
that these leave, however they end. -/
inductive Discovered (registry : Registry) (config : Config) (executor : Executor)
    (s₀ : RunState) (w : StartedWave) : Graph → Prop where
  | wave {earlier later : List StartedWave} {w' : StartedWave} :
      discovery.history registry config s₀.graph = earlier ++ w' :: later → w ∈ earlier →
      Discovered registry config executor s₀ w w'.before
  | phase {s : RunState} {summary : PhaseSummary} {now : Graph} :
      w ∈ discovery.history registry config s₀.graph →
      discovery.run registry config s₀ = (s, .ok summary) →
      Phase.Passes registry config (afterDiscovery executor) s now →
      Discovered registry config executor s₀ w now
  | last {s : RunState} {summary : PhaseSummary} :
      w ∈ discovery.history registry config s₀.graph →
      discovery.run registry config s₀ = (s, .ok summary) →
      Discovered registry config executor s₀ w
        (Phase.runAll registry config (afterDiscovery executor) s).1.graph

theorem exists_dealt_of_run {summary : PhaseSummary}
    (hw : w ∈ discovery.history registry config s₀.graph) (hid : id ∈ w.modules)
    (hrun : discovery.run registry config s₀ = (s, .ok summary)) :
    ∃ o g₁, discovery.Dealt registry config s₀.graph w id o g₁ ∧ Extends g₁ s.graph := by
  have hdiscovery : discovery ∈ phases Executor.none := List.mem_cons_self
  obtain ⟨g₁, hdone, hext⟩ := exists_historyDone hdiscovery hrun
  obtain ⟨o, hdealt⟩ := hdone.dealt w hw id hid
  exact ⟨o, g₁, hdealt, hext⟩

/-- **What discovery did for a module** is there at every later time. -/
theorem Discovered.exists_dealt (h : Discovered registry config executor s₀ w now)
    (hid : id ∈ w.modules) :
    ∃ o g₁, discovery.Dealt registry config s₀.graph w id o g₁ ∧ Extends g₁ now := by
  have hstays : ∀ p ∈ afterDiscovery executor, p.StaysWithin registry config Extends :=
    fun p _ => Phase.staysWithin_extends p registry config
  have hbarrier : ∀ p ∈ afterDiscovery executor, ∀ s : RunState,
      Extends s.graph (p.barrier config s).1.graph :=
    fun p hp s => (publishes_barrier (mem_phases_of_afterDiscovery hp) config s).toExtends
  cases h with
  | @wave earlier later w' hhistory hw =>
    obtain ⟨o, hdealt⟩ := (Phase.dealt_of_history hhistory).2 w hw id hid
    exact ⟨o, w'.before, hdealt, Extends.refl _⟩
  | phase hw hrun hpasses =>
    obtain ⟨o, g₁, hdealt, hext⟩ := exists_dealt_of_run hw hid hrun
    exact ⟨o, g₁, hdealt, hext.trans
      (Phase.StaysWithin.passes Extends.refl hstays hbarrier extends_propagateFailures hpasses)⟩
  | @last s _ hw hrun =>
    obtain ⟨o, g₁, hdealt, hext⟩ := exists_dealt_of_run hw hid hrun
    exact ⟨o, g₁, hdealt, hext.trans
      (Phase.StaysWithin.runAll Extends.refl hstays hbarrier extends_propagateFailures s)⟩

/-! ## Discovery and expansion -/

/-- How an entry is expanded, given the names that discovery has recorded as missing and
the edges that it has committed. -/
inductive Expands (v : Viewpoint) (recorded : List String) (committed : List Dependency)
    (entry : String) (reference : Reference) (r : ReferenceRecord) : Prop where
  /-- To a label that stands for a missing module, if its name is recorded. -/
  | missing : reference.name ∈ recorded → v.graph.lookup v.id reference.name = none →
      v.expandModules [entry] r =
        (.ok ⟨[⟨":" ++ Reference.bareName reference.name ++ Viewpoint.missingSuffix, entry⟩], []⟩,
          r.addMissing reference.name) →
      Expands v recorded committed entry reference r
  /-- To the label of a module to which an edge is committed, unless the pair is exempt. -/
  | found {target : ModuleId} {r' : ReferenceRecord} : reference.name ∉ recorded →
      v.graph.lookup v.id reference.name = some target →
      (target, .ordinary) ∈ committed ∨
        v.config.exemptions.isExempt v.module.name (v.graph.module target).name = true →
      v.expandModules [entry] r = (.ok ⟨[v.moduleLabel entry reference], []⟩, r') →
      r'.missing = r.missing →
      Expands v recorded committed entry reference r

section

variable (htype : registry.get? (g.module id).moduleType = some type)
  (hproperty : property ∈ type.dependencyProperties) (hkind : property.kind = .modules)

include hproperty hkind

theorem mem_entriesOf_of_modules (hentry : entry ∈ (g.module id).list property.property) :
    (.modules, entry) ∈ entriesOf ⟨g, registry, config, id⟩ type.dependencyProperties := by
  rw [← hkind]
  exact List.mem_flatMap.mpr ⟨property, hproperty, List.mem_map_of_mem hentry⟩

theorem mem_unfoundNames_of_means (hentry : entry ∈ (g.module id).list property.property)
    (hmeans : Viewpoint.Means ⟨g, registry, config, id⟩ entry reference) :
    reference.name ∈ unfoundNames ⟨g, registry, config, id⟩
        (entriesOf ⟨g, registry, config, id⟩ type.dependencyProperties) ↔
      g.lookup id reference.name = none := by
  rw [mem_unfoundNames]
  apply and_iff_right
  exact ⟨.modules, entry, .ordinary, mem_entriesOf_of_modules hproperty hkind hentry,
    .module hmeans⟩

include htype

/-- **An entry is expanded to what discovery found.** -/
theorem expands_of_discover (hext : Extends g now)
    (hstep : discover ⟨g, registry, config, id⟩ = .ok output)
    (hentry : entry ∈ (g.module id).list property.property) (hne : entry ≠ "") :
    ∃ reference, Viewpoint.Means ⟨now, registry, config, id⟩ entry reference ∧
      ∀ r, Expands ⟨now, registry, config, id⟩
        (unfoundNames ⟨g, registry, config, id⟩
          (entriesOf ⟨g, registry, config, id⟩ type.dependencyProperties))
        output.edges entry reference r := by
  obtain ⟨hreadable, -, rfl⟩ := readable_of_discover htype hstep
  have hmem : (.modules, entry) ∈
      entriesOf ⟨g, registry, config, id⟩ type.dependencyProperties :=
    mem_entriesOf_of_modules hproperty hkind hentry
  obtain ⟨found, hread⟩ := Viewpoint.exists_reference_of_readable (hreadable _ hmem)
  have hmeans : Viewpoint.Means ⟨g, registry, config, id⟩ entry (found.getD ⟨entry, ""⟩) :=
    (Viewpoint.means_iff hread).mpr rfl
  refine ⟨found.getD ⟨entry, ""⟩, hext.means_iff.mpr hmeans, fun r => ?_⟩
  generalize found.getD ⟨entry, ""⟩ = reference at hmeans
  have hunfound : reference.name ∈ unfoundNames ⟨g, registry, config, id⟩
        (entriesOf ⟨g, registry, config, id⟩ type.dependencyProperties) ↔
      now.lookup id reference.name = none := by
    rw [hext.lookup]
    exact mem_unfoundNames_of_means hproperty hkind hentry hmeans
  have hexpand := Viewpoint.expandModules_of_means (hext.means_iff.mpr hmeans) hne r
  cases hlookup : now.lookup id reference.name with
  | none =>
    rw [Viewpoint.moduleLabel_of_none hlookup, Viewpoint.note_of_none hlookup] at hexpand
    exact .missing (hunfound.mpr hlookup) hlookup hexpand
  | some target =>
    have hsome : (now.lookup id reference.name).isSome = true := by rw [hlookup]; rfl
    refine .found (fun hmissing => ?_) hlookup ?_ hexpand
      (Viewpoint.missing_note_of_isSome hsome r)
    · rw [hunfound.mp hmissing] at hlookup
      cases hlookup
    · cases hexempt : config.exemptions.isExempt (g.module id).name (g.module target).name with
      | true =>
        right
        show config.exemptions.isExempt (now.module id).name (now.module target).name = true
        rw [hext.module, hext.module]
        exact hexempt
      | false =>
        left
        rw [hext.lookup] at hlookup
        have hdeclared := mem_required.mpr ⟨.modules, entry, hmem, .module hmeans⟩
        exact mem_declaredEdges.mpr ⟨reference.name, hdeclared, hlookup, hexempt⟩

/-- Where no name may be missing, no expansion of the entries notes one. -/
theorem missing_expandModules_of_discover (hext : Extends g now)
    (hstep : discover ⟨g, registry, config, id⟩ = .ok output)
    (hstrict : config.allowMissing = false)
    {entries : List String} (hentries : ∀ e ∈ entries, e ∈ (g.module id).list property.property)
    (r : ReferenceRecord) :
    (Viewpoint.expandModules ⟨now, registry, config, id⟩ entries r).2.missing = r.missing := by
  obtain ⟨-, htolerated, -⟩ := readable_of_discover htype hstep
  have hnone := eq_nil_of_tolerated hstrict htolerated
  apply Viewpoint.missing_expandModules
  intro entry hentry reference hmeans
  have hmeans : Viewpoint.Means ⟨g, registry, config, id⟩ entry reference :=
    hext.means_iff.mp hmeans
  have hunfound := mem_unfoundNames_of_means hproperty hkind (hentries entry hentry) hmeans
  show (now.lookup id reference.name).isSome = true
  rw [hext.lookup, Option.isSome_iff_ne_none]
  intro hlookup
  have hmem := hunfound.mpr hlookup
  rw [hnone] at hmem
  cases hmem

end

/-- **Conversions find what discovery found.** Take a module whose discovery succeeded,
in whatever run, and a later graph of that run. The names that discovery recorded as
missing are there, and an entry of a property of its type that lists modules, unless it
is empty, is expanded without failing:

* to the label that stands for a missing module, which is noted, if discovery recorded
  the same name;
* otherwise to the label of a module to which discovery has committed an ordinary edge,
  unless the pair is exempt, and nothing is noted as missing.

So where no name may be missing, no expansion of such a property notes one. -/
theorem expansion_follows_discovery
    (hlater : Discovered registry config executor s₀ w now) (hid : id ∈ w.modules)
    (hok : discovery.outcome ⟨w.before, registry, config, id⟩ = .ok (.ran (.ok output)))
    (htype : registry.get? (now.module id).moduleType = some type)
    (hproperty : property ∈ type.dependencyProperties) (hkind : property.kind = .modules) :
    ∃ recorded, output.providers = [.discovery recorded] ∧
      now.provider? id .discovery = some (.discovery recorded) ∧
      (∀ d ∈ output.edges, ⟨id, d.1, d.2⟩ ∈ now.edges) ∧
      (∀ entry ∈ (now.module id).list property.property, entry ≠ "" →
        ∃ reference, Viewpoint.Means ⟨now, registry, config, id⟩ entry reference ∧
          ∀ r, Expands ⟨now, registry, config, id⟩ recorded output.edges entry reference r) ∧
      (config.allowMissing = false →
        ∀ entries : List String, (∀ e ∈ entries, e ∈ (now.module id).list property.property) →
          ∀ r, (Viewpoint.expandModules ⟨now, registry, config, id⟩ entries r).2.missing =
            r.missing) := by
  obtain ⟨o, g₁, hdealt, hext⟩ := hlater.exists_dealt hid
  obtain rfl := Except.ok.inj (hdealt.outcome.symm.trans hok)
  have hstep : discover ⟨w.before, registry, config, id⟩ = .ok output :=
    Except.ok.inj (Phase.outcome_eq_ran hok).2.2
  have hgrown : Extends w.before now := hdealt.extends_before.trans hext
  rw [hgrown.module] at htype ⊢
  obtain ⟨-, -, houtput⟩ := readable_of_discover htype hstep
  have hpublished : ∀ recorded, output.providers = [.discovery recorded] →
      now.provider? id .discovery = some (.discovery recorded) := by
    intro recorded hrecorded
    apply hext.provider?
    apply hdealt.gained.provider (.discovery recorded)
    show Provider.discovery recorded ∈ output.providers
    rw [hrecorded]
    exact List.mem_cons_self
  have hproviders : output.providers = [.discovery (unfoundNames ⟨w.before, registry, config, id⟩
      (entriesOf ⟨w.before, registry, config, id⟩ type.dependencyProperties))] := by
    rw [houtput]
  refine ⟨_, hproviders, hpublished _ hproviders, ?_, ?_, ?_⟩
  · intro d hd
    apply hext.mem_edges
    rw [hdealt.gained.edges ⟨id, d.1, d.2⟩ rfl]
    exact .inr hd
  · intro entry hentry hne
    exact expands_of_discover htype hproperty hkind hgrown hstep hentry hne
  · intro hstrict entries hentries r
    exact missing_expandModules_of_discover htype hproperty hkind hgrown hstep hstrict hentries r

/-! A module that names one module which is there and one which is not. -/

def namingConfig : Config := { vendorConfig with allowMissing := true }

def namingModules : List Module :=
  [(Module.plain "app" "lib" "x").withProp "deps" (.list [":base\x7bx\x7d", "gone"]),
   Module.plain "base" "lib" "x"]

def namingGraph : Graph := (Graph.ofModules vendorTypes namingModules).toOption.getD default

def namingRun : RunState × Except Abort PhaseSummary :=
  discovery.run vendorTypes namingConfig (RunState.ofGraph namingGraph)

/-- The first module after discovery. -/
def namingView : Viewpoint := ⟨namingRun.1.graph, vendorTypes, namingConfig, 0⟩

theorem naming_module_is_expanded_as_discovered :
    (∃ reference, namingView.Means ":base\x7bx\x7d" reference ∧
      ∀ r, Expands namingView ["gone"] [(1, .ordinary)] ":base\x7bx\x7d" reference r) ∧
    ∃ reference, namingView.Means "gone" reference ∧
      ∀ r, Expands namingView ["gone"] [(1, .ordinary)] "gone" reference r := by
  have hrun : discovery.run vendorTypes namingConfig (RunState.ofGraph namingGraph) =
      (namingRun.1, .ok (namingRun.2.toOption.getD ⟨"", 0, 0, 0, 0, 0⟩)) := by
    decide +kernel
  have hw : ⟨namingGraph, [0, 1]⟩ ∈
      discovery.history vendorTypes namingConfig (RunState.ofGraph namingGraph).graph := by
    decide +kernel
  have hlater : Discovered vendorTypes namingConfig Executor.none (RunState.ofGraph namingGraph)
      ⟨namingGraph, [0, 1]⟩ namingRun.1.graph :=
    .phase hw hrun .start
  have hload : Graph.ofModules vendorTypes namingModules = .ok namingGraph := rfl
  have hstep : discover ⟨namingGraph, vendorTypes, namingConfig, 0⟩ =
      .ok ⟨[.discovery ["gone"]], [(1, .ordinary)]⟩ := by
    decide +kernel
  have hok : discovery.outcome ⟨namingGraph, vendorTypes, namingConfig, 0⟩ =
      .ok (.ran (.ok ⟨[.discovery ["gone"]], [(1, .ordinary)]⟩)) := by
    rw [← hstep]
    exact runsStep_of_fresh discovery (fresh_ofModules hload) 0
  have htype : vendorTypes.get? (namingRun.1.graph.module 0).moduleType =
      some ⟨.native, DependencyProperty.standard⟩ := by
    rw [show (namingRun.1.graph.module 0).moduleType = "lib" by decide +kernel]
    rfl
  have hproperty : ⟨"deps", .modules⟩ ∈ DependencyProperty.standard := List.mem_cons_self
  obtain ⟨recorded, hrecorded, -, -, hexpands, -⟩ :=
    expansion_follows_discovery hlater (by simp) hok htype hproperty rfl
  obtain rfl := Provider.discovery.inj (List.cons.inj hrecorded).1
  rw [show (namingRun.1.graph.module 0).list "deps" = [":base\x7bx\x7d", "gone"] by
    decide +kernel] at hexpands
  constructor
  · exact hexpands _ (by simp) (by decide)
  · exact hexpands _ (by simp) (by decide)

end Build

end TargetGen
