import TargetGen.Proofs.Build.Conversions
import TargetGen.Proofs.Conversion
import TargetGen.SourceTree.Listing

/-!
# References — a converted module refers to nothing that dangles

Conversions run dependents first. When a module notes that another one converts,
that other one has yet to be converted, and may still fail: by its own
conversion, by what it makes of its answers, or by a dependency. What keeps the
note true is the edge that is committed along with it. Failures spread over
edges of every tag when a phase ends, so if the other module fails at last, the
module that refers to it fails as well, and is not converted in the report.

The rest is that nothing is forgotten on the way: the record of a conversion
covers each reference that it included (`Conversion.covers_run`), its edges and
names are committed as they are (`convert_eq_ok`), and later phases only add to
them.
-/

namespace TargetGen.Build

open TargetGen.Graph

variable {registry : Registry} {config : Config} {executor : Executor} {g : Graph}
  {s : RunState} {report : BuildReport}

/-! ## Whole builds -/

/-- **What a converted module noted is in the last graph**: the names that it
listed, and an edge to each module that it noted. -/
theorem noted_of_converted (hrun : runOn registry config executor g = (s, .ok report))
    {id : ModuleId} (hid : id < s.graph.size) (hsound : s.graph.isFailed id = false)
    (hdecided : s.graph.decidedToConvert id = true) :
    ∃ w ∈ conversions.history registry config (decidedGraph registry config g),
      id ∈ w.modules ∧ Extends w.before s.graph ∧
      ∀ converter, registry.converter? (w.before.module id) = some converter → ∃ r,
        r = (converter.run ⟨w.before, registry, config, id⟩ ReferenceRecord.empty).2 ∧
        s.graph.provider? id .references = some (.references r.missing r.unconverted) ∧
        ∀ dep ∈ r.edges, ⟨id, dep, .conversionOnly⟩ ∈ s.graph.edges := by
  obtain ⟨w, hw, hmem, o, g₃, hdealt, hext⟩ := exists_dealt_conversions hrun hid
  obtain ⟨output, rfl⟩ := hdealt.ran_of_sound (hext.isFailed_eq_false hsound)
  have hbefore : Extends w.before s.graph := hdealt.extends_before.trans hext
  have hdecided := decidedToConvert_before hdealt.outcome hbefore hdecided
  refine ⟨w, hw, hmem, hbefore, fun converter hconverter => ?_⟩
  rcases convertedIn_of_outcome hmem hdealt.outcome with ⟨-, hnone⟩ | ⟨targets, r, hconverted, rfl⟩
  · rw [hnone hdecided] at hconverter
    cases hconverter
  · obtain ⟨c, hc, hran⟩ := hconverted.converts.converter
    obtain rfl := Option.some.inj (hc.symm.trans hconverter)
    refine ⟨r, by rw [hran], (hconverted.published hrun hid hw).2, ?_⟩
    intro dep hdep
    apply hext.mem_edges
    rw [hdealt.gained.edges ⟨id, dep, .conversionOnly⟩ rfl]
    exact .inr (List.mem_map_of_mem hdep)

/-- **No reference dangles.** Take a module that is converted in the report of a
build, and the wave of the conversions in which it was visited. A reference that
its converter included there, to a module that exists and without exemption,
leads to one that has not failed in the report. That one is converted in the
report, or has a label written by hand, or is listed as unconverted. -/
theorem no_reference_dangles (hrun : runOn registry config executor g = (s, .ok report)) :
    ∀ m ∈ report.modules, m.isConverted = true →
      ∃ w ∈ conversions.history registry config (decidedGraph registry config g),
        m.id ∈ w.modules ∧
        ∀ converter, registry.converter? (w.before.module m.id) = some converter →
        ∀ reference ∈ converter.includes ⟨w.before, registry, config, m.id⟩, ∀ dep,
          w.before.lookup m.id reference.name = some dep →
          config.exemptions.isExempt (w.before.module m.id).name (w.before.module dep).name =
            false →
          ∃ d ∈ report.modules, d.id = dep ∧ d.isFailed = false ∧
            (d.isConverted = true ∨ (s.graph.module dep).settings.label.isSome = true ∨
              d.name ∈ m.unconverted) := by
  intro m hm hconverted
  rw [modules_report hrun] at hm ⊢
  obtain ⟨id, hid, rfl⟩ := List.mem_map.mp hm
  have hinside : id < s.graph.size := mem_ids.mp hid
  obtain ⟨hsound, hdecided⟩ := ModuleReport.isConverted_iff.mp hconverted
  obtain ⟨w, hw, hmem, hbefore, hnoted⟩ := noted_of_converted hrun hinside hsound hdecided
  refine ⟨w, hw, hmem, fun converter hconverter reference hreference dep hlookup hexempt => ?_⟩
  obtain ⟨r, rfl, hreferences, hedges⟩ := hnoted converter hconverter
  have hcovers : Viewpoint.Covers ⟨w.before, registry, config, id⟩ dep
      (converter.run ⟨w.before, registry, config, id⟩ ReferenceRecord.empty).2 :=
    Conversion.covers_run hreference hlookup hexempt
  have hdep : dep < s.graph.size := hbefore.size ▸ lookup_lt_size hlookup
  have hdepSound : s.graph.isFailed dep = false := by
    cases hf : s.graph.isFailed dep with
    | false => rfl
    | true =>
      -- the failure would have reached the module that refers to it
      have hdirect : s.graph.dependsOn id dep = true :=
        dependsOn_of_mem (hedges dep hcovers.edge)
      rw [isFailed_of_runOn hrun hinside hdirect hf] at hsound
      cases hsound
  refine ⟨ModuleReport.ofGraph s.graph dep, List.mem_map_of_mem (mem_ids.mpr hdep), rfl,
    hdepSound, ?_⟩
  cases husable : Viewpoint.isConverted ⟨w.before, registry, config, id⟩ dep with
  | true =>
    obtain ⟨-, husable⟩ := Bool.and_eq_true_iff.mp husable
    rcases Bool.or_eq_true_iff.mp husable with hlabel | hconvert
    · exact .inr (.inl (hbefore.module dep ▸ hlabel))
    · exact .inl (ModuleReport.isConverted_iff.mpr
        ⟨hdepSound, hbefore.decidedToConvert hconvert⟩)
  | false =>
    refine .inr (.inr (Distinct.mem_firsts.mpr ?_))
    rw [ModuleReport.references, hreferences]
    show (s.graph.module dep).name ∈ _
    rw [hbefore.module]
    exact hcovers.unconverted husable

/-! A build in which `app` includes `base`; both are at the top of the tree and opt
in, so `app` is converted while it is open what becomes of `base`. -/

def including : Converter where
  convert m _ _ := .expand (m.list "srcs") [] fun _ => .done (.ok [])
  taggedOutput _ := false

def includingTypes : Registry :=
  Registry.empty.register "lib" ⟨.convertible including, DependencyProperty.standard⟩

def includingConfig : Config := Config.ofTree Listing.empty.sourceTree

def includingGraph : Graph :=
  (Graph.ofModules includingTypes
    [((Module.plain "app" "lib" "").withProp "srcs" (.list [":base"])).withAvailable true,
     (Module.plain "base" "lib" "").withAvailable true]).toOption.getD default

def includingRun : RunState × Except Abort BuildReport :=
  runOn includingTypes includingConfig Executor.none includingGraph

theorem including_reference_leads_to_base :
    ∃ d ∈ (includingRun.2.toOption.getD ⟨[], []⟩).modules, d.id = 1 ∧ d.isFailed = false := by
  have hrun : runOn includingTypes includingConfig Executor.none includingGraph =
      (includingRun.1, .ok (includingRun.2.toOption.getD ⟨[], []⟩)) := by
    decide +kernel
  have hm : ModuleReport.ofGraph includingRun.1.graph 0 ∈
      (includingRun.2.toOption.getD ⟨[], []⟩).modules := by
    decide +kernel
  obtain ⟨w, hw, hmem, hall⟩ := no_reference_dangles hrun _ hm (by decide +kernel)
  have hchecked : ∀ w ∈ conversions.history includingTypes includingConfig
      (decidedGraph includingTypes includingConfig includingGraph), 0 ∈ w.modules →
      (w.before.module 0).moduleType = "lib" ∧
        ⟨"base", ""⟩ ∈ including.includes ⟨w.before, includingTypes, includingConfig, 0⟩ ∧
        w.before.lookup 0 "base" = some 1 ∧
        includingConfig.exemptions.isExempt (w.before.module 0).name (w.before.module 1).name =
          false := by
    decide +kernel
  obtain ⟨htype, hreference, hlookup, hexempt⟩ := hchecked w hw hmem
  have hconverter : includingTypes.converter? (w.before.module 0) = some including := by
    rw [Registry.converter?, htype]
    rfl
  obtain ⟨d, hd, hid, hsound, -⟩ :=
    hall including hconverter ⟨"base", ""⟩ hreference 1 hlookup hexempt
  exact ⟨d, hd, hid, hsound⟩

end TargetGen.Build
