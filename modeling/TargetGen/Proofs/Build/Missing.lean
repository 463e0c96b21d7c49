import TargetGen.Proofs.Build.Conversions
import TargetGen.Proofs.Build.Dependencies

/-!
# Missing — names that denote no module, and how a report comes by them

Two phases come upon such names. Discovery meets them among declared dependencies,
a conversion among the references that it expands, and where they are not
allowed, each of them fails its module with an error that lists them. Where they
are allowed, each publishes them, and no such error is made by the build.

So what a report lists of a module has three sources, and for each of them there
is a lemma: what discovery published (`discovered_of_ok`), the record of a
conversion (`exists_unfound`), and the errors (`missing_notMem_errors`). A builder
can meddle with the last two, since it may return any error and, for a module
that was not converted, publish a record of its own: the last section has a build
for either. So each part of the result asks of the builder what it needs.
-/

namespace TargetGen

open TargetGen.Graph

/-! ## Who may report missing names -/

/-- A converter that never reports names as missing by itself. -/
def Converter.ReportsNoneMissing (c : Converter) : Prop :=
  ∀ v r names, (c.run v r).1 ≠ .ok (.error (.missingDependencies names))

/-- A builder that never reports names as missing by itself. -/
def MixedBuilder.ReportsNoneMissing (b : MixedBuilder) : Prop :=
  ∀ inbox names, b.consume inbox ≠ .error (.missingDependencies names)

/-- A builder that never publishes a record of references. -/
def MixedBuilder.PublishesNoReferences (b : MixedBuilder) : Prop :=
  ∀ inbox ps, b.consume inbox = .ok ps → .references ∉ ps.map Provider.kind

namespace ModuleReport

theorem missingInErrors_eq_nil {errors : List ModuleError}
    (h : ∀ names, .missingDependencies names ∉ errors) : missingInErrors errors = [] := by
  unfold missingInErrors
  rw [List.flatMap_eq_nil_iff]
  intro e he
  cases e with
  | missingDependencies names => exact absurd he (h names)
  | _ => rfl

theorem nodup_names (g : Graph) (id : ModuleId) :
    (ofGraph g id).missing.Nodup ∧ (ofGraph g id).unconverted.Nodup :=
  ⟨Distinct.nodup_firsts _, Distinct.nodup_firsts _⟩

end ModuleReport

namespace Build

variable {registry : Registry} {config : Config} {executor : Executor} {g : Graph}
  {s : RunState} {report : BuildReport} {id : ModuleId} {w : StartedWave}

/-! ## Errors -/

/-- Where missing names are allowed, no step reports them unless what a module type
brings along does. -/
theorem step_ne_missing {v : Viewpoint} {p : Phase} (hp : p ∈ phases executor)
    (hallow : v.config.allowMissing = true)
    (hconverters : ∀ m c, v.registry.converter? m = some c → c.ReportsNoneMissing)
    (hbuilder : ∀ b, v.registry.builder? v.module = some b → b.ReportsNoneMissing)
    (names : List String) : p.step v ≠ .ok (.error (.missingDependencies names)) := by
  have hallowed : v.config.allowMissing ≠ false := by
    rw [hallow]
    exact Bool.noConfusion
  intro h
  simp only [phases, List.mem_cons, List.not_mem_nil, or_false] at hp
  rcases hp with rfl | rfl | rfl | rfl | rfl
  · rcases discover_eq_error (Except.ok.inj h) with ⟨_, _, he⟩ | ⟨-, hstrict⟩
    · cases he
    · exact hallowed hstrict
  · cases h
  · rcases convert_eq_error h with ⟨c, hc, he⟩ | ⟨-, hstrict⟩
    · exact hconverters _ c hc _ _ _ he
    · exact hallowed hstrict
  · cases h
  · obtain ⟨b, inbox, hb, he⟩ := consume_eq_error (Except.ok.inj h)
    exact hbuilder b hb inbox names he

/-- **Where missing names are allowed, no module fails for them.** -/
theorem missing_notMem_errors (hfresh : g.Fresh)
    (hrun : runOn registry config executor g = (s, .ok report))
    (hallow : config.allowMissing = true)
    (hconverters : ∀ m c, registry.converter? m = some c → c.ReportsNoneMissing)
    (hbuilder : ∀ b, registry.builder? (g.module id) = some b → b.ReportsNoneMissing)
    (names : List String) : .missingDependencies names ∉ s.graph.errors id := by
  obtain ⟨_, hall⟩ := runOn_eq_ok hrun
  have hkept : Extends g s.graph ∧ .missingDependencies names ∉ s.graph.errors id := by
    refine Phase.runAll_induct
      (J := fun s => Extends g s.graph ∧ .missingDependencies names ∉ s.graph.errors id)
      ?_ ⟨Extends.refl g, ?_⟩ hall
    · rintro p hp s s' summary ⟨hext, hclean⟩ hphase
      have hall : Phase.runAll registry config [p] s = (s', .ok [summary]) :=
        Phase.runAll_cons_of_ok hphase
      refine ⟨hext.trans (extends_runAll (fun q hq => List.mem_singleton.mp hq ▸ hp) hall), ?_⟩
      intro herror
      rcases Phase.mem_errors_run (fun s id => (publishes_barrier hp config s).errors_eq id)
        hphase herror with hold | ⟨_, hother⟩ | ⟨w, hw, -, ho⟩
      · exact hclean hold
      · cases hother
      · obtain ⟨-, -, hstep⟩ := Phase.outcome_eq_ran ho
        have hmodule : w.before.module id = g.module id := by
          rw [(Phase.extends_of_history hw).module, hext.module]
        refine step_ne_missing hp hallow hconverters (fun b hb => hbuilder b ?_) names hstep
        rw [← hmodule]
        exact hb
    · simp [hfresh.errors]
  exact hkept.2

/-! ## Names that discovery could not find -/

/-- **What a report has from a discovery that succeeded**: the declared names that
denote no module. -/
theorem discovered_of_ok {output : StepOutput} (hfresh : g.Fresh) (htyped : g.Typed registry)
    (hrun : runOn registry config executor g = (s, .ok report)) (hid : id < g.size)
    (hstep : discover ⟨g, registry, config, id⟩ = .ok output) :
    ∃ type found, registry.get? (g.module id).moduleType = some type ∧
      declarations ⟨g, registry, config, id⟩ type.dependencyProperties = .ok found ∧
      (missingNames ⟨g, registry, config, id⟩ found = [] ∨ config.allowMissing = true) ∧
      ModuleReport.discoveredMissing s.graph id =
        missingNames ⟨g, registry, config, id⟩ found := by
  obtain ⟨w, g₁, hdealt, hext⟩ := exists_dealt_discovery hfresh hrun hid
  rw [hstep] at hdealt
  obtain ⟨type, htype, -⟩ := htyped id hid
  rcases discover_eq_ok hstep with ⟨hnone, -⟩ | ⟨type, found, htype, hfound, htolerated, rfl⟩
  · exact absurd (htype.symm.trans hnone) (Option.some_ne_none type)
  · refine ⟨type, found, htype, hfound, htolerated, ?_⟩
    have hprovider := hext.provider?
      (hdealt.gained.provider (.discovery _) List.mem_cons_self)
    rw [Provider.kind] at hprovider
    rw [ModuleReport.discoveredMissing, hprovider]

/-! ## Names that conversions could not find -/

/-- The names that the conversion of a module could not find. If it succeeded, they
are those that its converter mentioned and that denote no module; if it did not,
there are none. -/
inductive UnfoundByConversion (registry : Registry) (config : Config) (g : Graph)
    (id : ModuleId) : List String → Prop where
  | converted {w : StartedWave} {targets : List Target} {r : ReferenceRecord} {c : Converter}
    (hw : w ∈ conversions.history registry config (decidedGraph registry config g))
    (h : ConvertedIn registry config w id targets r)
    (hc : registry.converter? (w.before.module id) = some c) :
    UnfoundByConversion registry config g id
      (Viewpoint.unfound ⟨w.before, registry, config, id⟩
        (c.mentions ⟨w.before, registry, config, id⟩))
  | unconverted
    (h : ∀ w ∈ conversions.history registry config (decidedGraph registry config g),
      ∀ targets r, ¬ ConvertedIn registry config w id targets r) :
    UnfoundByConversion registry config g id []

theorem ConvertedIn.missing_eq {targets : List Target} {r : ReferenceRecord}
    (h : ConvertedIn registry config w id targets r) :
    ∃ c, registry.converter? (w.before.module id) = some c ∧
      r.missing = Distinct.firsts (Viewpoint.unfound ⟨w.before, registry, config, id⟩
        (c.mentions ⟨w.before, registry, config, id⟩)) := by
  obtain ⟨c, hc, hrun⟩ := h.converts.converter
  refine ⟨c, hc, ?_⟩
  rw [← Converter.missing_run, hrun]

theorem references_of_answerAll (executor : Executor) (s : RunState) (id : ModuleId)
    (h : .references ∈ (answerAll executor s).1.graph.kinds id) :
    .references ∈ s.graph.kinds id := by
  rcases answerAll_cases executor s with hall | ⟨e, hall⟩ | ⟨answers, hall⟩
  · rwa [hall] at h
  · rwa [hall] at h
  · rw [hall] at h
    rcases kinds_distribute h with hold | hanswers
    · exact hold
    · cases hanswers

theorem references_of_queries {s s' : RunState} {summary : PhaseSummary}
    (hrun : (queries executor).run registry config s = (s', .ok summary))
    (h : .references ∈ s'.graph.kinds id) : .references ∈ s.graph.kinds id := by
  have hbarrier : ∀ (s : RunState) (id : ModuleId),
      .references ∈ ((queries executor).barrier config s).1.graph.kinds id →
        .references ∈ s.graph.kinds id :=
    references_of_answerAll executor
  rcases Phase.mem_kinds_run hbarrier hrun h with
    hold | ⟨w, -, -, output, ho, q, hq, hkind⟩
  · exact hold
  · have hstage : q.kind.stage = 3 :=
      (emits_queries executor w.before id output (Phase.outcome_eq_ran ho).2.2).2 q hq
    rw [hkind] at hstage
    cases hstage

theorem references_of_consumption {s s' : RunState} {summary : PhaseSummary}
    (hbuilder : ∀ b, registry.builder? (s.graph.module id) = some b → b.PublishesNoReferences)
    (hrun : consumption.run registry config s = (s', .ok summary))
    (h : .references ∈ s'.graph.kinds id) : .references ∈ s.graph.kinds id := by
  rcases Phase.mem_kinds_run (fun _ _ h => h) hrun h with
    hold | ⟨w, hw, -, output, ho, q, hq, hkind⟩
  · exact hold
  · rcases consume_eq_ok (Except.ok.inj (Phase.outcome_eq_ran ho).2.2) with
      rfl | ⟨b, inbox, ps, hb, hps, rfl⟩
    · cases hq
    · rw [← (Phase.extends_of_history hw).module] at hbuilder
      exact absurd (hkind ▸ List.mem_map_of_mem hq) (hbuilder b hb inbox ps hps)

/-- **Who published a record of references** has had a conversion that succeeded. -/
theorem exists_convertedIn_of_references (hfresh : g.Fresh)
    (hrun : runOn registry config executor g = (s, .ok report))
    (hbuilder : ∀ b, registry.builder? (g.module id) = some b → b.PublishesNoReferences)
    (h : .references ∈ s.graph.kinds id) :
    ∃ w ∈ conversions.history registry config (decidedGraph registry config g), ∃ targets r,
      ConvertedIn registry config w id targets r := by
  obtain ⟨s₂, s₃, s₄, _, _, _, hgraph, hconversions, hqueries, hconsumption, hext⟩ :=
    exists_later_runs hrun
  rw [← hext.module] at hbuilder
  rw [← hgraph]
  have hafter : .references ∈ s₃.graph.kinds id :=
    references_of_queries hqueries (references_of_consumption hbuilder hconsumption h)
  rcases Phase.mem_kinds_run (fun _ _ h => h) hconversions hafter with
    hold | ⟨w, hw, hmem, output, ho, q, hq, -⟩
  · rw [hgraph] at hold
    exact absurd (kindsBelow_decidedGraph registry config hfresh id _ hold) (Nat.lt_irrefl 2)
  · rcases convertedIn_of_outcome hmem ho with ⟨rfl, -⟩ | ⟨targets, r, hconverted, -⟩
    · cases hq
    · exact ⟨w, hw, targets, r, hconverted⟩

/-- **What a report has from the conversion of a module**: the names that it could not
find, each of them once. -/
theorem exists_unfound (hfresh : g.Fresh)
    (hrun : runOn registry config executor g = (s, .ok report)) (hid : id < s.graph.size)
    (hbuilder : ∀ b, registry.builder? (g.module id) = some b → b.PublishesNoReferences) :
    ∃ names, UnfoundByConversion registry config g id names ∧
      (ModuleReport.references s.graph id).1 = Distinct.firsts names ∧
      (names = [] ∨ config.allowMissing = true) := by
  by_cases hconverted : ∃ w ∈ conversions.history registry config (decidedGraph registry config g),
      ∃ targets r, ConvertedIn registry config w id targets r
  · obtain ⟨w, hw, targets, r, hconverted⟩ := hconverted
    obtain ⟨-, hreferences⟩ := hconverted.published hrun hid hw
    obtain ⟨c, hc, hmissing⟩ := hconverted.missing_eq
    refine ⟨_, .converted hw hconverted hc, ?_, ?_⟩
    · rw [ModuleReport.references, hreferences]
      exact hmissing
    · rw [← Distinct.firsts_eq_nil_iff, ← hmissing]
      exact hconverted.converts.tolerated
  · refine ⟨[], .unconverted fun w hw targets r h => hconverted ⟨w, hw, targets, r, h⟩, ?_,
      .inl rfl⟩
    unfold ModuleReport.references
    split
    next missing unconverted h =>
      have hkind := mem_kinds_of_provider? h
      exact absurd (exists_convertedIn_of_references hfresh hrun hbuilder hkind) hconverted
    next => rfl

/-! ## Whole reports -/

theorem missing_eq_nil_of_sound (hfresh : g.Fresh) (htyped : g.Typed registry)
    (hrun : runOn registry config executor g = (s, .ok report)) (hid : id < s.graph.size)
    (hstrict : config.allowMissing = false)
    (hbuilder : ∀ b, registry.builder? (g.module id) = some b → b.PublishesNoReferences)
    (hsound : s.graph.isFailed id = false) : (ModuleReport.ofGraph s.graph id).missing = [] := by
  have hloaded : id < g.size := (extends_runOn hrun).size ▸ hid
  obtain ⟨w, g₁, hdealt, hext⟩ := exists_dealt_discovery hfresh hrun hloaded
  obtain ⟨output, houtput⟩ := hdealt.ran_of_sound (hext.isFailed_eq_false hsound)
  obtain ⟨type, found, -, -, htolerated, hdiscovered⟩ :=
    discovered_of_ok hfresh htyped hrun hloaded (Outcome.ran.inj houtput)
  obtain ⟨names, -, hreferences, hunfound⟩ := exists_unfound hfresh hrun hid hbuilder
  have herrors : s.graph.errors id = [] := by simpa [Graph.isFailed] using hsound
  show Distinct.firsts (_ ++ _ ++ _) = []
  rw [Distinct.firsts_eq_nil_iff, hdiscovered, hreferences, herrors,
    eq_nil_of_tolerated hstrict htolerated, eq_nil_of_tolerated hstrict hunfound]
  rfl

/-- **Where missing names are not allowed**, a converted module has mentioned no
reference without a module to it. -/
theorem mentions_found_of_converted {modules : List Module}
    (hload : Graph.ofModules registry modules = .ok g)
    (hrun : runOn registry config executor g = (s, .ok report)) (hid : id < s.graph.size)
    (hstrict : config.allowMissing = false)
    (hconverted : (ModuleReport.ofGraph s.graph id).isConverted = true)
    (hw : w ∈ conversions.history registry config (decidedGraph registry config g))
    (hmem : id ∈ w.modules) :
    ∃ c, registry.converter? (w.before.module id) = some c ∧
      ∀ reference ∈ c.mentions ⟨w.before, registry, config, id⟩,
        (w.before.lookup id reference.name).isSome = true := by
  obtain ⟨hsound, hdecided⟩ := ModuleReport.isConverted_iff.mp hconverted
  obtain ⟨w', hw', targets, r, h⟩ := exists_convertedIn hload hrun hid hsound hdecided
  obtain rfl := Phase.wave_unique hw hw' hmem h.visited
  obtain ⟨c, hc, hmissing⟩ := h.missing_eq
  have hnone : r.missing = [] := eq_nil_of_tolerated hstrict h.converts.tolerated
  rw [hmissing, Distinct.firsts_eq_nil_iff] at hnone
  exact ⟨c, hc, Viewpoint.unfound_eq_nil_iff.mp hnone⟩

/-- **Where missing names are allowed**, those of discovery are listed, and behind
them those of the conversion. -/
theorem missing_eq_of_allowed {output : StepOutput} (hfresh : g.Fresh)
    (htyped : g.Typed registry) (hrun : runOn registry config executor g = (s, .ok report))
    (hid : id < s.graph.size) (hallow : config.allowMissing = true)
    (hconverters : ∀ m c, registry.converter? m = some c → c.ReportsNoneMissing)
    (hreports : ∀ b, registry.builder? (g.module id) = some b → b.ReportsNoneMissing)
    (hpublishes : ∀ b, registry.builder? (g.module id) = some b → b.PublishesNoReferences)
    (hstep : discover ⟨g, registry, config, id⟩ = .ok output) :
    ∃ type found, registry.get? (g.module id).moduleType = some type ∧
      declarations ⟨g, registry, config, id⟩ type.dependencyProperties = .ok found ∧
      ∃ names, UnfoundByConversion registry config g id names ∧
        (ModuleReport.ofGraph s.graph id).missing =
          Distinct.firsts (missingNames ⟨g, registry, config, id⟩ found ++ names) := by
  have hclean := missing_notMem_errors hfresh hrun hallow hconverters hreports
  obtain ⟨type, found, htype, hfound, -, hdiscovered⟩ :=
    discovered_of_ok hfresh htyped hrun ((extends_runOn hrun).size ▸ hid) hstep
  obtain ⟨names, hunfound, hreferences, -⟩ := exists_unfound hfresh hrun hid hpublishes
  refine ⟨type, found, htype, hfound, names, hunfound, ?_⟩
  show Distinct.firsts (_ ++ _ ++ _) = _
  rw [hdiscovered, hreferences, ModuleReport.missingInErrors_eq_nil hclean, List.append_nil,
    Distinct.firsts_append_firsts]

/-- **Strict and permissive builds.** Take the report of a build whose converters
report no missing names by themselves.

* No list of missing or unconverted names in it has a name twice.
* Where missing names are not allowed, a module for which there are any has failed,
  if its builder publishes no record of references; and the converter of a module that
  is converted in the report has mentioned no reference without a module to it.
* Where they are allowed, a module has no error about missing names, if its builder
  reports none by itself. If moreover its builder publishes no record of references and
  its discovery succeeded, the report lists the names that discovery could not find and
  then those that its conversion could not find, each at its first place. -/
theorem report_lists_missing_names {modules : List Module}
    (hload : Graph.ofModules registry modules = .ok g)
    (hrun : runOn registry config executor g = (s, .ok report))
    (hconverters : ∀ m c, registry.converter? m = some c → c.ReportsNoneMissing) :
    (∀ m ∈ report.modules, m.missing.Nodup ∧ m.unconverted.Nodup) ∧
    (config.allowMissing = false → ∀ m ∈ report.modules,
      ((∀ b, registry.builder? (g.module m.id) = some b → b.PublishesNoReferences) →
        m.missing ≠ [] → m.isFailed = true) ∧
      (m.isConverted = true →
        ∀ w ∈ conversions.history registry config (decidedGraph registry config g),
          m.id ∈ w.modules → ∃ c, registry.converter? (w.before.module m.id) = some c ∧
            ∀ reference ∈ c.mentions ⟨w.before, registry, config, m.id⟩,
              (w.before.lookup m.id reference.name).isSome = true)) ∧
    (config.allowMissing = true → ∀ m ∈ report.modules,
      (∀ b, registry.builder? (g.module m.id) = some b → b.ReportsNoneMissing) →
      (∀ names, .missingDependencies names ∉ m.errors) ∧
      ((∀ b, registry.builder? (g.module m.id) = some b → b.PublishesNoReferences) →
        ∀ output, discover ⟨g, registry, config, m.id⟩ = .ok output →
          ∃ type found, registry.get? (g.module m.id).moduleType = some type ∧
            declarations ⟨g, registry, config, m.id⟩ type.dependencyProperties = .ok found ∧
            ∃ names, UnfoundByConversion registry config g m.id names ∧
              m.missing =
                Distinct.firsts (missingNames ⟨g, registry, config, m.id⟩ found ++ names))) := by
  have hfresh := fresh_ofModules hload
  have htyped := typed_ofModules hload
  refine ⟨?_, ?_, ?_⟩
  · intro m hm
    obtain ⟨id, -, rfl⟩ := (mem_modules_report hrun).mp hm
    exact ModuleReport.nodup_names s.graph id
  · intro hstrict m hm
    obtain ⟨id, hid, rfl⟩ := (mem_modules_report hrun).mp hm
    constructor
    · intro hbuilder hmissing
      by_contra hsound
      apply hmissing
      apply missing_eq_nil_of_sound hfresh htyped hrun hid hstrict hbuilder
      exact Bool.not_eq_true _ ▸ hsound
    · intro hconverted w hw hmem
      exact mentions_found_of_converted hload hrun hid hstrict hconverted hw hmem
  · intro hallow m hm hreports
    obtain ⟨id, hid, rfl⟩ := (mem_modules_report hrun).mp hm
    constructor
    · exact missing_notMem_errors hfresh hrun hallow hconverters hreports
    · intro hpublishes output hstep
      exact missing_eq_of_allowed hfresh htyped hrun hid hallow hconverters hreports hpublishes
        hstep

/-! A build that allows missing names. Its module declares a dependency on `absent`,
which is not there, and its converter expands a property of which discovery knows
nothing. -/

def listing : Converter where
  convert m _ _ := .expand (m.list "outs") [] fun _ => .done (.ok [])
  taggedOutput _ := false

def listingTypes : Registry :=
  Registry.empty.register "lib" ⟨.convertible listing, DependencyProperty.standard⟩

def listingConfig : Config := { Config.ofTree Listing.empty.sourceTree with allowMissing := true }

def listingModules : List Module :=
  [(((Module.plain "app" "lib" "").withProp "deps" (.list ["absent"])).withProp "outs"
    (.list [":later", ":absent"])).withAvailable true]

def listingGraph : Graph := (Graph.ofModules listingTypes listingModules).toOption.getD default

def listingRun : RunState × Except Abort BuildReport :=
  runOn listingTypes listingConfig Executor.none listingGraph

theorem listing_run_lists_both :
    ∃ names, UnfoundByConversion listingTypes listingConfig listingGraph 0 names ∧
      (ModuleReport.ofGraph listingRun.1.graph 0).missing = Distinct.firsts ("absent" :: names) := by
  have hload : Graph.ofModules listingTypes listingModules = .ok listingGraph := rfl
  have hrun : runOn listingTypes listingConfig Executor.none listingGraph =
      (listingRun.1, .ok (listingRun.2.toOption.getD ⟨[], []⟩)) := by
    decide +kernel
  have hconverters : ∀ m c, listingTypes.converter? m = some c → c.ReportsNoneMissing := by
    intro m c hc v r names h
    obtain rfl := Option.some.inj (Registry.converter?_register_empty hc)
    cases h
  have hnone : ∀ m b, listingTypes.builder? m ≠ some b := by
    intro m b hb
    cases Registry.builder?_register_empty hb
  have hm : ModuleReport.ofGraph listingRun.1.graph 0 ∈
      (listingRun.2.toOption.getD ⟨[], []⟩).modules := by
    decide +kernel
  have hstep : discover ⟨listingGraph, listingTypes, listingConfig, 0⟩ =
      .ok ⟨[.discovery ["absent"]], []⟩ := by
    decide +kernel
  obtain ⟨-, -, hallowed⟩ := report_lists_missing_names hload hrun hconverters
  obtain ⟨-, hlisted⟩ := hallowed rfl _ hm fun b hb => absurd hb (hnone _ b)
  obtain ⟨type, found, htype, hfound, names, hunfound, hmissing⟩ :=
    hlisted (fun b hb => absurd hb (hnone _ b)) _ hstep
  obtain rfl := Registry.get?_register_empty htype
  have hdeclared : declarations ⟨listingGraph, listingTypes, listingConfig, 0⟩
      DependencyProperty.standard = .ok [("absent", .ordinary)] := by
    decide +kernel
  obtain rfl := Except.ok.inj (hdeclared.symm.trans hfound)
  exact ⟨names, hunfound, hmissing⟩

/-! Builds of one module that has a label of its own and is not converted, whose builder
comes to `result` whatever it is handed. A record of references that the builder
publishes is listed for a module that is sound though missing names are not allowed, and
an error about missing names that it returns is there though they are allowed. -/

def meddlingTypes (result : Except ModuleError (List Provider)) : Registry :=
  Registry.empty.register "lib"
    ⟨.mixed ⟨fun _ _ _ => .done (.ok []), fun _ => false⟩
      ⟨fun _ _ => true, fun _ _ => [], fun _ => result⟩, DependencyProperty.standard⟩

def meddlingConfig (allowMissing : Bool) : Config where
  __ := Config.ofTree Listing.empty.sourceTree
  allowlist := Allowlist.empty.allowMixed "app"
  mixedBuilds := true
  allowMissing := allowMissing

def meddlingRun (result : Except ModuleError (List Provider)) (allowMissing : Bool) :
    Except Abort BuildReport :=
  run (meddlingTypes result) (meddlingConfig allowMissing) Executor.none
    [(Module.plain "app" "lib" "").withLabel "//:app"]

theorem meddling_builders_break_both_modes :
    (∀ result m c, (meddlingTypes result).converter? m = some c → c.ReportsNoneMissing) ∧
    (∃ report, meddlingRun (.ok [.references ["gone"] []]) false = .ok report ∧
      ¬ ∀ m ∈ report.modules, m.missing ≠ [] → m.isFailed = true) ∧
    ∃ report, meddlingRun (.error (.missingDependencies ["gone"])) true = .ok report ∧
      ¬ ∀ m ∈ report.modules, ∀ names, .missingDependencies names ∉ m.errors := by
  refine ⟨?_, ?_, ?_⟩
  · intro result m c hc v r names h
    obtain rfl := Option.some.inj (Registry.converter?_register_empty hc)
    cases h
  · have hrun : meddlingRun (.ok [.references ["gone"] []]) false =
        .ok ((meddlingRun (.ok [.references ["gone"] []]) false).toOption.getD ⟨[], []⟩) := by
      decide +kernel
    refine ⟨_, hrun, ?_⟩
    decide +kernel
  · have hrun : meddlingRun (.error (.missingDependencies ["gone"])) true =
        .ok ((meddlingRun (.error (.missingDependencies ["gone"])) true).toOption.getD
          ⟨[], []⟩) := by
      decide +kernel
    refine ⟨_, hrun, fun hnone => ?_⟩
    have herror : ∃ m ∈ ((meddlingRun (.error (.missingDependencies ["gone"])) true).toOption.getD
        ⟨[], []⟩).modules, .missingDependencies ["gone"] ∈ m.errors := by
      decide +kernel
    obtain ⟨m, hm, he⟩ := herror
    exact hnone m hm ["gone"] he

end Build

end TargetGen
