import Mathlib.Data.List.Nodup
import Mathlib.Data.List.Perm.Basic
import TargetGen.Proofs.Build.Conversions

/-!
# Targets — build files are what the converted modules came to

The conversions publish targets of modules that may still fail: by what they make
of their answers, or by a failure that spreads. The report goes by the end. A
module is converted if it was decided to convert and has no error; then its
converter has been run once, and what this came to is what the report shows
(`isConverted_iff_convertedOnce`).

The build files group the targets of these modules by package. That is a matter
of lists: grouping by keys loses nothing and doubles nothing
(`perm_flatMap_filter`), and a stable sort leaves what compares equal in its order
(`filter_mergeSort_of_ties`).
-/

namespace TargetGen

open TargetGen.Graph

/-! ## Lists in groups -/

section Lists

variable {α κ : Type} [DecidableEq κ] {key : α → κ} {le : α → α → Bool}

theorem perm_flatMap_filter {keys : List κ} (hnodup : keys.Nodup) {xs : List α}
    (hkeys : ∀ x ∈ xs, key x ∈ keys) :
    (keys.flatMap fun k => xs.filter (key · = k)).Perm xs := by
  induction keys generalizing xs with
  | nil =>
    have hnone : xs = [] := by
      rw [List.eq_nil_iff_forall_not_mem]
      intro x hx
      cases hkeys x hx
    rw [hnone]
    exact List.Perm.nil
  | cons k rest ih =>
    obtain ⟨hk, hrest⟩ := List.nodup_cons.mp hnodup
    -- the groups of the other keys are those of what has another key
    have hothers : (rest.flatMap fun k' => xs.filter (key · = k')) =
        rest.flatMap fun k' => (xs.filter fun x => !decide (key x = k)).filter (key · = k') := by
      apply List.flatMap_congr
      intro k' hk'
      rw [List.filter_filter]
      apply List.filter_congr
      intro x _
      have hne : k' ≠ k := fun heq => hk (heq ▸ hk')
      by_cases heq : key x = k'
      · simp [heq, hne]
      · simp [heq]
    have hcovered : ∀ x ∈ xs.filter (fun x => !decide (key x = k)), key x ∈ rest := by
      intro x hx
      rw [List.mem_filter, Bool.not_eq_true', decide_eq_false_iff_not] at hx
      exact (List.mem_cons.mp (hkeys x hx.1)).resolve_left hx.2
    rw [List.flatMap_cons, hothers]
    exact ((ih hrest hcovered).append_left _).trans (List.filter_append_perm _ xs)

/-- **A stable sort** leaves elements in their order none of which has to come before
another one. -/
theorem filter_mergeSort_of_ties (htrans : ∀ a b c, le a b = true → le b c = true → le a c = true)
    (htotal : ∀ a b, (le a b || le b a) = true) {p : α → Bool} (xs : List α)
    (hties : ∀ a b, p a = true → p b = true → le a b = true) :
    (xs.mergeSort le).filter p = xs.filter p := by
  have hsorted : (xs.filter p).Pairwise (le · ·) := by
    rw [List.pairwise_filter]
    exact List.pairwise_of_forall fun a b => hties a b
  have hsublist : (xs.filter p).Sublist (xs.mergeSort le) :=
    List.sublist_mergeSort htrans htotal hsorted List.filter_sublist
  have hfilter := hsublist.filter p
  rw [List.filter_filter] at hfilter
  simp only [Bool.and_self] at hfilter
  exact (hfilter.eq_of_length ((List.mergeSort_perm xs le).symm.filter p).length_eq).symm

end Lists

/-! ## Build files -/

/-- Files of targets, each of them under the name of its package: whose keys are in
order and without repetitions, which hold the given targets, each as often as it
was given, and nothing else, and of which none is empty. A file holds targets of its
package only, by name; targets of one name stand as they were given. -/
structure GroupsByPackage (targets : List Target) (files : List (String × List Target)) :
    Prop where
  keys : Ordered.Increasing compareNames (files.map Prod.fst)
  complete : (files.flatMap Prod.snd).Perm targets
  nonempty : ∀ f ∈ files, f.2 ≠ []
  package : ∀ f ∈ files, ∀ t ∈ f.2, t.package = f.1
  sorted : ∀ f ∈ files, f.2.Pairwise fun a b => compareNames a.name b.name ≠ .gt
  stable : ∀ f ∈ files, ∀ name, f.2.filter (·.name = name) =
    targets.filter fun t => t.package = f.1 ∧ t.name = name

namespace BuildReport

theorem precedes_iff {a b : Target} :
    precedes a b = true ↔ (compareNames a.name b.name).isLE = true := by
  rw [precedes, decide_eq_true_eq, Ordering.isLE_iff_ne_gt]

theorem precedes_trans (a b c : Target) (h : precedes a b = true) (h' : precedes b c = true) :
    precedes a c = true := by
  rw [precedes_iff] at h h' ⊢
  exact Std.TransCmp.isLE_trans h h'

theorem precedes_total (a b : Target) : (precedes a b || precedes b a) = true := by
  have hswap : compareNames b.name a.name = (compareNames a.name b.name).swap :=
    Std.OrientedCmp.eq_swap
  rw [Bool.or_eq_true, precedes_iff, precedes_iff, hswap]
  cases compareNames a.name b.name with
  | lt => exact .inl rfl
  | eq => exact .inl rfl
  | gt => exact .inr rfl

theorem mem_packages {r : BuildReport} {package : String} :
    package ∈ r.packages.names ↔ ∃ t ∈ r.targets, t.package = package := by
  show package ∈ Ordered.ofList compareNames _ ↔ _
  rw [Ordered.mem_ofList_iff, List.mem_map]

theorem targetsIn_perm (r : BuildReport) (package : String) :
    (r.targetsIn package).Perm (r.targets.filter (·.package = package)) :=
  List.mergeSort_perm _ _

/-- **Build files group the targets** of the converted modules by package. -/
theorem groupsByPackage_buildFiles (r : BuildReport) :
    GroupsByPackage r.targets r.buildFiles where
  keys := by
    have hkeys : r.buildFiles.map Prod.fst = r.packages.names := by
      rw [buildFiles, List.map_map]
      exact List.map_id _
    rw [hkeys]
    exact r.packages.increasing
  complete := by
    have hfiles : r.buildFiles.flatMap Prod.snd = r.packages.names.flatMap r.targetsIn := by
      rw [buildFiles, List.flatMap_map]
    rw [hfiles]
    have hgroups := List.Perm.flatMap_left r.packages.names
      fun package _ => r.targetsIn_perm package
    apply hgroups.trans
    apply perm_flatMap_filter r.packages.increasing.nodup
    intro t ht
    exact mem_packages.mpr ⟨t, ht, rfl⟩
  nonempty := by
    intro f hf hnil
    obtain ⟨package, hpackage, rfl⟩ := List.mem_map.mp hf
    obtain ⟨t, ht, hin⟩ := mem_packages.mp hpackage
    have hmem : t ∈ r.targetsIn package := by
      rw [(r.targetsIn_perm package).mem_iff, List.mem_filter, decide_eq_true_eq]
      exact ⟨ht, hin⟩
    rw [show r.targetsIn package = [] from hnil] at hmem
    cases hmem
  package := by
    intro f hf t ht
    obtain ⟨package, -, rfl⟩ := List.mem_map.mp hf
    rw [(r.targetsIn_perm package).mem_iff, List.mem_filter, decide_eq_true_eq] at ht
    exact ht.2
  sorted := by
    intro f hf
    obtain ⟨package, -, rfl⟩ := List.mem_map.mp hf
    have hsorted := List.pairwise_mergeSort precedes_trans precedes_total
      (r.targets.filter (·.package = package))
    exact hsorted.imp fun h => of_decide_eq_true h
  stable := by
    intro f hf name
    obtain ⟨package, -, rfl⟩ := List.mem_map.mp hf
    have hties : ∀ a b : Target, decide (a.name = name) = true → decide (b.name = name) = true →
        precedes a b = true := by
      intro a b ha hb
      rw [decide_eq_true_eq] at ha hb
      have hsame : compareNames name name = .eq := Std.ReflCmp.compare_self
      rw [precedes_iff, ha, hb, hsame]
      rfl
    show (r.targetsIn package).filter _ = _
    rw [targetsIn, filter_mergeSort_of_ties precedes_trans precedes_total _ hties,
      List.filter_filter]
    apply List.filter_congr
    intro t _
    rw [← Bool.decide_and]
    exact decide_eq_decide.mpr and_comm

end BuildReport

namespace Build

variable {registry : Registry} {config : Config} {executor : Executor} {g : Graph}
  {s : RunState} {report : BuildReport} {id : ModuleId} {targets : List Target}

/-! ## Converted modules -/

/-- The converter of a module was run once in a build, with success, and came to
`targets`: the conversions visited the module once, and in the wave of this visit its
conversion succeeded. -/
structure ConvertedOnce (registry : Registry) (config : Config) (g : Graph) (id : ModuleId)
    (targets : List Target) : Prop where
  once : ((conversions.history registry config (decidedGraph registry config g)).map
    StartedWave.modules).flatten.count id = 1
  succeeded : ∃ w ∈ conversions.history registry config (decidedGraph registry config g),
    ∃ r, ConvertedIn registry config w id targets r

theorem ConvertedOnce.of_convertedIn {w : StartedWave} {r : ReferenceRecord}
    (hw : w ∈ conversions.history registry config (decidedGraph registry config g))
    (h : ConvertedIn registry config w id targets r) :
    ConvertedOnce registry config g id targets where
  once := by
    apply List.count_eq_one_of_mem (Phase.nodup_history ..)
    exact List.mem_flatten.mpr ⟨w.modules, List.mem_map_of_mem hw, h.visited⟩
  succeeded := ⟨w, hw, r, h⟩

theorem ConvertedOnce.decided (hrun : runOn registry config executor g = (s, .ok report))
    (hid : id < s.graph.size) (h : ConvertedOnce registry config g id targets) :
    s.graph.decidedToConvert id = true := by
  obtain ⟨w, hw, r, hconverted⟩ := h.succeeded
  obtain ⟨w', hw', hmem, o, g₃, hdealt, hext⟩ := exists_dealt_conversions hrun hid
  obtain rfl := Phase.wave_unique hw hw' hconverted.visited hmem
  exact (hdealt.extends_before.trans hext).decidedToConvert hconverted.converts.decided

/-- **Who is converted in the report**: a module that has not failed, whose converter
was run once, with success, and published its targets. -/
theorem isConverted_iff_convertedOnce {modules : List Module}
    (hload : Graph.ofModules registry modules = .ok g)
    (hrun : runOn registry config executor g = (s, .ok report)) (hid : id < s.graph.size) :
    (ModuleReport.ofGraph s.graph id).isConverted = true ↔
      (ModuleReport.ofGraph s.graph id).isFailed = false ∧
        ConvertedOnce registry config g id (ModuleReport.ofGraph s.graph id).targets ∧
        s.graph.provider? id .targets =
          some (.targets (ModuleReport.ofGraph s.graph id).targets) := by
  have hfailed : (ModuleReport.ofGraph s.graph id).isFailed = s.graph.isFailed id := rfl
  rw [ModuleReport.isConverted_iff, hfailed]
  constructor
  · rintro ⟨hsound, hdecided⟩
    obtain ⟨w, hw, targets, r, hconverted⟩ := exists_convertedIn hload hrun hid hsound hdecided
    have hpublished := (hconverted.published hrun hid hw).1
    have htargets : (ModuleReport.ofGraph s.graph id).targets = targets := by
      show ModuleReport.targetsOf s.graph id = targets
      rw [ModuleReport.targetsOf, hpublished]
    rw [htargets]
    exact ⟨hsound, .of_convertedIn hw hconverted, hpublished⟩
  · rintro ⟨hsound, honce, -⟩
    exact ⟨hsound, honce.decided hrun hid⟩

/-! ## Whole builds -/

/-- **A report has its modules in load order.** -/
theorem modules_in_load_order {modules : List Module}
    (hload : Graph.ofModules registry modules = .ok g)
    (hrun : runOn registry config executor g = (s, .ok report)) :
    List.Forall₂ (fun m (r : ModuleReport) =>
      r.name = m.name ∧ r.moduleType = m.moduleType ∧ r.dir = m.dir) modules report.modules := by
  have hext := extends_runOn hrun
  have hheld := holds_ofModules hload
  rw [Holds, ← map_module_ids, List.forall₂_map_right_iff, ← hext.ids] at hheld
  rw [modules_report hrun, List.forall₂_map_right_iff]
  apply hheld.imp
  rintro m id ⟨capability, hm⟩
  rw [← hext.module] at hm
  show (s.graph.module id).name = _ ∧ (s.graph.module id).moduleType = _ ∧
    (s.graph.module id).dir = _
  rw [hm]
  exact ⟨rfl, rfl, rfl⟩

/-- **Build files are what the converted modules came to.** Take the report of a build.

* A module is converted in it if and only if it has not failed, and its converter was
  run once, with success, and published the targets that the report shows.
* Where the conversions visit a module that was decided to convert, it has a converter.
* The modules of the report are in load order, and the build files group the targets
  of the converted ones by package: each of them is in the file of its package, as
  often as it was made, with those of one name in load order and then in the order in
  which they were made; there are no others, and no file is empty. -/
theorem build_files_group_converted {modules : List Module}
    (hload : Graph.ofModules registry modules = .ok g)
    (hrun : runOn registry config executor g = (s, .ok report)) :
    (∀ m ∈ report.modules, m.isConverted = true ↔ m.isFailed = false ∧
      ConvertedOnce registry config g m.id m.targets ∧
      s.graph.provider? m.id .targets = some (.targets m.targets)) ∧
    (∀ w ∈ conversions.history registry config (decidedGraph registry config g),
      ∀ id ∈ w.modules, w.before.decidedToConvert id = true →
        ∃ c, registry.converter? (w.before.module id) = some c) ∧
    List.Forall₂ (fun m (r : ModuleReport) =>
      r.name = m.name ∧ r.moduleType = m.moduleType ∧ r.dir = m.dir) modules report.modules ∧
    GroupsByPackage ((report.modules.filter (·.isConverted)).flatMap ModuleReport.targets)
      report.buildFiles := by
  refine ⟨?_, ?_, modules_in_load_order hload hrun, report.groupsByPackage_buildFiles⟩
  · intro m hm
    obtain ⟨id, hid, rfl⟩ := (mem_modules_report hrun).mp hm
    exact isConverted_iff_convertedOnce hload hrun hid
  · intro w hw id hid hdecided
    exact exists_converter_of_history hload hw hid hdecided

/-! A build of three modules at the top of the tree. Each of them makes a target of its
own name and one called `all`; `spare` does not opt in. -/

def pairing : Converter where
  convert m _ _ := .done (.ok [Target.plain "cc" m.name "", Target.plain m.name "all" ""])
  taggedOutput _ := false

def pairingTypes : Registry :=
  Registry.empty.register "lib" ⟨.convertible pairing, DependencyProperty.standard⟩

def pairingConfig : Config := Config.ofTree Listing.empty.sourceTree

def pairingModules : List Module :=
  [(Module.plain "base" "lib" "").withAvailable true, Module.plain "spare" "lib" "",
   (Module.plain "app" "lib" "").withAvailable true]

def pairingGraph : Graph := (Graph.ofModules pairingTypes pairingModules).toOption.getD default

def pairingRun : RunState × Except Abort BuildReport :=
  runOn pairingTypes pairingConfig Executor.none pairingGraph

def pairingReport : BuildReport := pairingRun.2.toOption.getD ⟨[], []⟩

/-- In the one build file, `base` has its `all` before that of `app`. -/
theorem pairing_file_in_load_order :
    ∃ f ∈ pairingReport.buildFiles, f.1 = "" ∧ f.2.filter (·.name = "all") =
      [Target.plain "base" "all" "", Target.plain "app" "all" ""] := by
  have hload : Graph.ofModules pairingTypes pairingModules = .ok pairingGraph := rfl
  have hrun : runOn pairingTypes pairingConfig Executor.none pairingGraph =
      (pairingRun.1, .ok pairingReport) := by
    decide +kernel
  have hpackage : "" ∈ pairingReport.packages.names := by decide +kernel
  have hf : ("", pairingReport.targetsIn "") ∈ pairingReport.buildFiles :=
    List.mem_map_of_mem hpackage
  obtain ⟨-, -, -, hgroups⟩ := build_files_group_converted hload hrun
  refine ⟨_, hf, rfl, ?_⟩
  rw [hgroups.stable _ hf "all"]
  decide +kernel

end Build

end TargetGen
