import TargetGen.Proofs.Build.Failure
import TargetGen.Proofs.Phase.Accounts

/-!
# Reports — what a build that comes to its end has to say

A report reads the last graph of a run. Whatever a graph of the run holds, the
last one holds as well; and since failures were spread at its end, no module of
a report is sound that depends on one that has failed.
-/

namespace TargetGen

open TargetGen.Graph

variable {registry : Registry} {config : Config} {executor : Executor} {g g' : Graph}
  {s s' : RunState} {report : BuildReport} {id dep : ModuleId}

/-! ## Decisions -/

theorem Graph.Extends.decidedToConvert (h : Extends g g')
    (hd : g.decidedToConvert id = true) : g'.decidedToConvert id = true := by
  obtain ⟨d, hp, hconvert⟩ := decidedToConvert_iff.mp hd
  exact decidedToConvert_iff.mpr ⟨d, h.provider? hp, hconvert⟩

/-! ## Modules of a report -/

@[simp] theorem ModuleReport.isConverted_iff :
    (ofGraph g id).isConverted = true ↔
      g.isFailed id = false ∧ g.decidedToConvert id = true := by
  have hdecision : ((ofGraph g id).decision.map Decision.convert).getD false =
      g.decidedToConvert id := by
    show ((g.decision? id).map Decision.convert).getD false = _
    unfold decidedToConvert
    cases g.decision? id <;> rfl
  rw [isConverted, hdecision, Bool.and_eq_true]
  show (g.errors id).isEmpty = true ∧ _ ↔ _
  rw [Graph.isFailed, Bool.not_eq_false']

namespace Build

theorem extends_runAll {ps : List Phase} {summaries : List PhaseSummary}
    (hps : ∀ p ∈ ps, p ∈ phases executor)
    (h : Phase.runAll registry config ps s = (s', .ok summaries)) : Extends s.graph s'.graph :=
  Phase.Passes.start.extends
    (fun p hp s => (publishes_barrier (hps p hp) config s).toExtends) h

theorem extends_runOn (hrun : runOn registry config executor g = (s, .ok report)) :
    Extends g s.graph := by
  obtain ⟨_, hall⟩ := runOn_eq_ok hrun
  exact extends_runAll (fun _ hp => hp) hall

theorem modules_report (hrun : runOn registry config executor g = (s, .ok report)) :
    report.modules = s.graph.ids.map (ModuleReport.ofGraph s.graph) := by
  unfold runOn at hrun
  cases hr : Phase.runAll registry config (phases executor) (RunState.ofGraph g) with
  | mk s' result =>
    rw [hr] at hrun
    obtain ⟨rfl, hresult⟩ := Prod.mk.inj hrun
    obtain ⟨summaries, -, rfl⟩ := map_eq_ok hresult
    rfl

theorem mem_modules_report (hrun : runOn registry config executor g = (s, .ok report))
    {m : ModuleReport} :
    m ∈ report.modules ↔ ∃ id < s.graph.size, ModuleReport.ofGraph s.graph id = m := by
  rw [modules_report hrun, List.mem_map]
  exact exists_congr fun id => and_congr_left' mem_ids

theorem exists_historyDone {p : Phase} {summary : PhaseSummary} (hp : p ∈ phases executor)
    (hrun : p.run registry config s = (s', .ok summary)) :
    ∃ g₁, p.HistoryDone registry config s.graph g₁ ∧ Extends g₁ s'.graph := by
  obtain ⟨g₁, sb, hdone, hb, rfl⟩ := Phase.historyDone_of_run hrun
  have hbarrier := publishes_barrier hp config { s with graph := g₁ }
  rw [hb] at hbarrier
  exact ⟨g₁, hdone, hbarrier.toExtends.trans (extends_propagateFailures sb.graph)⟩

/-- **What a phase of a build did to a module** is in the last graph. -/
theorem exists_dealt {earlier later : List Phase} {p : Phase}
    (hsplit : phases executor = earlier ++ p :: later)
    (hrun : runOn registry config executor g = (s, .ok report)) (hid : id < s.graph.size) :
    ∃ s₁ summaries, Phase.runAll registry config earlier (RunState.ofGraph g) =
        (s₁, .ok summaries) ∧
      ∃ w ∈ p.history registry config s₁.graph, id ∈ w.modules ∧
        ∃ o g₁, p.Dealt registry config s₁.graph w id o g₁ ∧ Extends g₁ s.graph := by
  obtain ⟨_, hall⟩ := runOn_eq_ok hrun
  have hphases : ∀ q ∈ p :: later, q ∈ phases executor := fun q hq =>
    hsplit ▸ List.mem_append_right earlier hq
  rw [hsplit] at hall
  obtain ⟨s₁, summaries, _, hfirst, hall⟩ := Phase.runAll_append_eq_ok hall
  obtain ⟨s₂, _, _, hp, hlater⟩ := Phase.runAll_cons_eq_ok hall
  obtain ⟨g₁, hdone, hext⟩ := exists_historyDone (hphases p List.mem_cons_self) hp
  have hext : Extends g₁ s.graph :=
    hext.trans (extends_runAll (fun q hq => hphases q (List.mem_cons_of_mem p hq)) hlater)
  have hsize : id < s₁.graph.size := by
    rw [← hdone.extends_start.size, ← hext.size]
    exact hid
  obtain ⟨w, hw, hmem⟩ := hdone.exists_wave hsize
  obtain ⟨o, hdealt⟩ := hdone.dealt w hw id hmem
  exact ⟨s₁, summaries, hfirst, w, hw, hmem, o, g₁, hdealt, hext⟩

/-- **No module of a report is sound that depends on one that has failed.** -/
theorem isFailed_of_runOn (hrun : runOn registry config executor g = (s, .ok report))
    (hid : id < s.graph.size) (hdep : s.graph.dependsOn id dep = true)
    (hf : s.graph.isFailed dep = true) : s.graph.isFailed id = true := by
  obtain ⟨summaries, hall⟩ := runOn_eq_ok hrun
  exact Phase.failuresSpread_runAll (by simp [phases]) hall id dep hid hdep hf

end Build

end TargetGen
