import TargetGen.Build.Run
import TargetGen.Proofs.Build.Distribution
import TargetGen.Proofs.Build.Steps
import TargetGen.Proofs.Graph.Loading
import TargetGen.SourceTree.Listing

/-!
# Failure — which modules of a build have failed, and why

Errors come from three places: a step fails, a module is blocked by a failed
dependency, and failures spread at the end of a phase. Edges are added all the
while. What holds throughout is `Graph.Explained`: a module has at most one
error; an error that blames a dependency blames a direct one that has failed;
and every failed module leads to one that failed by itself. Each visit keeps it,
since what a commit adds to a module is explained by the graph on which the
outcome was found, and graphs only grow.

At the end of a phase failure is closed under edges as well
(`Graph.isFailed_of_dependsOn`). Together this makes a module failed exactly
when it leads to one that failed by itself.
-/

namespace TargetGen

open TargetGen.Graph

/-! ## Who may blame whom -/

/-- A converter that never returns the error of a failed dependency as its own. -/
def Converter.BlamesNone (c : Converter) : Prop :=
  ∀ v r name, (c.run v r).1 ≠ .ok (.error (.dependencyFailed name))

/-- A builder that never returns the error of a failed dependency as its own. -/
def MixedBuilder.BlamesNone (b : MixedBuilder) : Prop :=
  ∀ inbox name, b.consume inbox ≠ .error (.dependencyFailed name)

/-- No converter and no builder of a build returns the error of a failed
dependency as its own. -/
structure Registry.BlamesNone (r : Registry) : Prop where
  converter : ∀ m c, r.converter? m = some c → c.BlamesNone
  builder : ∀ m b, r.builder? m = some b → b.BlamesNone

/-- A phase whose steps never return the error of a failed dependency. -/
def Phase.BlamesNone (p : Phase) (registry : Registry) (config : Config) : Prop :=
  ∀ g id name, p.step ⟨g, registry, config, id⟩ ≠ .ok (.error (.dependencyFailed name))

namespace Build

theorem phases_blameNone {registry : Registry} (h : registry.BlamesNone) (config : Config)
    (executor : Executor) : ∀ p ∈ phases executor, p.BlamesNone registry config := by
  intro p hp g id name heq
  simp only [phases, List.mem_cons, List.not_mem_nil, or_false] at hp
  rcases hp with rfl | rfl | rfl | rfl | rfl
  · rcases discover_eq_error (Except.ok.inj heq) with ⟨_, _, he⟩ | ⟨⟨_, he⟩, -⟩ <;> cases he
  · cases heq
  · rcases convert_eq_error heq with ⟨c, hc, he⟩ | ⟨⟨_, he⟩, -⟩
    · exact h.converter _ c hc _ _ _ he
    · cases he
  · cases heq
  · obtain ⟨b, inbox, hb, he⟩ := consume_eq_error (Except.ok.inj heq)
    exact h.builder _ b hb _ _ he

end Build

/-! ## What holds throughout -/

/-- A module has an error of its own, not one about a dependency. -/
def Graph.FailedByItself (g : Graph) (id : ModuleId) : Prop :=
  ∃ e ∈ g.errors id, ∀ name, e ≠ .dependencyFailed name

/-- Every failure has its explanation in the graph. -/
structure Graph.Explained (g : Graph) : Prop where
  source_inside : ∀ e ∈ g.edges, e.source < g.size
  once : ∀ id, (g.errors id).length ≤ 1
  blamed : ∀ id name, .dependencyFailed name ∈ g.errors id →
    ∃ dep, g.dependsOn id dep = true ∧ g.isFailed dep = true ∧ (g.module dep).name = name
  rooted : ∀ id, g.isFailed id = true → ∃ b, g.Reaches id b ∧ g.FailedByItself b

namespace Graph

variable {g g' : Graph} {id : ModuleId}

theorem FailedByItself.isFailed (h : g.FailedByItself id) : g.isFailed id = true := by
  obtain ⟨e, he, -⟩ := h
  exact isFailed_of_mem he

theorem FailedByItself.mono (hext : Extends g g') (h : g.FailedByItself id) :
    g'.FailedByItself id := by
  obtain ⟨e, he, hown⟩ := h
  exact ⟨e, hext.mem_errors he, hown⟩

theorem Explained.blamed_mono (h : g.Explained) (hext : Extends g g') {name : String}
    (he : .dependencyFailed name ∈ g.errors id) :
    ∃ dep, g'.dependsOn id dep = true ∧ g'.isFailed dep = true ∧ (g'.module dep).name = name := by
  obtain ⟨dep, hdep, hfailed, hname⟩ := h.blamed id name he
  exact ⟨dep, hext.dependsOn hdep, hext.isFailed hfailed, by rw [hext.module, hname]⟩

theorem Explained.rooted_mono (h : g.Explained) (hext : Extends g g')
    (hf : g.isFailed id = true) : ∃ b, g'.Reaches id b ∧ g'.FailedByItself b := by
  obtain ⟨b, hr, hb⟩ := h.rooted id hf
  exact ⟨b, hr.mono hext, hb.mono hext⟩

theorem Explained.of_publishes (h : g.Explained) (hp : Publishes g g') : g'.Explained where
  source_inside e he := by
    rw [hp.edges_eq] at he
    exact hp.size ▸ h.source_inside e he
  once id := hp.errors_eq id ▸ h.once id
  blamed id name he := h.blamed_mono hp.toExtends (hp.errors_eq id ▸ he)
  rooted id hf := by
    apply h.rooted_mono hp.toExtends
    rwa [Graph.isFailed, hp.errors_eq] at hf

theorem Explained.of_empty (hedges : g.edges = []) (herrors : ∀ id, g.errors id = []) :
    g.Explained where
  source_inside e he := by simp [hedges] at he
  once id := by simp [herrors]
  blamed id name he := by simp [herrors] at he
  rooted id hf := absurd (herrors id) (isFailed_iff.mp hf)

end Graph

/-! ## Visits keep it -/

section

variable {p : Phase} {registry : Registry} {config : Config} {start before now : Graph}
  {waves : List (List ModuleId)} {seen done : List ModuleId} {id : ModuleId} {o : Outcome}

/-- **What a visit records.** A module that is given an error had none, and is
given one only: an error of its step, or one about a direct dependency that had
failed when the wave began. -/
theorem Phase.Visit.records (hp : p.BlamesNone registry config)
    (v : Phase.Visit start waves seen done before now id)
    (ho : p.outcome ⟨before, registry, config, id⟩ = .ok o) {e : ModuleError}
    (he : e ∈ o.errors now) :
    now.errors id = [] ∧ o.errors now = [e] ∧
      ((∀ name, e ≠ .dependencyFailed name) ∨
        ∃ dep, e = .dependencyFailed (now.module dep).name ∧ before.isFailed dep = true ∧
          now.dependsOn id dep = true) := by
  match o, ho, he with
  | .ran (.error e'), ho, he =>
    obtain rfl := List.mem_singleton.mp he
    obtain ⟨hsound, -, hstep⟩ := Phase.outcome_eq_ran ho
    exact ⟨v.errors_eq_nil hsound, rfl, .inl fun name hname => hp before id name (hname ▸ hstep)⟩
  | .blocked dep, ho, he =>
    obtain rfl := List.mem_singleton.mp he
    obtain ⟨hsound, hd⟩ := Phase.outcome_eq_blocked ho
    obtain ⟨-, hdep, hfailed⟩ := failedDependency_eq_some hd
    exact ⟨v.errors_eq_nil hsound, rfl, .inr ⟨dep, rfl, hfailed, v.extends_now.dependsOn hdep⟩⟩

/-- **A visit explains what it records.** -/
theorem Graph.Explained.commit (hp : p.BlamesNone registry config)
    (v : Phase.Visit start waves seen done before now id) (hbefore : before.Explained)
    (hnow : now.Explained) (ho : p.outcome ⟨before, registry, config, id⟩ = .ok o) :
    (now.commit p.name id o).1.Explained := by
  have hat := extendsAt_commit now p.name id o
  have hext := hat.toExtends
  have herrors : (now.commit p.name id o).1.errors id = now.errors id ++ o.errors now :=
    errors_commit v.inside_now o
  generalize (now.commit p.name id o).1 = g at hat hext herrors
  -- an error is an old one, or one that the visit has recorded with its module
  have hsplit : ∀ other e, e ∈ g.errors other →
      e ∈ now.errors other ∨ other = id ∧ e ∈ o.errors now := by
    intro other e he
    by_cases hid : other = id
    · subst hid
      rw [herrors, List.mem_append] at he
      exact he.imp_right fun h => ⟨rfl, h⟩
    · rw [errors, hat.node other hid] at he
      exact .inl he
  refine ⟨fun e he => ?_, fun other => ?_, fun other name he => ?_, fun other hf => ?_⟩
  · rw [hext.size]
    rcases hat.own e he with he | he
    · exact hnow.source_inside e he
    · exact he ▸ v.inside_now
  · by_cases hid : other = id
    · subst hid
      cases hnew : o.errors now with
      | nil => simpa [herrors, hnew] using hnow.once other
      | cons e rest =>
        obtain ⟨hold, hone, -⟩ := v.records hp ho (e := e) (by simp [hnew])
        simp [herrors, hold, hone]
    · rw [errors, hat.node other hid]
      exact hnow.once other
  · rcases hsplit other _ he with he | ⟨rfl, he⟩
    · exact hnow.blamed_mono hext he
    · rcases (v.records hp ho he).2.2 with hown | ⟨dep, hname, hfailed, hdep⟩
      · exact absurd rfl (hown name)
      · obtain rfl := ModuleError.dependencyFailed.inj hname
        exact ⟨dep, hext.dependsOn hdep, hext.isFailed (v.extends_now.isFailed hfailed),
          by rw [hext.module]⟩
  · obtain ⟨e, he⟩ := List.exists_mem_of_ne_nil _ (isFailed_iff.mp hf)
    rcases hsplit other e he with hold | ⟨rfl, hnew⟩
    · exact hnow.rooted_mono hext (isFailed_of_mem hold)
    · rcases (v.records hp ho hnew).2.2 with hown | ⟨dep, -, hfailed, hdep⟩
      · exact ⟨other, Relation.ReflTransGen.refl, e, he, hown⟩
      · -- the dependency had failed before the wave, and leads on from there
        obtain ⟨b, hr, hb⟩ := hbefore.rooted_mono (v.extends_now.trans hext) hfailed
        exact ⟨b, Relation.ReflTransGen.head (hext.dependsOn hdep) hr, hb⟩

theorem Phase.BlamesNone.keeps (hp : p.BlamesNone registry config) :
    p.Keeps registry config start waves (fun _ g => g.Explained) (fun _ => True) where
  commit v hbefore hnow ho _ := hbefore.commit hp v hnow ho
  clash _ _ _ _ _ := trivial
  fault _ _ _ := trivial

end

/-! ## So does the end of a phase -/

/-- **Propagation explains what it records.** -/
theorem Graph.Explained.propagateFailures {g : Graph} (h : g.Explained) :
    g.propagateFailures.1.Explained := by
  have hext := extends_propagateFailures g
  -- a module that had failed keeps its error; one that fails now is given its only one
  refine ⟨fun e he => ?_, fun id => ?_, fun id name he => ?_, fun id hf => ?_⟩
  · rw [edges_propagateFailures] at he
    exact hext.size ▸ h.source_inside e he
  · by_cases hold : g.isFailed id = true
    · rw [errors_propagateFailures_of_isFailed hold]
      exact h.once id
    · by_cases hnew : g.propagateFailures.1.isFailed id = true
      · obtain ⟨dep, -, -, hone, -⟩ := newly_failed (by simpa using hold) hnew
        simp [hone]
      · rw [isFailed_iff, not_not] at hnew
        simp [hnew]
  · by_cases hold : g.isFailed id = true
    · rw [errors_propagateFailures_of_isFailed hold] at he
      exact h.blamed_mono hext he
    · obtain ⟨dep, hdep, hfailed, hone, -⟩ :=
        newly_failed (by simpa using hold) (isFailed_of_mem he)
      rw [hone, List.mem_singleton] at he
      obtain rfl := ModuleError.dependencyFailed.inj he
      exact ⟨dep, hext.dependsOn hdep, hfailed, by rw [hext.module]⟩
  · by_cases hold : g.isFailed id = true
    · exact h.rooted_mono hext hold
    · obtain ⟨dep, -, -, -, b, hr, hb⟩ := newly_failed (by simpa using hold) hf
      obtain ⟨c, hrc, hc⟩ := h.rooted_mono hext hb
      exact ⟨c, (hr.mono hext).trans hrc, hc⟩

/-- **A phase keeps failures explained** and closes failure under edges. -/
theorem Graph.Explained.run {p : Phase} {registry : Registry} {config : Config}
    {s s' : RunState} {summary : PhaseSummary} (hp : p.BlamesNone registry config)
    (hbarrier : ∀ s, Publishes s.graph (p.barrier config s).1.graph) (h : s.graph.Explained)
    (hrun : p.run registry config s = (s', .ok summary)) :
    s'.graph.Explained ∧ s'.graph.FailureClosed := by
  obtain ⟨g, sb, hg, hpublishes, rfl⟩ :=
    Phase.run_eq_ok_of_publishes (fun _ => hp.keeps) hbarrier h hrun
  have hkept := hg.of_publishes hpublishes
  exact ⟨hkept.propagateFailures, failureClosed_propagateFailures hkept.source_inside⟩

/-! ## Whole builds -/

namespace Build

variable {registry : Registry} {config : Config} {executor : Executor} {g : Graph}
  {s : RunState} {report : BuildReport}

theorem runOn_eq_ok (h : runOn registry config executor g = (s, .ok report)) :
    ∃ summaries, Phase.runAll registry config (phases executor) (RunState.ofGraph g) =
      (s, .ok summaries) := by
  unfold runOn at h
  cases hr : Phase.runAll registry config (phases executor) (RunState.ofGraph g) with
  | mk s' result =>
    rw [hr] at h
    obtain ⟨rfl, hresult⟩ := Prod.mk.inj h
    cases result with
    | error abort => simp [Except.map] at hresult
    | ok summaries => exact ⟨summaries, rfl⟩

theorem explained_runOn (hblame : registry.BlamesNone) (hfresh : g.Fresh)
    (hrun : runOn registry config executor g = (s, .ok report)) :
    s.graph.Explained ∧ s.graph.FailureClosed := by
  obtain ⟨summaries, hall⟩ := runOn_eq_ok hrun
  refine Phase.runAll_induct (J := fun s => s.graph.Explained ∧ s.graph.FailureClosed)
    (fun p hp s s' summary hs hp' => ?_) ⟨?_, ?_⟩ hall
  · exact hs.1.run (phases_blameNone hblame config executor p hp)
      (publishes_barrier hp config) hp'
  · exact .of_empty hfresh.edges hfresh.errors
  · intro e he
    simp [hfresh.edges] at he

/-- **Why modules fail.** In the last graph of a build that comes to its end, a
module has failed exactly when edges, of whatever tags, lead from it to a module
that failed by itself. It then has one error; an error about a dependency names
a direct one that has failed. No edge leads from a sound module to a failed one,
and a module that has failed at any time of the run has failed for such a reason. -/
theorem failed_iff_reaches {modules : List Module} (hblame : registry.BlamesNone)
    (hload : Graph.ofModules registry modules = .ok g)
    (hrun : runOn registry config executor g = (s, .ok report)) :
    (∀ id, (s.graph.errors id).length ≤ 1) ∧
    (∀ id, s.graph.isFailed id = true ↔
      ∃ b, s.graph.Reaches id b ∧ s.graph.FailedByItself b) ∧
    (∀ id name, .dependencyFailed name ∈ s.graph.errors id →
      ∃ dep, s.graph.dependsOn id dep = true ∧ s.graph.isFailed dep = true ∧
        (s.graph.module dep).name = name) ∧
    (∀ e ∈ s.graph.edges, s.graph.isFailed e.target = true → s.graph.isFailed e.source = true) ∧
    (∀ g' id, Phase.Passes registry config (phases executor) (RunState.ofGraph g) g' →
      g'.isFailed id = true → ∃ b, s.graph.Reaches id b ∧ s.graph.FailedByItself b) := by
  obtain ⟨hexplained, hclosed⟩ := explained_runOn hblame (fresh_ofModules hload) hrun
  refine ⟨hexplained.once, fun id => ⟨hexplained.rooted id, ?_⟩, hexplained.blamed, hclosed, ?_⟩
  · rintro ⟨b, hr, hb⟩
    exact hclosed.of_reaches hr hb.isFailed
  · intro g' id hpasses hf
    obtain ⟨summaries, hall⟩ := runOn_eq_ok hrun
    have hext := hpasses.extends (fun p hp s => (publishes_barrier hp config s).toExtends) hall
    exact hexplained.rooted id (hext.isFailed hf)

/-! A build in which failure spreads: `app` needs `base`, which needs a module
that is not there. -/

/-- One type of modules, whose conversion looks at the dependencies and yields nothing. -/
def lookingTypes : Registry :=
  Registry.empty.register "lib"
    ⟨.convertible
        ⟨fun m _ _ => .expandModules (m.list "deps") fun _ => .done (.ok []), fun _ => false⟩,
      DependencyProperty.standard⟩

def strandedModules : List Module :=
  [(Module.plain "app" "lib" "").withProp "deps" (.list ["base"]),
   (Module.plain "base" "lib" "").withProp "deps" (.list ["gone"])]

def strandedGraph : Graph := ((Graph.ofModules lookingTypes strandedModules).toOption).getD default

def strandedRun : RunState × Except Abort BuildReport :=
  runOn lookingTypes (Config.ofTree Listing.empty.sourceTree) Executor.none strandedGraph

theorem lookingTypes_blameNone : lookingTypes.BlamesNone where
  converter m c hc v r name h := by
    obtain rfl := Option.some.inj (Registry.converter?_register_empty hc)
    cases h
  builder m b hb := by
    cases Registry.builder?_register_empty hb

theorem stranded_failed_iff_reaches :
    strandedRun.1.graph.isFailed 0 = true ∧
      ∃ b, strandedRun.1.graph.Reaches 0 b ∧ strandedRun.1.graph.FailedByItself b := by
  have hload : Graph.ofModules lookingTypes strandedModules = .ok strandedGraph := rfl
  have hrun : strandedRun = (strandedRun.1, .ok (strandedRun.2.toOption.getD ⟨[], []⟩)) := by
    decide +kernel
  have hfailed : strandedRun.1.graph.isFailed 0 = true := by decide +kernel
  exact ⟨hfailed, ((failed_iff_reaches lookingTypes_blameNone hload hrun).2.1 0).mp hfailed⟩

end Build

end TargetGen
