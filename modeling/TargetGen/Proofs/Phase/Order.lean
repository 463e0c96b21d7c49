import TargetGen.Proofs.Phase.History
import TargetGen.SourceTree.Listing

/-!
# Order — who has been visited when a module's turn comes

Waves are laid out on the graph as a phase finds it, while edges and failures
are committed from wave to wave. Three things together give the order of visits:
what a module waits for stands in an earlier wave (`levelsOf_awaited`), modules
of earlier waves have had their outcome committed (`Phase.dealt_runWaves`), and
a step is run only where neither the module nor a direct dependency has failed
(`Phase.runsStep_iff`). So a dependency of a module whose step is run has been
visited and has no error, that is, its own step succeeded.
-/

namespace TargetGen

open TargetGen.Graph

variable {p : Phase} {registry : Registry} {config : Config} {g : Graph}
  {earlier later : List StartedWave} {w : StartedWave} {id : ModuleId}

/-- The step of a module is run: its outcome is what the step comes to. -/
def Phase.RunsStep (p : Phase) (v : Viewpoint) : Prop := p.outcome v = (p.step v).map .ran

/-- **Whose step is run**: that of a module that is sound, as are the modules on
which it directly depends. -/
theorem Phase.runsStep_iff {v : Viewpoint} :
    p.RunsStep v ↔ v.graph.isFailed v.id = false ∧
      ∀ dep, v.graph.dependsOn v.id dep = true → v.graph.isFailed dep = false := by
  constructor
  · intro h
    have hruns : v.graph.isFailed v.id = false ∧ v.graph.failedDependency v.id = none := by
      cases hstep : p.step v with
      | ok result =>
        have ho : p.outcome v = .ok (.ran result) := by rw [h, hstep]; rfl
        exact ⟨(outcome_eq_ran ho).1, (outcome_eq_ran ho).2.1⟩
      | error fault =>
        have ho : p.outcome v = .error fault := by rw [h, hstep]; rfl
        exact ⟨(outcome_eq_error ho).1, (outcome_eq_error ho).2.1⟩
    exact ⟨hruns.1, fun dep => failedDependency_eq_none hruns.2⟩
  · rintro ⟨hsound, hdependencies⟩
    have hnone : v.graph.failedDependency v.id = none := by
      cases hd : v.graph.failedDependency v.id with
      | none => rfl
      | some dep =>
        obtain ⟨-, hdep, hfailed⟩ := failedDependency_eq_some hd
        rw [hdependencies dep hdep] at hfailed
        cases hfailed
    rw [RunsStep, Phase.outcome, if_neg (by simp [hsound]), hnone]

/-! ## One wave of the history -/

theorem Phase.nodup_history (p : Phase) (registry : Registry) (config : Config) (g : Graph) :
    ((p.history registry config g).map StartedWave.modules).flatten.Nodup := by
  unfold Phase.history
  split
  next => simp
  next waves hw =>
    obtain ⟨rest, hrest⟩ := isPrefix_started p registry config g waves
    have hall := (waves_perm hw).symm.nodup g.nodup_ids
    rw [← hrest, List.flatten_append] at hall
    exact (List.nodup_append.mp hall).1

theorem Phase.wave_unique {w' : StartedWave} (hw : w ∈ p.history registry config g)
    (hw' : w' ∈ p.history registry config g) (hid : id ∈ w.modules) (hid' : id ∈ w'.modules) :
    w' = w := by
  have hnodup := nodup_history p registry config g
  obtain ⟨earlier, later, h⟩ := List.append_of_mem hw
  rw [h, List.map_append, List.map_cons, List.flatten_append, List.flatten_cons] at hnodup
  obtain ⟨-, hrest, hearlier⟩ := List.nodup_append.mp hnodup
  obtain ⟨-, -, hlater⟩ := List.nodup_append.mp hrest
  have hin : ∀ {ws : List StartedWave}, w' ∈ ws → id ∈ (ws.map StartedWave.modules).flatten :=
    fun hmem => List.mem_flatten.mpr ⟨_, List.mem_map_of_mem hmem, hid'⟩
  rw [h, List.mem_append, List.mem_cons] at hw'
  rcases hw' with hmem | heq | hmem
  · exact absurd rfl (hearlier id (hin hmem) id (List.mem_append_left _ hid))
  · exact heq
  · exact absurd rfl (hlater id hid id (hin hmem))

theorem Phase.waves_of_history
    (h : p.history registry config g = earlier ++ w :: later) :
    ∃ waves rest, g.waves p.order = some waves ∧
      waves = earlier.map StartedWave.modules ++ w.modules :: rest := by
  unfold Phase.history at h
  split at h
  next => simp at h
  next waves hw =>
    obtain ⟨rest, hrest⟩ := h ▸ isPrefix_started p registry config g waves
    exact ⟨waves, later.map StartedWave.modules ++ rest, hw, by simp [← hrest]⟩

theorem Phase.lt_size_of_history (hw : w ∈ p.history registry config g) (hid : id ∈ w.modules) :
    id < g.size := by
  obtain ⟨earlier, later, h⟩ := List.append_of_mem hw
  obtain ⟨waves, rest, hwaves, rfl⟩ := waves_of_history h
  exact lt_size_of_waves hwaves w.modules (List.mem_append_right _ List.mem_cons_self) id hid

theorem Phase.runWaves_of_history (h : p.history registry config g = earlier ++ w :: later)
    (summary : PhaseSummary) :
    ∃ counted, p.runWaves registry config g summary (earlier.map StartedWave.modules) =
      (w.before, .ok counted) := by
  obtain ⟨waves, rest, hw, -⟩ := waves_of_history h
  rw [history_eq hw] at h
  exact (runWaves_of_started h summary).1

theorem Phase.dealt_of_history (h : p.history registry config g = earlier ++ w :: later) :
    Visited g (earlier.map StartedWave.modules).flatten w.before ∧
      ∀ w' ∈ earlier, ∀ id ∈ w'.modules,
        ∃ o, p.Dealt registry config g w' id o w.before := by
  obtain ⟨waves, rest, hw, hsplit⟩ := waves_of_history h
  rw [history_eq hw] at h
  obtain ⟨⟨counted, hrun⟩, hstarted⟩ := runWaves_of_started h ⟨p.name, 0, 0, 0, 0, 0⟩
  have hperm := waves_perm hw
  have hnodup : (earlier.map StartedWave.modules).flatten.Nodup := by
    have hall := hperm.symm.nodup g.nodup_ids
    rw [hsplit, List.flatten_append] at hall
    exact (List.nodup_append.mp hall).1
  have hinside : ∀ id ∈ (earlier.map StartedWave.modules).flatten, id < g.size := by
    intro id hid
    apply mem_ids.mp (hperm.subset _)
    rw [hsplit, List.flatten_append]
    exact List.mem_append_left _ hid
  obtain ⟨hvisited, hdealt⟩ := dealt_runWaves hnodup hinside hrun
  rw [hstarted] at hdealt
  exact ⟨hvisited, hdealt⟩

theorem Phase.extends_of_history (hw : w ∈ p.history registry config g) : Extends g w.before := by
  obtain ⟨earlier, later, h⟩ := List.append_of_mem hw
  exact (dealt_of_history h).1.extends_start

/-- **At its visit a module is what it was as the phase began.** -/
theorem Phase.node_of_history (h : p.history registry config g = earlier ++ w :: later)
    (hid : id ∈ w.modules) : w.before.node id = g.node id := by
  obtain ⟨hvisited, -⟩ := dealt_of_history h
  have hall := nodup_history p registry config g
  rw [h, List.map_append, List.map_cons, List.flatten_append, List.flatten_cons] at hall
  apply hvisited.node id
  intro hmem
  exact (List.nodup_append.mp hall).2.2 id hmem id (List.mem_append_left _ hid) rfl

theorem Phase.awaited_of_history {d : Direction} {e : Edge}
    (hlevels : g.waves p.order = g.levels d)
    (h : p.history registry config g = earlier ++ w :: later) (he : e ∈ g.edges)
    (horders : e.tag.orders = true) (hwaiting : e.waiting d ∈ w.modules)
    (hawaited : e.awaited d < g.size) : ∃ w' ∈ earlier, e.awaited d ∈ w'.modules := by
  obtain ⟨waves, rest, hw, hsplit⟩ := waves_of_history h
  have hmem := levelsOf_awaited (hlevels.symm.trans hw) hsplit he horders hwaiting
    (mem_ids.mpr hawaited)
  obtain ⟨modules, hmodules, hmem⟩ := List.mem_flatten.mp hmem
  obtain ⟨w', hw', rfl⟩ := List.mem_map.mp hmodules
  exact ⟨w', hw', hmem⟩

/-- **Dependencies succeed first.** Where a phase runs bottom-up, a dependency of a
module whose step is run has run its own in an earlier wave, with success, and
what it published and added is in the graph that the step sees. -/
theorem Phase.dependency_succeeded {dep : ModuleId} {tag : DepTag} (hp : p.order = .bottomUp)
    (h : p.history registry config g = earlier ++ w :: later) (hid : id ∈ w.modules)
    (hruns : p.RunsStep ⟨w.before, registry, config, id⟩) (he : ⟨id, dep, tag⟩ ∈ g.edges)
    (horders : tag.orders = true) (hdep : dep < g.size) :
    ∃ w' ∈ earlier, dep ∈ w'.modules ∧ ∃ output,
      p.Dealt registry config g w' dep (.ran (.ok output)) w.before := by
  have hlevels : g.waves p.order = g.levels .dependencies := by rw [hp]; rfl
  obtain ⟨w', hw', hmem⟩ := awaited_of_history (e := ⟨id, dep, tag⟩) hlevels h he horders hid hdep
  obtain ⟨hvisited, hall⟩ := dealt_of_history h
  obtain ⟨o, hdealt⟩ := hall w' hw' dep hmem
  have hdirect : w.before.dependsOn id dep = true :=
    hvisited.extends_start.dependsOn (dependsOn_of_mem he)
  obtain ⟨output, rfl⟩ := hdealt.ran_of_sound ((runsStep_iff.mp hruns).2 dep hdirect)
  exact ⟨w', hw', hmem, output, hdealt⟩

/-! ## Whole phases -/

theorem Phase.perm_history {s : RunState} (hw : s.graph.waves p.order ≠ none)
    (hfault : ∀ fault, (p.run registry config s).2 ≠ .error (.fault fault)) :
    ((p.history registry config s.graph).map StartedWave.modules).flatten.Perm s.graph.ids := by
  obtain ⟨g, counted, hdone, -⟩ := run_eq_finish hw hfault
  exact hdone.perm

/-- **The order of visits.** A phase on a graph whose ordering edges make no cycle
visits each module once: no one twice, and, unless it ends in a fault, everyone.
For a module of a wave, and the graph `w.before` that the wave sees and to which
the waves before it have led:

* its step is run only if it is sound there, and all its direct dependencies are;
* bottom-up, when its step is run, every module to which it had an ordering edge
  as the phase began has run its own step in an earlier wave, with success, and
  all that this added is there;
* top-down, every module that had an ordering edge to it as the phase began has
  been visited in an earlier wave. -/
theorem Phase.visits_in_order (p : Phase) (registry : Registry) (config : Config)
    (s : RunState) :
    ((p.history registry config s.graph).map StartedWave.modules).flatten.Nodup ∧
    (s.graph.waves p.order ≠ none →
      (∀ fault, (p.run registry config s).2 ≠ .error (.fault fault)) →
      ((p.history registry config s.graph).map StartedWave.modules).flatten.Perm s.graph.ids) ∧
    ∀ earlier w later, p.history registry config s.graph = earlier ++ w :: later →
      (∀ summary, ∃ counted, p.runWaves registry config s.graph summary
        (earlier.map StartedWave.modules) = (w.before, .ok counted)) ∧
      ∀ id ∈ w.modules,
        (p.RunsStep ⟨w.before, registry, config, id⟩ → w.before.isFailed id = false ∧
          ∀ dep, w.before.dependsOn id dep = true → w.before.isFailed dep = false) ∧
        (p.order = .bottomUp → p.RunsStep ⟨w.before, registry, config, id⟩ →
          ∀ dep tag, ⟨id, dep, tag⟩ ∈ s.graph.edges → tag.orders = true → dep < s.graph.size →
            ∃ w' ∈ earlier, dep ∈ w'.modules ∧ ∃ output,
              p.Dealt registry config s.graph w' dep (.ran (.ok output)) w.before) ∧
        (p.order = .topDown →
          ∀ dependent tag, ⟨dependent, id, tag⟩ ∈ s.graph.edges → tag.orders = true →
            dependent < s.graph.size → ∃ w' ∈ earlier, dependent ∈ w'.modules) := by
  refine ⟨nodup_history p registry config s.graph, perm_history, ?_⟩
  intro earlier w later h
  refine ⟨runWaves_of_history h, fun id hid => ⟨runsStep_iff.mp, ?_, ?_⟩⟩
  · intro hp hruns dep tag he horders hdep
    exact dependency_succeeded hp h hid hruns he horders hdep
  · intro hp dependent tag he horders hdependent
    have hlevels : s.graph.waves p.order = s.graph.levels .dependents := by rw [hp]; rfl
    exact awaited_of_history (e := ⟨dependent, id, tag⟩) hlevels h he horders hid hdependent

/-! A phase that runs bottom-up over `app`, which needs `base`. -/

/-- Every module publishes its name. -/
def relay : Phase where
  name := "relay"
  order := .bottomUp
  step v := .ok (.ok ⟨[.custom "seen" v.module.name], []⟩)
  barrier := Phase.noBarrier

def relayGraph : Graph :=
  ⟨[⟨Module.plain "app" "lib" "", ProviderStore.empty, []⟩,
    ⟨Module.plain "base" "lib" "", ProviderStore.empty, []⟩], [⟨0, 1, .ordinary⟩]⟩

/-- The graph when `base` has had its turn. -/
def relayedGraph : Graph :=
  ⟨[⟨Module.plain "app" "lib" "", ProviderStore.empty, []⟩,
    ⟨Module.plain "base" "lib" "", ⟨[⟨"relay", .custom "seen" "base"⟩]⟩, []⟩],
    [⟨0, 1, .ordinary⟩]⟩

theorem relay_visits_base_first :
    ∃ output, relay.Dealt Registry.empty (Config.ofTree Listing.empty.sourceTree) relayGraph
      ⟨relayGraph, [1]⟩ 1 (.ran (.ok output)) relayedGraph := by
  have hhistory : relay.history Registry.empty (Config.ofTree Listing.empty.sourceTree)
      (RunState.ofGraph relayGraph).graph = [⟨relayGraph, [1]⟩] ++ ⟨relayedGraph, [0]⟩ :: [] := by
    decide +kernel
  have hruns : relay.RunsStep
      ⟨relayedGraph, Registry.empty, Config.ofTree Listing.empty.sourceTree, 0⟩ :=
    Phase.runsStep_iff.mpr ⟨by decide +kernel, fun dep hdep => by
      obtain ⟨tag, he⟩ := dependsOn_iff.mp hdep
      obtain ⟨-, rfl, -⟩ := Edge.mk.inj (List.mem_singleton.mp he)
      decide +kernel⟩
  have hvisits := (Phase.visits_in_order relay Registry.empty
    (Config.ofTree Listing.empty.sourceTree) (RunState.ofGraph relayGraph)).2.2 _ _ _ hhistory
  obtain ⟨w', hw', -, output, hdealt⟩ := (hvisits.2 0 (by simp)).2.1 rfl hruns 1 .ordinary
    (by decide +kernel) rfl (by decide +kernel)
  obtain rfl := List.mem_singleton.mp hw'
  exact ⟨output, hdealt⟩

end TargetGen
