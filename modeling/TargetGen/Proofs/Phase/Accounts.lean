import TargetGen.Proofs.Phase.Order

/-!
# Accounts — what the summary of a phase counts

Waves are the modules in another order, and every outcome is of one of three
sorts, so a summary counts each module once (`Phase.visited_runWaves`). A module
has no error when the waves are done just where its step succeeded: it was sound
at its visit, and no other commit touches its errors. So the modules that are sound
then are those counted as successes (`Phase.succeeded_runWaves`), and the spread of
failures takes away as many of them as it reports (`Graph.soundCount_propagateFailures`).

When a phase is completed, no sound module depends on a failed one. In the phase
that follows, who is blocked is so by a dependency that fails in that very phase
(`Phase.failed_during`): edges that are committed meanwhile leave modules that have
been visited, and not the module that is blocked.
-/

namespace TargetGen

open TargetGen.Graph

variable {p : Phase} {registry : Registry} {config : Config} {g g' : Graph} {s s' : RunState}
  {id dep : ModuleId} {o : Outcome} {phase : String} {waves : List (List ModuleId)}
  {summary counted : PhaseSummary}

/-! ## Counting outcomes -/

/-- The modules that a summary counts, whatever became of them. -/
def PhaseSummary.visited (summary : PhaseSummary) : Nat :=
  summary.succeeded + summary.failed + summary.skipped

@[simp] theorem PhaseSummary.visited_count (summary : PhaseSummary)
    (outcomes : List (ModuleId × Outcome)) :
    (summary.count outcomes).visited = summary.visited + outcomes.length := by
  have hsorts : outcomes.countP (·.2.isSuccess) + outcomes.countP (·.2.isFailure)
      + outcomes.countP (·.2.isSkip) = outcomes.length := by
    induction outcomes with
    | nil => rfl
    | cons x rest ih =>
      have hone : (if x.2.isSuccess then 1 else 0) + (if x.2.isFailure then 1 else 0)
          + (if x.2.isSkip then 1 else 0) = 1 := by
        match x.2 with
        | .ran (.ok _) => rfl
        | .ran (.error _) => rfl
        | .blocked _ => rfl
        | .alreadyFailed => rfl
      simp only [List.countP_cons, List.length_cons]
      omega
  simp only [visited, count]
  omega

/-- **Each module of the waves is counted once.** -/
theorem Phase.visited_runWaves
    (h : p.runWaves registry config g summary waves = (g', .ok counted)) :
    counted.visited = summary.visited + waves.flatten.length := by
  induction waves generalizing g summary with
  | nil =>
    obtain rfl := Except.ok.inj (Prod.mk.inj h).2
    simp
  | cons wave rest ih =>
    obtain ⟨g₁, outcomes, hr, hrun⟩ := runWaves_cons_eq_ok h
    obtain ⟨hfst, -⟩ := outcomes_eq_ok (runWave_eq_ok hr).1
    have hlength : outcomes.length = wave.length := by
      rw [← hfst, List.length_map]
    rw [ih hrun, PhaseSummary.visited_count, List.flatten_cons, List.length_append]
    omega

/-! ## Sound modules -/

/-- How many of some modules have no error. -/
def Graph.soundAmong (g : Graph) (ids : List ModuleId) : Nat := ids.countP fun id => !g.isFailed id

/-- How many modules have no error. -/
def Graph.soundCount (g : Graph) : Nat := g.soundAmong g.ids

theorem Graph.soundAmong_congr {ids : List ModuleId}
    (h : ∀ id ∈ ids, g'.isFailed id = g.isFailed id) : g'.soundAmong ids = g.soundAmong ids := by
  apply List.countP_congr
  intro id hid
  rw [h id hid]

theorem Graph.Gained.isFailed (ho : p.outcome ⟨g, registry, config, id⟩ = .ok o)
    (h : Gained g p.name id o g') : g'.isFailed id = !o.isSuccess := by
  have herrors := h.errors
  rcases Phase.outcome_eq_ok ho with ⟨rfl, hfailed⟩ | ⟨dep, rfl, -⟩ | ⟨result, rfl, hsound, -⟩
  · have hne : g.errors id ≠ [] := isFailed_iff.mp hfailed
    simp [Graph.isFailed, herrors, Outcome.errors, Outcome.isSuccess, hne]
  · simp [Graph.isFailed, herrors, Outcome.errors, Outcome.isSuccess]
  · have hnil : g.errors id = [] := by simpa [Graph.isFailed] using hsound
    cases result with
    | ok output => simp [Graph.isFailed, herrors, hnil, Outcome.errors, Outcome.isSuccess]
    | error e => simp [Graph.isFailed, herrors, Outcome.errors, Outcome.isSuccess]

/-- **Successes are the modules that are sound** when the waves are done. -/
theorem Phase.succeeded_runWaves (hnodup : waves.flatten.Nodup)
    (hinside : ∀ id ∈ waves.flatten, id < g.size)
    (h : p.runWaves registry config g summary waves = (g', .ok counted)) :
    counted.succeeded = summary.succeeded + g'.soundAmong waves.flatten := by
  induction waves generalizing g summary with
  | nil =>
    obtain rfl := Except.ok.inj (Prod.mk.inj h).2
    simp [soundAmong]
  | cons wave rest ih =>
    rw [List.flatten_cons] at hnodup hinside
    obtain ⟨hwave, hrest, hdisjoint⟩ := List.nodup_append.mp hnodup
    obtain ⟨g₁, outcomes, hr, hrun⟩ := runWaves_cons_eq_ok h
    obtain ⟨ho, hc⟩ := runWave_eq_ok hr
    obtain ⟨hfst, hall⟩ := outcomes_eq_ok ho
    subst hfst
    obtain ⟨hvisited, hgained⟩ := gained_commitAll hwave
      (fun x hx => hinside x.1 (List.mem_append_left _ (List.mem_map_of_mem hx))) hc
    have hin : ∀ id ∈ rest.flatten, id < g₁.size := by
      intro id hid
      rw [hvisited.extends_start.size]
      exact hinside id (List.mem_append_right _ hid)
    -- the waves that follow leave the modules of this one alone
    have hlater : g'.soundAmong (outcomes.map Prod.fst) =
        g₁.soundAmong (outcomes.map Prod.fst) := by
      apply soundAmong_congr
      intro id hid
      exact (dealt_runWaves hrest hin hrun).1.isFailed fun hmem => hdisjoint id hid id hmem rfl
    have hnow : g₁.soundAmong (outcomes.map Prod.fst) = outcomes.countP (·.2.isSuccess) := by
      rw [soundAmong, List.countP_map]
      apply List.countP_congr
      intro x hx
      simp [(hgained x hx).isFailed (hall x hx)]
    rw [ih hrest hin hrun, List.flatten_cons, soundAmong, soundAmong, List.countP_append]
    show summary.succeeded + outcomes.countP (·.2.isSuccess) + g'.soundAmong rest.flatten =
      summary.succeeded + (g'.soundAmong (outcomes.map Prod.fst) + g'.soundAmong rest.flatten)
    rw [hlater, hnow]
    omega

/-- **The spread of failures** takes as many sound modules as it reports. -/
theorem Graph.soundCount_propagateFailures (g : Graph) :
    g.propagateFailures.1.soundCount + g.propagateFailures.2 = g.soundCount := by
  have hids : g.propagateFailures.1.ids = g.ids := (extends_propagateFailures g).ids
  have hkept : ∀ id, g.isFailed id = true → g.propagateFailures.1.isFailed id = true := by
    intro id hfailed
    exact (extends_propagateFailures g).isFailed hfailed
  -- who was sound is sound still, or has failed since
  have hsplit := List.countP_eq_countP_filter_add g.ids (fun id => !g.isFailed id)
    (g.propagateFailures.1.isFailed ·)
  rw [soundCount, soundCount, hids, soundAmong, soundAmong, hsplit, Nat.add_comm,
    List.countP_filter, List.countP_filter]
  congr 1
  · rw [show g.propagateFailures.2 = g.newlyFailed.length from rfl, ← countP_failed_since]
    simp only [Bool.and_comm]
  · apply List.countP_congr
    intro id _
    cases hfailed : g.isFailed id with
    | true => simp [hkept id hfailed]
    | false => simp

/-! ## Barriers -/

/-- A barrier that records no error: the modules and their errors are as it found them. -/
structure Phase.QuietBarrier (p : Phase) (config : Config) : Prop where
  size : ∀ s, (p.barrier config s).1.graph.size = s.graph.size
  errors : ∀ s id, (p.barrier config s).1.graph.errors id = s.graph.errors id

theorem Phase.QuietBarrier.soundCount (h : p.QuietBarrier config) (s : RunState) :
    (p.barrier config s).1.graph.soundCount = s.graph.soundCount := by
  rw [Graph.soundCount, Graph.soundCount, Graph.ids, h.size]
  apply soundAmong_congr
  intro id _
  rw [Graph.isFailed, h.errors, Graph.isFailed]

/-! ## Who is blocked -/

/-- Failures have been spread: no sound module depends on a failed one. -/
def Graph.FailuresSpread (g : Graph) : Prop :=
  ∀ id dep, id < g.size → g.dependsOn id dep = true → g.isFailed dep = true → g.isFailed id = true

theorem Graph.failuresSpread_propagateFailures (g : Graph) :
    g.propagateFailures.1.FailuresSpread := by
  intro id dep hid hdep hfailed
  simp only [size_propagateFailures, dependsOn_propagateFailures] at hid hdep
  exact isFailed_of_dependsOn hid hdep hfailed

theorem Phase.failuresSpread_run (h : p.run registry config s = (s', .ok summary)) :
    s'.graph.FailuresSpread := by
  obtain ⟨_, sb, -, -, rfl⟩ := historyDone_of_run h
  exact failuresSpread_propagateFailures sb.graph

theorem Phase.failuresSpread_runAll {phases : List Phase} {summaries : List PhaseSummary}
    (hne : phases ≠ []) (h : Phase.runAll registry config phases s = (s', .ok summaries)) :
    s'.graph.FailuresSpread := by
  cases phases with
  | nil => exact absurd rfl hne
  | cons p rest =>
    obtain ⟨s₁, summary, later, hp, hrest⟩ := runAll_cons_eq_ok h
    exact runAll_induct (J := fun s => s.graph.FailuresSpread)
      (fun _ _ _ _ _ _ hrun => failuresSpread_run hrun) (failuresSpread_run hp) hrest

/-- **Who is blocked** where failures had been spread as the phase began: a module
that already had the dependency by which it is blocked, and this one has failed since. -/
theorem Phase.failed_during {w : StartedWave} (hspread : g.FailuresSpread)
    (hw : w ∈ p.history registry config g) (hid : id ∈ w.modules)
    (ho : p.outcome ⟨w.before, registry, config, id⟩ = .ok o) (hskip : o.isSkip = true)
    (hsound : g.isFailed id = false) :
    ∃ dep, o = .blocked dep ∧ g.dependsOn id dep = true ∧ g.isFailed dep = false ∧
      w.before.isFailed dep = true := by
  obtain ⟨earlier, later, hsplit⟩ := List.append_of_mem hw
  have hnode := node_of_history hsplit hid
  have hinside := lt_size_of_history hw hid
  rcases outcome_eq_ok ho with ⟨rfl, hfailed⟩ | ⟨dep, rfl, -, hdep⟩ | ⟨result, rfl, -⟩
  · -- at its visit a module is what it was as the phase began
    rw [Graph.isFailed, Graph.errors, hnode] at hfailed
    rw [Graph.isFailed, Graph.errors, hfailed] at hsound
    cases hsound
  · obtain ⟨-, hdepends, hfailed⟩ := failedDependency_eq_some hdep
    obtain ⟨tag, he⟩ := dependsOn_iff.mp hdepends
    have hedge : ⟨id, dep, tag⟩ ∈ g.edges := by
      have hall := nodup_history p registry config g
      rw [hsplit, List.map_append, List.map_cons, List.flatten_append, List.flatten_cons] at hall
      apply ((dealt_of_history hsplit).1.mem_edges _).mp he
      intro hmem
      exact (List.nodup_append.mp hall).2.2 id hmem id (List.mem_append_left _ hid) rfl
    have hstart : g.dependsOn id dep = true := dependsOn_of_mem hedge
    refine ⟨dep, rfl, hstart, ?_, hfailed⟩
    cases hdepfailed : g.isFailed dep with
    | false => rfl
    | true =>
      rw [hspread id dep hinside hstart hdepfailed] at hsound
      cases hsound
  · cases hskip

/-! ## Whole phases -/

theorem Phase.accounts_run (hquiet : p.QuietBarrier config)
    (h : p.run registry config s = (s', .ok summary)) :
    s'.graph.size = s.graph.size ∧ summary.visited = s.graph.size ∧
      s'.graph.soundCount + summary.propagated = summary.succeeded := by
  obtain ⟨waves, g, counted, sb, hw, hrun, hb, rfl, rfl⟩ := completed_of_run h
  have hperm := waves_perm hw
  have hnodup : waves.flatten.Nodup := hperm.symm.nodup s.graph.nodup_ids
  have hinside : ∀ id ∈ waves.flatten, id < s.graph.size := fun id hid =>
    mem_ids.mp (hperm.subset hid)
  have hext : Extends s.graph g := (dealt_runWaves hnodup hinside hrun).1.extends_start
  have hsize : sb.graph.size = s.graph.size := by
    have hsame := hquiet.size { s with graph := g }
    rw [hb] at hsame
    exact hsame.trans hext.size
  have hbarrier : sb.graph.soundCount = g.soundCount := by
    have hsame := hquiet.soundCount { s with graph := g }
    rwa [hb] at hsame
  refine ⟨(size_propagateFailures sb.graph).trans hsize, ?_, ?_⟩
  · show counted.visited = s.graph.size
    rw [visited_runWaves hrun, hperm.length_eq, Graph.ids, List.length_range]
    exact Nat.zero_add _
  · show sb.graph.propagateFailures.1.soundCount + sb.graph.propagateFailures.2 =
      counted.succeeded
    rw [soundCount_propagateFailures, hbarrier, succeeded_runWaves hnodup hinside hrun,
      soundCount, hext.ids, soundAmong, soundAmong, hperm.countP_eq]
    exact (Nat.zero_add _).symm

theorem Phase.size_runAll {phases : List Phase} {summaries : List PhaseSummary}
    (hquiet : ∀ p ∈ phases, p.QuietBarrier config)
    (h : Phase.runAll registry config phases s = (s', .ok summaries)) :
    s'.graph.size = s.graph.size :=
  runAll_induct (J := fun s₁ => s₁.graph.size = s.graph.size)
    (fun p hp _ _ _ hsize hrun => (accounts_run (hquiet p hp) hrun).1.trans hsize) rfl h

/-- **Phase accounting.** Take phases whose barriers record no error, and one of them
that is completed, with the state `s` that the phases before it left.

* It counts every module once: as a success, as a failure or as skipped.
* When it is over, as many modules are sound as have succeeded, less those that
  failed by their dependencies at its end.
* Unless it is the first phase: a module that is skipped, and was sound as the phase
  began, is blocked by a module on which it directly depended then, and which has
  failed since. So an edge that is committed during the phase blocks nobody. -/
theorem Phase.summary_accounts (registry : Registry) (config : Config) (phases : List Phase)
    (hquiet : ∀ p ∈ phases, p.QuietBarrier config) (s₀ : RunState) :
    ∀ earlier p later, phases = earlier ++ p :: later →
      ∀ s summaries, Phase.runAll registry config earlier s₀ = (s, .ok summaries) →
      ∀ s' summary, p.run registry config s = (s', .ok summary) →
        summary.succeeded + summary.failed + summary.skipped = s₀.graph.size ∧
        summary.propagated ≤ summary.succeeded ∧
        s'.graph.size = s₀.graph.size ∧
        s'.graph.soundCount = summary.succeeded - summary.propagated ∧
        (earlier ≠ [] → ∀ w ∈ p.history registry config s.graph, ∀ id ∈ w.modules, ∀ o,
          p.outcome ⟨w.before, registry, config, id⟩ = .ok o → o.isSkip = true →
            s.graph.isFailed id = false →
              ∃ dep, o = .blocked dep ∧ s.graph.dependsOn id dep = true ∧
                s.graph.isFailed dep = false ∧ w.before.isFailed dep = true) := by
  rintro earlier p later rfl s summaries hearlier s' summary hrun
  have hsize : s.graph.size = s₀.graph.size :=
    size_runAll (fun q hq => hquiet q (List.mem_append_left _ hq)) hearlier
  obtain ⟨hsize', hvisited, hsound⟩ :=
    accounts_run (hquiet p (List.mem_append_right _ List.mem_cons_self)) hrun
  refine ⟨hvisited.trans hsize, by omega, hsize'.trans hsize, by omega, ?_⟩
  intro hne w hw id hid o ho hskip hstart
  exact failed_during (failuresSpread_runAll hne hearlier) hw hid ho hskip hstart

/-! A second phase over `app` and `base`, in which `base` fails. -/

/-- The module `base` fails, the others do nothing. -/
def baseFails : Phase where
  name := "base fails"
  order := .bottomUp
  step v := .ok (if v.module.name = "base" then .error (.conversion "no") else .ok .empty)
  barrier := Phase.noBarrier

/-- The graph when both modules have had their turn in the first phase. -/
def relayedTwice : Graph :=
  ⟨[⟨Module.plain "app" "lib" "", ⟨[⟨"relay", .custom "seen" "app"⟩]⟩, []⟩,
    ⟨Module.plain "base" "lib" "", ⟨[⟨"relay", .custom "seen" "base"⟩]⟩, []⟩],
    [⟨0, 1, .ordinary⟩]⟩

/-- The graph when `base` has failed in the second one. -/
def baseFailed : Graph := relayedTwice.recordError 1 (.conversion "no")

theorem app_is_blocked_by_base :
    (∃ s', baseFails.run Registry.empty (Config.ofTree Listing.empty.sourceTree)
      (RunState.ofGraph relayedTwice) = (s', .ok ⟨baseFails.name, 2, 0, 1, 1, 0⟩) ∧
      0 + 1 + 1 = relayGraph.size ∧ s'.graph.soundCount = 0 - 0) ∧
    ∃ dep, relayedTwice.dependsOn 0 dep = true ∧ relayedTwice.isFailed dep = false ∧
      baseFailed.isFailed dep = true := by
  have hquiet : ∀ p ∈ [relay, baseFails],
      p.QuietBarrier (Config.ofTree Listing.empty.sourceTree) := by
    intro p hp
    simp only [List.mem_cons, List.not_mem_nil, or_false] at hp
    rcases hp with rfl | rfl
    · exact ⟨fun _ => rfl, fun _ _ => rfl⟩
    · exact ⟨fun _ => rfl, fun _ _ => rfl⟩
  have hfirst : Phase.runAll Registry.empty (Config.ofTree Listing.empty.sourceTree) [relay]
      (RunState.ofGraph relayGraph) =
        (RunState.ofGraph relayedTwice, .ok [⟨relay.name, 2, 2, 0, 0, 0⟩]) := by
    decide +kernel
  have hsecond : baseFails.run Registry.empty (Config.ofTree Listing.empty.sourceTree)
      (RunState.ofGraph relayedTwice) =
        (RunState.ofGraph (baseFailed.recordError 0 (.dependencyFailed "base")),
          .ok ⟨baseFails.name, 2, 0, 1, 1, 0⟩) := by
    decide +kernel
  have hhistory : baseFails.history Registry.empty (Config.ofTree Listing.empty.sourceTree)
      relayedTwice = [⟨relayedTwice, [1]⟩, ⟨baseFailed, [0]⟩] := by
    decide +kernel
  obtain ⟨hcount, -, -, hsound, hblocked⟩ := Phase.summary_accounts Registry.empty
    (Config.ofTree Listing.empty.sourceTree) [relay, baseFails] hquiet (RunState.ofGraph relayGraph)
    [relay] baseFails [] rfl _ _ hfirst _ _ hsecond
  refine ⟨⟨_, hsecond, hcount, hsound⟩, ?_⟩
  obtain ⟨dep, -, hdep⟩ := hblocked (by simp) ⟨baseFailed, [0]⟩ (hhistory ▸ by simp) 0 (by simp)
    (.blocked 1) rfl rfl rfl
  exact ⟨dep, hdep⟩

end TargetGen
