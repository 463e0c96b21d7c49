import TargetGen.Proofs.Phase.Run

/-!
# History — the waves of a phase, and what each module gained

A run of a phase tells how it ended, not how it came there. `Phase.history`
lists the waves that were started, each with the graph that its steps saw; it
takes the same steps as the run, so every graph in it is one the run passed
(`runWaves_of_started`).

A module is visited once and a commit keeps to its module. So what a module has
when the waves are done is what it had when the phase began, and behind that
exactly what its one outcome added: `Graph.Gained`. The relation composes with
`Graph.Visited` on both sides, which carries it from the commit of the module
to the end of the waves and back to their beginning. `Phase.Dealt` says so of a
module of a wave, together with the graph on which its outcome was found.
-/

namespace TargetGen

open TargetGen.Graph

variable {p : Phase} {registry : Registry} {config : Config} {g g' : Graph}
  {waves : List (List ModuleId)} {id : ModuleId} {o : Outcome} {phase : String}

/-! ## The waves that were started -/

/-- A wave that was started, and the graph that its steps see. -/
structure StartedWave where
  before : Graph
  modules : List ModuleId
  deriving DecidableEq

/-- The waves that are started one after the other, up to the first fault. -/
def Phase.started (p : Phase) (registry : Registry) (config : Config) (g : Graph) :
    List (List ModuleId) → List StartedWave
  | [] => []
  | wave :: rest =>
    ⟨g, wave⟩ ::
      match p.runWave registry config g wave with
      | (_, .error _) => []
      | (g, .ok _) => p.started registry config g rest

/-- The waves that a phase starts on a graph; none if ordering edges make a cycle. -/
def Phase.history (p : Phase) (registry : Registry) (config : Config) (g : Graph) :
    List StartedWave :=
  match g.waves p.order with
  | none => []
  | some waves => p.started registry config g waves

theorem Phase.history_eq (hw : g.waves p.order = some waves) :
    p.history registry config g = p.started registry config g waves := by
  rw [Phase.history, hw]

theorem Phase.started_cons_of_ok {wave : List ModuleId} {rest : List (List ModuleId)}
    {outcomes : List (ModuleId × Outcome)}
    (h : p.runWave registry config g wave = (g', .ok outcomes)) :
    p.started registry config g (wave :: rest) =
      ⟨g, wave⟩ :: p.started registry config g' rest := by
  rw [Phase.started, h]

theorem Phase.runWaves_cons_of_ok {wave : List ModuleId} {rest : List (List ModuleId)}
    {outcomes : List (ModuleId × Outcome)} (summary : PhaseSummary)
    (h : p.runWave registry config g wave = (g', .ok outcomes)) :
    p.runWaves registry config g summary (wave :: rest) =
      p.runWaves registry config g' (summary.count outcomes) rest := by
  rw [Phase.runWaves, h]

theorem Phase.runWaves_cons_eq_ok {wave : List ModuleId} {rest : List (List ModuleId)}
    {summary counted : PhaseSummary}
    (h : p.runWaves registry config g summary (wave :: rest) = (g', .ok counted)) :
    ∃ g₁ outcomes, p.runWave registry config g wave = (g₁, .ok outcomes) ∧
      p.runWaves registry config g₁ (summary.count outcomes) rest = (g', .ok counted) := by
  unfold Phase.runWaves at h
  split at h
  next => cases h
  next g₁ outcomes hr => exact ⟨g₁, outcomes, hr, h⟩

theorem Phase.isPrefix_started (p : Phase) (registry : Registry) (config : Config) (g : Graph)
    (waves : List (List ModuleId)) :
    (p.started registry config g waves).map StartedWave.modules <+: waves := by
  induction waves generalizing g with
  | nil => exact List.prefix_rfl
  | cons wave rest ih =>
    unfold Phase.started
    split
    next => simp
    next g' _ _ => simpa using ih g'

theorem Phase.before_of_one_wave {w : StartedWave} (hwaves : g.waves p.order = some waves)
    (hone : waves.length ≤ 1) (hw : w ∈ p.history registry config g) : w.before = g := by
  rw [history_eq hwaves] at hw
  match waves, hone, hw with
  | [], _, hw => cases hw
  | [wave], _, hw =>
    unfold Phase.started at hw
    rcases List.mem_cons.mp hw with rfl | hw
    · rfl
    · split at hw <;> cases hw

/-- **The history is that of the run.** Before a wave that was started, the waves
before it were run without fault, and left the graph that its steps see. -/
theorem Phase.runWaves_of_started {earlier later : List StartedWave} {w : StartedWave}
    (h : p.started registry config g waves = earlier ++ w :: later) (summary : PhaseSummary) :
    (∃ counted, p.runWaves registry config g summary (earlier.map StartedWave.modules) =
        (w.before, .ok counted)) ∧
      p.started registry config g (earlier.map StartedWave.modules) = earlier := by
  induction earlier generalizing g waves summary with
  | nil =>
    cases waves with
    | nil => simp [Phase.started] at h
    | cons wave rest =>
      unfold Phase.started at h
      obtain ⟨rfl, -⟩ := List.cons.inj h
      exact ⟨⟨summary, rfl⟩, rfl⟩
  | cons first earlier ih =>
    cases waves with
    | nil => simp [Phase.started] at h
    | cons wave rest =>
      unfold Phase.started at h
      obtain ⟨rfl, htail⟩ := List.cons.inj h
      cases hr : p.runWave registry config g wave with
      | mk g' result =>
        rw [hr] at htail
        cases result with
        | error fault => simp at htail
        | ok outcomes =>
          obtain ⟨hrun, hstarted⟩ := ih htail (summary.count outcomes)
          rw [List.map_cons, runWaves_cons_of_ok summary hr, started_cons_of_ok hr, hstarted]
          exact ⟨hrun, rfl⟩

theorem Phase.modules_started {summary counted : PhaseSummary}
    (h : p.runWaves registry config g summary waves = (g', .ok counted)) :
    (p.started registry config g waves).map StartedWave.modules = waves := by
  induction waves generalizing g summary with
  | nil => rfl
  | cons wave rest ih =>
    obtain ⟨g₁, outcomes, hr, hrun⟩ := runWaves_cons_eq_ok h
    rw [started_cons_of_ok hr, List.map_cons, ih hrun]

/-! ## What a module gains -/

theorem Outcome.errors_congr (h : Extends g g') (o : Outcome) : o.errors g' = o.errors g := by
  cases o with
  | blocked dependency => simp only [Outcome.errors, h.module]
  | ran result => cases result <;> rfl
  | alreadyFailed => rfl

/-- What a module has in `g` is what it had in `start`, and behind that exactly
what an outcome of it adds. -/
structure Graph.Gained (start : Graph) (phase : String) (id : ModuleId) (o : Outcome)
    (g : Graph) : Prop where
  published : (g.node id).store.published =
    (start.node id).store.published ++ o.providers.map (⟨phase, ·⟩)
  provider : ∀ q ∈ o.providers, g.provider? id q.kind = some q
  errors : g.errors id = start.errors id ++ o.errors start
  edges : ∀ e : Edge, e.source = id →
    (e ∈ g.edges ↔ e ∈ start.edges ∨ (e.target, e.tag) ∈ o.edges)

namespace Graph.Gained

variable {start : Graph} {done : List ModuleId}

theorem of_commit (hid : id < g.size) (h : (g.commit phase id o).2 = none) :
    Gained g phase id o (g.commit phase id o).1 where
  published := published_commit hid h
  provider := provider?_commit hid h
  errors := errors_commit hid o
  edges e he := by
    rw [mem_edges_commit h]
    exact or_congr_right (and_iff_right he)

theorem after (h : Gained start phase id o g) (hv : Visited g done g') (hid : id ∉ done) :
    Gained start phase id o g' where
  published := by rw [hv.node id hid, h.published]
  provider q hq := by rw [hv.provider? hid, h.provider q hq]
  errors := by rw [hv.errors hid, h.errors]
  edges e he := by rw [hv.mem_edges (he ▸ hid), h.edges e he]

theorem before (hv : Visited start done g) (hid : id ∉ done) (h : Gained g phase id o g') :
    Gained start phase id o g' where
  published := by rw [h.published, hv.node id hid]
  provider := h.provider
  errors := by rw [h.errors, hv.errors hid, Outcome.errors_congr hv.extends_start]
  edges e he := by rw [h.edges e he, hv.mem_edges (he ▸ hid)]

theorem kinds (h : Gained start phase id o g) :
    g.kinds id = start.kinds id ++ o.providers.map Provider.kind := by
  rw [Graph.kinds, h.published, List.map_append, List.map_map]
  rfl

end Graph.Gained

/-- A module of a wave had its outcome on the graph that the wave saw, and has
gained by it from `start` to `g`. -/
structure Phase.Dealt (p : Phase) (registry : Registry) (config : Config) (start : Graph)
    (w : StartedWave) (id : ModuleId) (o : Outcome) (g : Graph) : Prop where
  outcome : p.outcome ⟨w.before, registry, config, id⟩ = .ok o
  gained : Gained start p.name id o g
  extends_before : Extends w.before g

/-- **Who has no error in the end** has run its step with success. -/
theorem Phase.Dealt.ran_of_sound {start : Graph} {w : StartedWave}
    (h : p.Dealt registry config start w id o g) (hsound : g.isFailed id = false) :
    ∃ output, o = .ran (.ok output) := by
  have herrors : o.errors start = [] := by
    have hnil : g.errors id = [] := by simpa [isFailed] using hsound
    rw [h.gained.errors, List.append_eq_nil_iff] at hnil
    exact hnil.2
  rcases Phase.outcome_eq_ok h.outcome with ⟨-, hfailed⟩ | ⟨dep, rfl, -⟩ | ⟨result, rfl, -⟩
  · rw [h.extends_before.isFailed hfailed] at hsound
    cases hsound
  · simp [Outcome.errors] at herrors
  · cases result with
    | ok output => exact ⟨output, rfl⟩
    | error e => simp [Outcome.errors] at herrors

/-! ## From one commit to all waves -/

theorem Phase.runWave_eq_ok {wave : List ModuleId} {outcomes : List (ModuleId × Outcome)}
    (h : p.runWave registry config g wave = (g', .ok outcomes)) :
    p.outcomes registry config g wave = .ok outcomes ∧
      g.commitAll p.name outcomes = (g', none) := by
  unfold Phase.runWave at h
  split at h
  next => cases h
  next outcomes' ho =>
    split at h
    next => cases h
    next g₁ hc =>
      obtain ⟨rfl, hresult⟩ := Prod.mk.inj h
      obtain rfl := Except.ok.inj hresult
      exact ⟨ho, hc⟩

/-- After the commits of a wave each module of it has gained what its outcome adds. -/
theorem Graph.gained_commitAll {outcomes : List (ModuleId × Outcome)}
    (hnodup : (outcomes.map Prod.fst).Nodup) (hinside : ∀ x ∈ outcomes, x.1 < g.size)
    (h : g.commitAll phase outcomes = (g', none)) :
    Visited g (outcomes.map Prod.fst) g' ∧ ∀ x ∈ outcomes, Gained g phase x.1 x.2 g' := by
  induction outcomes generalizing g with
  | nil =>
    obtain rfl := (Prod.mk.inj h).1
    exact ⟨Visited.nil g, by simp⟩
  | cons x rest ih =>
    obtain ⟨hfirst, hrest⟩ := List.nodup_cons.mp hnodup
    have hstep : Visited g [x.1] (g.commit phase x.1 x.2).1 :=
      (Visited.nil g).snoc (extendsAt_commit g phase x.1 x.2)
    have hgained : (g.commit phase x.1 x.2).2 = none →
        Gained g phase x.1 x.2 (g.commit phase x.1 x.2).1 :=
      Gained.of_commit (hinside x List.mem_cons_self)
    unfold commitAll at h
    cases hc : g.commit phase x.1 x.2 with
    | mk g₁ fault? =>
      rw [hc] at h hstep hgained
      cases fault? with
      | some fault => cases h
      | none =>
        obtain ⟨hvisited, hall⟩ := ih hrest
          (fun y hy => hstep.extends_start.size ▸ hinside y (List.mem_cons_of_mem x hy)) h
        refine ⟨hstep.append hvisited, fun y hy => ?_⟩
        rcases List.mem_cons.mp hy with rfl | hy
        · exact (hgained rfl).after hvisited hfirst
        · have hne : y.1 ∉ [x.1] := by
            rw [List.mem_singleton]
            exact fun heq => hfirst (heq ▸ List.mem_map_of_mem hy)
          exact (hall y hy).before hstep hne

/-- **What waves do to their modules.** Each module of them has an outcome, found
on the graph as its wave began, and gains from start to end what this adds. -/
theorem Phase.dealt_runWaves {summary counted : PhaseSummary} (hnodup : waves.flatten.Nodup)
    (hinside : ∀ id ∈ waves.flatten, id < g.size)
    (h : p.runWaves registry config g summary waves = (g', .ok counted)) :
    Visited g waves.flatten g' ∧
      ∀ w ∈ p.started registry config g waves, ∀ id ∈ w.modules,
        ∃ o, p.Dealt registry config g w id o g' := by
  induction waves generalizing g summary with
  | nil =>
    obtain rfl := (Prod.mk.inj h).1
    exact ⟨Visited.nil g, by simp [Phase.started]⟩
  | cons wave rest ih =>
    rw [List.flatten_cons] at hnodup hinside
    obtain ⟨hwave, hrest, hdisjoint⟩ := List.nodup_append.mp hnodup
    obtain ⟨g₁, outcomes, hr, hrun⟩ := runWaves_cons_eq_ok h
    rw [started_cons_of_ok hr, List.flatten_cons]
    obtain ⟨ho, hc⟩ := runWave_eq_ok hr
    obtain ⟨hfst, hall⟩ := outcomes_eq_ok ho
    subst hfst
    obtain ⟨hvisited, hgained⟩ := gained_commitAll hwave
      (fun x hx => hinside x.1 (List.mem_append_left _ (List.mem_map_of_mem hx))) hc
    obtain ⟨hlater, hdealtLater⟩ := ih hrest
      (fun id hid => hvisited.extends_start.size ▸
        hinside id (List.mem_append_right _ hid)) hrun
    refine ⟨hvisited.append hlater, fun w hw id hid => ?_⟩
    rcases List.mem_cons.mp hw with rfl | hw
    · obtain ⟨x, hx, rfl⟩ := List.mem_map.mp hid
      have hno : x.1 ∉ rest.flatten := fun hmem => hdisjoint x.1 hid x.1 hmem rfl
      exact ⟨x.2, hall x hx, (hgained x hx).after hlater hno,
        hvisited.extends_start.trans hlater.extends_start⟩
    · obtain ⟨o, hdealt⟩ := hdealtLater w hw id hid
      have hwave : w.modules ∈ rest :=
        (isPrefix_started p registry config g₁ rest).subset (List.mem_map_of_mem hw)
      have hmem : id ∈ rest.flatten := List.mem_flatten.mpr ⟨w.modules, hwave, hid⟩
      have hno : id ∉ outcomes.map Prod.fst := fun hmem' => hdisjoint id hmem' id hmem rfl
      exact ⟨o, hdealt.outcome, hdealt.gained.before hvisited hno, hdealt.extends_before⟩

/-! ## Whole phases -/

/-- What there is when the waves of a phase are done. -/
structure Phase.HistoryDone (p : Phase) (registry : Registry) (config : Config) (start : Graph)
    (g : Graph) : Prop where
  perm : ((p.history registry config start).map StartedWave.modules).flatten.Perm start.ids
  extends_start : Extends start g
  inside : ∀ e ∈ g.edges, e ∈ start.edges ∨ e.source < start.size
  dealt : ∀ w ∈ p.history registry config start, ∀ id ∈ w.modules,
    ∃ o, p.Dealt registry config start w id o g

theorem Phase.HistoryDone.of_runWaves {summary counted : PhaseSummary}
    (hw : g.waves p.order = some waves)
    (h : p.runWaves registry config g summary waves = (g', .ok counted)) :
    p.HistoryDone registry config g g' := by
  have hperm := waves_perm hw
  obtain ⟨hvisited, hdealt⟩ := dealt_runWaves (hperm.symm.nodup g.nodup_ids)
    (fun id hid => mem_ids.mp (hperm.subset hid)) h
  refine ⟨?_, hvisited.extends_start, fun e he => ?_, ?_⟩
  · rw [history_eq hw, modules_started h]
    exact hperm
  · exact (hvisited.edge e he).imp_right fun hmem => mem_ids.mp (hperm.subset hmem)
  · rw [history_eq hw]
    exact hdealt

theorem Phase.HistoryDone.exists_wave {start : Graph} (h : p.HistoryDone registry config start g)
    (hid : id < start.size) : ∃ w ∈ p.history registry config start, id ∈ w.modules := by
  obtain ⟨modules, hmodules, hmem⟩ := List.mem_flatten.mp (h.perm.symm.subset (mem_ids.mpr hid))
  obtain ⟨w, hw, rfl⟩ := List.mem_map.mp hmodules
  exact ⟨w, hw, hmem⟩

/-- How a phase ends once its waves are done. -/
def Phase.finish (p : Phase) (config : Config) (counted : PhaseSummary) (s : RunState) :
    RunState × Except Abort PhaseSummary :=
  match p.barrier config s with
  | (s, some abort) => (s, .error abort)
  | (s, none) =>
    ({ s with graph := s.graph.propagateFailures.1 },
      .ok { counted with propagated := s.graph.propagateFailures.2 })

/-- A phase deals with every module and comes to its end from there, unless edges
make a cycle or there is a fault. -/
theorem Phase.run_eq_finish {s : RunState} (hw : s.graph.waves p.order ≠ none)
    (hfault : ∀ fault, (p.run registry config s).2 ≠ .error (.fault fault)) :
    ∃ g counted, p.HistoryDone registry config s.graph g ∧
      p.run registry config s = p.finish config counted { s with graph := g } := by
  obtain ⟨waves, hw⟩ := Option.ne_none_iff_exists'.mp hw
  unfold Phase.run at hfault ⊢
  simp only [hw] at hfault ⊢
  split at hfault
  next g fault _ => exact absurd rfl (hfault fault)
  next g counted heq => exact ⟨g, counted, .of_runWaves hw heq, rfl⟩

/-- **A phase that is completed** has dealt with every module, its barrier had
nothing against it, and failures were spread at the end. -/
theorem Phase.historyDone_of_run {s s' : RunState} {summary : PhaseSummary}
    (hrun : p.run registry config s = (s', .ok summary)) :
    ∃ g sb, p.HistoryDone registry config s.graph g ∧
      p.barrier config { s with graph := g } = (sb, none) ∧
      s' = { sb with graph := sb.graph.propagateFailures.1 } := by
  obtain ⟨waves, g, counted, sb, hw, heq, hb, rfl, -⟩ := completed_of_run hrun
  exact ⟨g, sb, .of_runWaves hw heq, hb, rfl⟩

end TargetGen
