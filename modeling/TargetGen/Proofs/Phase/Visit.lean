import TargetGen.Proofs.Graph.Propagation
import TargetGen.Proofs.Result
import TargetGen.Proofs.Phase.Waves

/-!
# Visits — the induction behind every statement about a phase

A phase deals with its modules one at a time, but not on one graph: the outcome
of a module is found on the graph as its wave began, and committed to the graph
as the modules before it in the wave left it. `Phase.Visit` puts both graphs in
relation to the one the phase started from:

* both extend it, and the later one the earlier;
* the module that is visited, its providers, its errors and the edges that leave
  it are still what they were when the phase started, since each module is
  visited once and a commit keeps to its module.

`Phase.runWaves_induct` is the induction over visits, for a property that may
depend on which modules have been dealt with. It covers runs that end in a fault
as well, so one proof may show that there is none.
-/

namespace TargetGen

open TargetGen.Graph

/-! ## What has been dealt with -/

/-- A graph that a phase has come to from the one it started from, having dealt
with the modules in `done`. -/
structure Graph.Visited (start : Graph) (done : List ModuleId) (g : Graph) : Prop where
  extends_start : Extends start g
  node : ∀ id, id ∉ done → g.node id = start.node id
  edge : ∀ e ∈ g.edges, e ∈ start.edges ∨ e.source ∈ done

namespace Graph.Visited

variable {start g g' : Graph} {done : List ModuleId} {id : ModuleId}

theorem nil (start : Graph) : Visited start [] start :=
  ⟨Extends.refl start, fun _ _ => rfl, fun _ he => .inl he⟩

theorem snoc (h : Visited start done g) (hg : ExtendsAt id g g') :
    Visited start (done ++ [id]) g' where
  extends_start := h.extends_start.trans hg.toExtends
  node other ho := by
    rw [List.mem_append, List.mem_singleton, not_or] at ho
    rw [hg.node other ho.2, h.node other ho.1]
  edge e he := by
    rw [List.mem_append, List.mem_singleton]
    rcases hg.own e he with he | he
    · exact (h.edge e he).imp_right .inl
    · exact .inr (.inr he)

theorem append {done' : List ModuleId} (h : Visited start done g) (h' : Visited g done' g') :
    Visited start (done ++ done') g' where
  extends_start := h.extends_start.trans h'.extends_start
  node other ho := by
    rw [List.mem_append, not_or] at ho
    rw [h'.node other ho.2, h.node other ho.1]
  edge e he := by
    rw [List.mem_append]
    rcases h'.edge e he with he | he
    · exact (h.edge e he).imp_right .inl
    · exact .inr (.inr he)

theorem mem_edges (h : Visited start done g) {e : Edge} (he : e.source ∉ done) :
    e ∈ g.edges ↔ e ∈ start.edges :=
  ⟨fun hmem => (h.edge e hmem).resolve_right he, h.extends_start.mem_edges⟩

theorem provider? (h : Visited start done g) (hid : id ∉ done) (kind : ProviderKind) :
    g.provider? id kind = start.provider? id kind := by
  rw [Graph.provider?, h.node id hid, Graph.provider?]

theorem errors (h : Visited start done g) (hid : id ∉ done) : g.errors id = start.errors id := by
  rw [Graph.errors, h.node id hid, Graph.errors]

theorem isFailed (h : Visited start done g) (hid : id ∉ done) :
    g.isFailed id = start.isFailed id := by
  rw [Graph.isFailed, h.errors hid, Graph.isFailed]

theorem kinds (h : Visited start done g) (hid : id ∉ done) : g.kinds id = start.kinds id := by
  rw [Graph.kinds, h.node id hid, Graph.kinds]

end Graph.Visited

/-! ## One visit -/

/-- The visit of a module: `before` is the graph as its wave began, `now` the
graph to which its outcome is committed. -/
structure Phase.Visit (start : Graph) (waves : List (List ModuleId))
    (seen done : List ModuleId) (before now : Graph) (id : ModuleId) : Prop where
  placed : ∃ earlier wave later,
    waves = earlier ++ wave :: later ∧ seen = earlier.flatten ∧ id ∈ wave
  fresh : id ∉ done
  seen_prefix : seen <+: done
  inside : id < start.size
  visited_before : Visited start seen before
  visited_now : Visited start done now
  extends_now : Extends before now

namespace Phase.Visit

variable {start before now : Graph} {waves : List (List ModuleId)}
  {seen done : List ModuleId} {id : ModuleId}

theorem not_seen (v : Visit start waves seen done before now id) : id ∉ seen :=
  fun h => v.fresh (v.seen_prefix.subset h)

theorem inside_now (v : Visit start waves seen done before now id) : id < now.size :=
  v.visited_now.extends_start.size ▸ v.inside

theorem errors_eq (v : Visit start waves seen done before now id) :
    now.errors id = before.errors id := by
  rw [v.visited_now.errors v.fresh, v.visited_before.errors v.not_seen]

theorem errors_eq_nil (v : Visit start waves seen done before now id)
    (hsound : before.isFailed id = false) : now.errors id = [] := by
  rw [v.errors_eq]
  simpa [Graph.isFailed] using hsound

end Phase.Visit

/-! ## The outcomes of a wave -/

section

variable {p : Phase} {registry : Registry} {config : Config} {g : Graph}

theorem Phase.outcomes_eq_ok {wave : List ModuleId} {outcomes : List (ModuleId × Outcome)}
    (h : p.outcomes registry config g wave = .ok outcomes) :
    outcomes.map Prod.fst = wave ∧
      ∀ x ∈ outcomes, p.outcome ⟨g, registry, config, x.1⟩ = .ok x.2 := by
  rw [Phase.outcomes, mapM_eq_ok_iff] at h
  induction h with
  | nil => simp
  | @cons id x wave outcomes hx _ ih =>
    obtain ⟨o, ho, rfl⟩ := map_eq_ok hx
    exact ⟨congrArg (id :: ·) ih.1, List.forall_mem_cons.mpr ⟨ho, ih.2⟩⟩

theorem Phase.outcomes_eq_error {wave : List ModuleId} {fault : Fault}
    (h : p.outcomes registry config g wave = .error fault) :
    ∃ id ∈ wave, p.outcome ⟨g, registry, config, id⟩ = .error fault := by
  obtain ⟨id, hid, hfault⟩ := exists_of_mapM_eq_error h
  exact ⟨id, hid, map_eq_error hfault⟩

theorem Phase.outcome_eq_ok {v : Viewpoint} {o : Outcome} (h : p.outcome v = .ok o) :
    (o = .alreadyFailed ∧ v.graph.isFailed v.id = true) ∨
    (∃ dependency, o = .blocked dependency ∧ v.graph.isFailed v.id = false ∧
      v.graph.failedDependency v.id = some dependency) ∨
    (∃ result, o = .ran result ∧ v.graph.isFailed v.id = false ∧
      v.graph.failedDependency v.id = none ∧ p.step v = .ok result) := by
  unfold Phase.outcome at h
  by_cases hf : v.graph.isFailed v.id = true
  · rw [if_pos hf] at h
    exact .inl ⟨(Except.ok.inj h).symm, hf⟩
  · rw [if_neg hf] at h
    have hf : v.graph.isFailed v.id = false := by simpa using hf
    cases hd : v.graph.failedDependency v.id with
    | some dependency =>
      rw [hd] at h
      exact .inr (.inl ⟨dependency, (Except.ok.inj h).symm, hf, rfl⟩)
    | none =>
      rw [hd] at h
      obtain ⟨result, hs, rfl⟩ := map_eq_ok h
      exact .inr (.inr ⟨result, rfl, hf, rfl, hs⟩)

theorem Phase.outcome_eq_ran {v : Viewpoint} {result : Except ModuleError StepOutput}
    (h : p.outcome v = .ok (.ran result)) :
    v.graph.isFailed v.id = false ∧ v.graph.failedDependency v.id = none ∧
      p.step v = .ok result := by
  rcases outcome_eq_ok h with ⟨ho, -⟩ | ⟨_, ho, -⟩ | ⟨_, ho, hrun⟩
  · cases ho
  · cases ho
  · obtain rfl := Outcome.ran.inj ho
    exact hrun

theorem Phase.outcome_eq_blocked {v : Viewpoint} {dependency : ModuleId}
    (h : p.outcome v = .ok (.blocked dependency)) :
    v.graph.isFailed v.id = false ∧ v.graph.failedDependency v.id = some dependency := by
  rcases outcome_eq_ok h with ⟨ho, -⟩ | ⟨_, ho, hblocked⟩ | ⟨_, ho, -⟩
  · cases ho
  · obtain rfl := Outcome.blocked.inj ho
    exact hblocked
  · cases ho

theorem Phase.outcome_eq_error {v : Viewpoint} {fault : Fault} (h : p.outcome v = .error fault) :
    v.graph.isFailed v.id = false ∧ v.graph.failedDependency v.id = none ∧
      p.step v = .error fault := by
  unfold Phase.outcome at h
  by_cases hf : v.graph.isFailed v.id = true
  · rw [if_pos hf] at h
    cases h
  · rw [if_neg hf] at h
    cases hd : v.graph.failedDependency v.id with
    | some dependency => rw [hd] at h; cases h
    | none =>
      rw [hd] at h
      exact ⟨by simpa using hf, rfl, map_eq_error h⟩

end

/-! ## The induction -/

/-- What the visits of a phase have to keep: `P` of the modules dealt with and
the graph come to, and `Q` of a fault that ends the phase. -/
structure Phase.Keeps (p : Phase) (registry : Registry) (config : Config) (start : Graph)
    (waves : List (List ModuleId)) (P : List ModuleId → Graph → Prop) (Q : Fault → Prop) :
    Prop where
  /-- A commit without fault keeps `P`. -/
  commit : ∀ {seen done before now id o}, Visit start waves seen done before now id →
    P seen before → P done now → p.outcome ⟨before, registry, config, id⟩ = .ok o →
    (now.commit p.name id o).2 = none → P (done ++ [id]) (now.commit p.name id o).1
  /-- A fault in a commit is one of those expected. -/
  clash : ∀ {seen done before now id o fault}, Visit start waves seen done before now id →
    P seen before → P done now → p.outcome ⟨before, registry, config, id⟩ = .ok o →
    (now.commit p.name id o).2 = some fault → Q fault
  /-- A fault in a step is one of those expected. -/
  fault : ∀ {seen before id fault}, Visit start waves seen seen before before id →
    P seen before → p.outcome ⟨before, registry, config, id⟩ = .error fault → Q fault

section

variable {p : Phase} {registry : Registry} {config : Config} {start : Graph}
  {waves : List (List ModuleId)} {P : List ModuleId → Graph → Prop} {Q : Fault → Prop}

/-- The commits of a wave, from some point in it to its end. -/
theorem Phase.Keeps.commitAll (k : p.Keeps registry config start waves P Q)
    {earlier later : List (List ModuleId)} {wave done : List ModuleId} {before now : Graph}
    (hw : waves = earlier ++ wave :: later) (hinside : ∀ id ∈ wave, id < start.size)
    (hbefore : Visited start earlier.flatten before) (hPbefore : P earlier.flatten before)
    (hdone : earlier.flatten <+: done) :
    ∀ (outcomes : List (ModuleId × Outcome)),
      (∀ x ∈ outcomes, x.1 ∈ wave ∧ p.outcome ⟨before, registry, config, x.1⟩ = .ok x.2) →
      (done ++ outcomes.map Prod.fst).Nodup →
      Extends before now → Visited start done now → P done now →
      match now.commitAll p.name outcomes with
      | (g, none) =>
        Visited start (done ++ outcomes.map Prod.fst) g ∧ P (done ++ outcomes.map Prod.fst) g
      | (_, some fault) => Q fault := by
  intro outcomes
  induction outcomes generalizing done now with
  | nil =>
    intro _ _ _ hvisited hP
    simpa [Graph.commitAll] using ⟨hvisited, hP⟩
  | cons x rest ih =>
    intro hall hnodup hnow hvisited hP
    obtain ⟨id, o⟩ := x
    obtain ⟨hid, ho⟩ := hall _ List.mem_cons_self
    have hassoc : done ++ List.map Prod.fst ((id, o) :: rest) =
        (done ++ [id]) ++ rest.map Prod.fst := by simp
    rw [hassoc] at hnodup ⊢
    have hfresh : id ∉ done := fun hmem =>
      (List.nodup_append.mp (List.nodup_append.mp hnodup).1).2.2 id hmem id
        (List.mem_singleton_self id) rfl
    have hvisit : Visit start waves earlier.flatten done before now id :=
      ⟨⟨earlier, wave, later, hw, rfl, hid⟩, hfresh, hdone, hinside id hid, hbefore, hvisited,
        hnow⟩
    have hstep := extendsAt_commit now p.name id o
    -- the outcome was found on `before`, however far the wave has been committed
    have hcommit := k.commit hvisit hPbefore hP ho
    have hclash : ∀ fault, (now.commit p.name id o).2 = some fault → Q fault :=
      fun _ => k.clash hvisit hPbefore hP ho
    unfold Graph.commitAll
    cases hc : now.commit p.name id o with
    | mk g fault? =>
      rw [hc] at hstep hcommit hclash
      cases fault? with
      | some fault => exact hclash fault rfl
      | none =>
        exact ih (hdone.trans (List.prefix_append _ _))
          (fun x hx => hall x (List.mem_cons_of_mem _ hx)) hnodup
          (hnow.trans hstep.toExtends) (hvisited.snoc hstep) (hcommit rfl)

/-- The waves of a phase, from some point on to their end. -/
theorem Phase.Keeps.runWaves (k : p.Keeps registry config start waves P Q)
    (hnodup : waves.flatten.Nodup) (hinside : ∀ id ∈ waves.flatten, id < start.size) :
    ∀ (later earlier : List (List ModuleId)) (g : Graph) (summary : PhaseSummary),
      waves = earlier ++ later → Visited start earlier.flatten g → P earlier.flatten g →
      match p.runWaves registry config g summary later with
      | (g', .ok _) => Visited start waves.flatten g' ∧ P waves.flatten g'
      | (_, .error fault) => Q fault := by
  intro later
  induction later with
  | nil =>
    intro earlier g summary hw hvisited hP
    rw [List.append_nil] at hw
    exact hw ▸ ⟨hvisited, hP⟩
  | cons wave later ih =>
    intro earlier g summary hw hvisited hP
    have hin : ∀ id ∈ wave, id < start.size := fun id hid =>
      hinside id (hw ▸ List.mem_flatten.mpr ⟨wave, by simp, hid⟩)
    unfold Phase.runWaves Phase.runWave
    cases ho : p.outcomes registry config g wave with
    | error fault =>
      -- nothing of the wave is committed, so all is as the wave began
      obtain ⟨id, hid, hfault⟩ := outcomes_eq_error ho
      have hfresh : id ∉ earlier.flatten := by
        rw [hw, List.flatten_append, List.flatten_cons] at hnodup
        intro hmem
        exact (List.nodup_append.mp hnodup).2.2 id hmem id (List.mem_append_left _ hid) rfl
      exact k.fault ⟨⟨earlier, wave, later, hw, rfl, hid⟩, hfresh, List.prefix_rfl, hin id hid,
        hvisited, hvisited, Extends.refl g⟩ hP hfault
    | ok outcomes =>
      obtain ⟨hfst, hall⟩ := outcomes_eq_ok ho
      have hwave : ∀ x ∈ outcomes,
          x.1 ∈ wave ∧ p.outcome ⟨g, registry, config, x.1⟩ = .ok x.2 :=
        fun x hx => ⟨hfst ▸ List.mem_map_of_mem hx, hall x hx⟩
      have hnow : (earlier.flatten ++ outcomes.map Prod.fst).Nodup := by
        rw [hw, List.flatten_append, List.flatten_cons, ← List.append_assoc] at hnodup
        exact hfst ▸ (List.nodup_append.mp hnodup).1
      have hcommits := k.commitAll hw hin hvisited hP List.prefix_rfl outcomes hwave hnow
        (Extends.refl g) hvisited hP
      cases hc : g.commitAll p.name outcomes with
      | mk g' fault? =>
        rw [hc] at hcommits
        simp only [hc]
        cases fault? with
        | some fault => exact hcommits
        | none =>
          have hflat : (earlier ++ [wave]).flatten = earlier.flatten ++ outcomes.map Prod.fst := by
            rw [List.flatten_append, hfst]
            simp
          exact ih (earlier ++ [wave]) g' (summary.count outcomes) (by simp [hw])
            (hflat ▸ hcommits.1) (hflat ▸ hcommits.2)

/-- **Induction over the visits of a phase.** What every visit keeps holds when
the waves of the phase are done. -/
theorem Phase.runWaves_induct (summary : PhaseSummary) (hw : start.waves p.order = some waves)
    (k : p.Keeps registry config start waves P Q) (h : P [] start) :
    match p.runWaves registry config start summary waves with
    | (g, .ok _) => Visited start waves.flatten g ∧ P waves.flatten g
    | (_, .error fault) => Q fault := by
  have hperm := waves_perm hw
  exact k.runWaves (hperm.symm.nodup start.nodup_ids)
    (fun id hid => mem_ids.mp (hperm.subset hid)) waves [] start summary rfl
    (Visited.nil start) h

end

end TargetGen
