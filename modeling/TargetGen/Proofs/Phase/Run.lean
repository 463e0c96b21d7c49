import TargetGen.Proofs.Phase.Visit

/-!
# Runs of phases — from one visit to a whole run

A phase that is completed has visited every module, run its barrier and spread
failures; a phase that ends in a fault met it during a visit or in its barrier.
`Phase.run_eq_ok` and `Phase.run_eq_fault` say so with a property `P` that the
visits keep. `Phase.runAll_induct` carries a property from phase to phase.

Some things hold however a run ends. Between the graph on which a phase begins and
the one that it leaves lie commits, what the barrier does and the spread of
failures; a relation within which each of these stays holds of a whole run and of
every graph that it passes (`Phase.StaysWithin`). That runs lose nothing is an
instance of it.
-/

namespace TargetGen

open TargetGen.Graph

variable {p : Phase} {registry : Registry} {config : Config} {s s' : RunState}
  {P : List ModuleId → Graph → Prop} {Q : Fault → Prop}

/-- The graph and the modules dealt with when the waves of a phase are done. -/
structure Phase.WavesDone (s : RunState) (P : List ModuleId → Graph → Prop)
    (done : List ModuleId) (g : Graph) : Prop where
  perm : done.Perm s.graph.ids
  visited : Visited s.graph done g
  kept : P done g

theorem Phase.WavesDone.mem {done : List ModuleId} {g : Graph} {id : ModuleId}
    (h : WavesDone s P done g) (hid : id < s.graph.size) : id ∈ done :=
  h.perm.symm.subset (mem_ids.mpr hid)

/-- What a phase that is completed went through: its waves, its barrier and the
spread of failures, whose report completes what the waves counted. -/
theorem Phase.completed_of_run {summary : PhaseSummary}
    (h : p.run registry config s = (s', .ok summary)) :
    ∃ waves g counted sb, s.graph.waves p.order = some waves ∧
      p.runWaves registry config s.graph ⟨p.name, waves.length, 0, 0, 0, 0⟩ waves =
        (g, .ok counted) ∧
      p.barrier config { s with graph := g } = (sb, none) ∧
      s' = { sb with graph := sb.graph.propagateFailures.1 } ∧
      summary = { counted with propagated := sb.graph.propagateFailures.2 } := by
  unfold Phase.run at h
  split at h
  next => cases h
  next waves hw =>
    split at h
    next => cases h
    next g counted heq =>
      split at h
      next => cases h
      next sb hb =>
        obtain ⟨rfl, hsummary⟩ := Prod.mk.inj h
        exact ⟨waves, g, counted, sb, hw, heq, hb, rfl, (Except.ok.inj hsummary).symm⟩

/-- **A phase that is completed** has dealt with every module, its barrier had
nothing against it, and failures were spread at the end. -/
theorem Phase.run_eq_ok {summary : PhaseSummary}
    (k : ∀ waves, p.Keeps registry config s.graph waves P Q) (h : P [] s.graph)
    (hrun : p.run registry config s = (s', .ok summary)) :
    ∃ done g sb, WavesDone s P done g ∧ p.barrier config { s with graph := g } = (sb, none) ∧
      s' = { sb with graph := sb.graph.propagateFailures.1 } := by
  obtain ⟨waves, g, counted, sb, hw, heq, hb, rfl, -⟩ := completed_of_run hrun
  have hdone := runWaves_induct ⟨p.name, waves.length, 0, 0, 0, 0⟩ hw (k waves) h
  rw [heq] at hdone
  exact ⟨_, g, sb, ⟨waves_perm hw, hdone.1, hdone.2⟩, hb, rfl⟩

/-- **A phase that ends in a fault** met it in a visit, or its barrier did. -/
theorem Phase.run_eq_fault {fault : Fault}
    (k : ∀ waves, p.Keeps registry config s.graph waves P Q) (h : P [] s.graph)
    (hrun : (p.run registry config s).2 = .error (.fault fault)) :
    Q fault ∨ ∃ done g, WavesDone s P done g ∧
      (p.barrier config { s with graph := g }).2 = some (.fault fault) := by
  unfold Phase.run at hrun
  split at hrun
  next => cases hrun
  next waves hw =>
    have hdone := runWaves_induct ⟨p.name, waves.length, 0, 0, 0, 0⟩ hw (k waves) h
    split at hrun
    next g fault' heq =>
      rw [heq] at hdone
      obtain rfl : fault' = fault := by simpa using hrun
      exact .inl hdone
    next g counted heq =>
      rw [heq] at hdone
      split at hrun
      next sb abort hb =>
        obtain rfl : abort = .fault fault := Except.error.inj hrun
        exact .inr ⟨_, g, ⟨waves_perm hw, hdone.1, hdone.2⟩, by rw [hb]⟩
      next => cases hrun

/-! ## From phase to phase -/

@[simp] theorem RunState.graph_ofGraph (g : Graph) : (RunState.ofGraph g).graph = g := rfl

@[simp] theorem RunState.batches_ofGraph (g : Graph) : (RunState.ofGraph g).batches = [] := rfl

@[simp] theorem Phase.runAll_nil : Phase.runAll registry config [] s = (s, .ok []) := rfl

theorem Phase.runAll_cons_of_error {phases : List Phase} {abort : Abort}
    (h : p.run registry config s = (s', .error abort)) :
    Phase.runAll registry config (p :: phases) s = (s', .error abort) := by
  rw [Phase.runAll, h]

theorem Phase.runAll_cons_of_ok {phases : List Phase} {summary : PhaseSummary}
    (h : p.run registry config s = (s', .ok summary)) :
    Phase.runAll registry config (p :: phases) s =
      ((Phase.runAll registry config phases s').1,
        (Phase.runAll registry config phases s').2.map (summary :: ·)) := by
  rw [Phase.runAll, h]

theorem Phase.runAll_append_of_error {phases later : List Phase} {abort : Abort}
    (h : Phase.runAll registry config phases s = (s', .error abort)) :
    Phase.runAll registry config (phases ++ later) s = (s', .error abort) := by
  induction phases generalizing s with
  | nil => cases h
  | cons p rest ih =>
    rw [List.cons_append]
    cases hp : p.run registry config s with
    | mk s₁ result =>
      cases result with
      | error abort' =>
        rw [runAll_cons_of_error hp] at h ⊢
        exact h
      | ok summary =>
        rw [runAll_cons_of_ok hp] at h ⊢
        obtain ⟨hstate, hresult⟩ := Prod.mk.inj h
        rw [ih (Prod.ext hstate (map_eq_error hresult))]
        rfl

theorem Phase.runAll_append_of_ok {phases later : List Phase} {summaries : List PhaseSummary}
    (h : Phase.runAll registry config phases s = (s', .ok summaries)) :
    Phase.runAll registry config (phases ++ later) s =
      ((Phase.runAll registry config later s').1,
        (Phase.runAll registry config later s').2.map (summaries ++ ·)) := by
  induction phases generalizing s summaries with
  | nil =>
    obtain ⟨rfl, hresult⟩ := Prod.mk.inj h
    obtain rfl := Except.ok.inj hresult
    rw [List.nil_append]
    cases hr : Phase.runAll registry config later s with
    | mk s₁ result => cases result <;> rfl
  | cons p rest ih =>
    rw [List.cons_append]
    cases hp : p.run registry config s with
    | mk s₁ result =>
      cases result with
      | error abort =>
        rw [runAll_cons_of_error hp] at h
        cases h
      | ok summary =>
        rw [runAll_cons_of_ok hp] at h ⊢
        obtain ⟨hstate, hresult⟩ := Prod.mk.inj h
        obtain ⟨found, hfound, rfl⟩ := map_eq_ok hresult
        rw [ih (Prod.ext hstate hfound)]
        cases (Phase.runAll registry config later s').2 <;> rfl

theorem Phase.runAll_cons_eq_ok {phases : List Phase} {summaries : List PhaseSummary}
    (h : Phase.runAll registry config (p :: phases) s = (s', .ok summaries)) :
    ∃ s₁ summary later, p.run registry config s = (s₁, .ok summary) ∧
      Phase.runAll registry config phases s₁ = (s', .ok later) := by
  unfold Phase.runAll at h
  split at h
  next => cases h
  next s₁ summary hp =>
    cases hr : Phase.runAll registry config phases s₁ with
    | mk s₂ result =>
      rw [hr] at h
      obtain ⟨rfl, hresult⟩ := Prod.mk.inj h
      cases result with
      | error abort => simp [Except.map] at hresult
      | ok later => exact ⟨s₁, summary, later, hp, hr⟩

theorem Phase.runAll_append_eq_ok {phases later : List Phase} {summaries : List PhaseSummary}
    (h : Phase.runAll registry config (phases ++ later) s = (s', .ok summaries)) :
    ∃ s₁ first second, Phase.runAll registry config phases s = (s₁, .ok first) ∧
      Phase.runAll registry config later s₁ = (s', .ok second) := by
  cases hr : Phase.runAll registry config phases s with
  | mk s₁ result =>
    cases result with
    | error abort =>
      rw [runAll_append_of_error hr] at h
      cases h
    | ok first =>
      rw [runAll_append_of_ok hr] at h
      obtain ⟨hstate, hresult⟩ := Prod.mk.inj h
      obtain ⟨second, hsecond, -⟩ := map_eq_ok hresult
      exact ⟨s₁, first, second, rfl, Prod.ext hstate hsecond⟩

theorem Phase.runAll_cons_eq_error {phases : List Phase} {abort : Abort}
    (h : (Phase.runAll registry config (p :: phases) s).2 = .error abort) :
    (p.run registry config s).2 = .error abort ∨
    ∃ s₁ summary, p.run registry config s = (s₁, .ok summary) ∧
      (Phase.runAll registry config phases s₁).2 = .error abort := by
  cases hp : p.run registry config s with
  | mk s₁ result =>
    cases result with
    | error abort' =>
      rw [runAll_cons_of_error hp] at h
      exact .inl (congrArg Except.error (Except.error.inj h))
    | ok summary =>
      rw [runAll_cons_of_ok hp] at h
      exact .inr ⟨s₁, summary, rfl, map_eq_error h⟩

/-- **Induction over the phases of a run.** -/
theorem Phase.runAll_induct {J : RunState → Prop} {phases : List Phase}
    (step : ∀ p ∈ phases, ∀ {s s' summary}, J s → p.run registry config s = (s', .ok summary) →
      J s')
    {summaries : List PhaseSummary} (h : J s)
    (hrun : Phase.runAll registry config phases s = (s', .ok summaries)) : J s' := by
  induction phases generalizing s summaries with
  | nil => exact (Prod.mk.inj hrun).1 ▸ h
  | cons p rest ih =>
    obtain ⟨s₁, summary, later, hp, hr⟩ := runAll_cons_eq_ok hrun
    exact ih (fun q hq => step q (List.mem_cons_of_mem _ hq))
      (step p List.mem_cons_self h hp) hr

/-! ## Who asks the executor -/

theorem Phase.batches_run (h : p.barrier = Phase.noBarrier) :
    (p.run registry config s).1.batches = s.batches := by
  unfold Phase.run
  rw [h]
  split
  next => rfl
  next => split <;> rfl

theorem Phase.batches_runAll {phases : List Phase}
    (h : ∀ p ∈ phases, p.barrier = Phase.noBarrier) :
    (Phase.runAll registry config phases s).1.batches = s.batches := by
  induction phases generalizing s with
  | nil => rfl
  | cons p rest ih =>
    have hfirst : (p.run registry config s).1.batches = s.batches :=
      batches_run (h p List.mem_cons_self)
    cases hp : p.run registry config s with
    | mk s₁ result =>
      rw [hp] at hfirst
      cases result with
      | error abort => rw [runAll_cons_of_error hp, hfirst]
      | ok summary =>
        rw [runAll_cons_of_ok hp, ih fun q hq => h q (List.mem_cons_of_mem p hq), hfirst]

/-! ## The graphs of a run -/

/-- The graphs that a run of phases passes through: those between its waves, the
one it starts from, and those between its phases. -/
inductive Phase.Passes (registry : Registry) (config : Config) :
    List Phase → RunState → Graph → Prop where
  | start {phases s} : Passes registry config phases s s.graph
  | wave {p rest s earlier later summary} : s.graph.waves p.order = some (earlier ++ later) →
      Passes registry config (p :: rest) s
        (p.runWaves registry config s.graph summary earlier).1
  | phase {p rest s s' summary g} : p.run registry config s = (s', .ok summary) →
      Passes registry config rest s' g → Passes registry config (p :: rest) s g

/-- A relation between graphs within which a phase stays, whatever its modules come to:
the graph that a commit changes extends the one on which the outcome was found. -/
structure Phase.StaysWithin (p : Phase) (registry : Registry) (config : Config)
    (T : Graph → Graph → Prop) : Prop where
  refl : ∀ g, T g g
  trans : ∀ {g g' g''}, T g g' → T g' g'' → T g g''
  commit : ∀ {before g id o}, Extends before g → id < g.size →
    p.outcome ⟨before, registry, config, id⟩ = .ok o → T g (g.commit p.name id o).1

theorem Phase.staysWithin_extends (p : Phase) (registry : Registry) (config : Config) :
    p.StaysWithin registry config Extends where
  refl := Extends.refl
  trans := Extends.trans
  commit {_ g _ o} _ _ _ := (extendsAt_commit g p.name _ o).toExtends

theorem Phase.lt_size_of_waves {order : PhaseOrder} {g : Graph} {waves : List (List ModuleId)}
    (h : g.waves order = some waves) : ∀ wave ∈ waves, ∀ id ∈ wave, id < g.size :=
  fun wave hwave _ hid =>
    mem_ids.mp ((waves_perm h).subset (List.mem_flatten.mpr ⟨wave, hwave, hid⟩))

namespace Phase.StaysWithin

variable {T : Graph → Graph → Prop} {g before : Graph}

theorem commitAll (h : p.StaysWithin registry config T) {outcomes : List (ModuleId × Outcome)}
    (hext : Extends before g)
    (hall : ∀ x ∈ outcomes, x.1 < before.size ∧
      p.outcome ⟨before, registry, config, x.1⟩ = .ok x.2) :
    T g (g.commitAll p.name outcomes).1 := by
  induction outcomes generalizing g with
  | nil => exact h.refl g
  | cons x rest ih =>
    obtain ⟨hinside, ho⟩ := hall x List.mem_cons_self
    have hstep := h.commit hext (hext.size ▸ hinside) ho
    have hat := (extendsAt_commit g p.name x.1 x.2).toExtends
    unfold Graph.commitAll
    split
    next g' fault hc =>
      rw [hc] at hstep
      exact hstep
    next g' hc =>
      rw [hc] at hstep hat
      exact h.trans hstep (ih (hext.trans hat) fun y hy => hall y (List.mem_cons_of_mem x hy))

theorem runWave (h : p.StaysWithin registry config T) (g : Graph) {wave : List ModuleId}
    (hinside : ∀ id ∈ wave, id < g.size) : T g (p.runWave registry config g wave).1 := by
  unfold Phase.runWave
  split
  next => exact h.refl g
  next outcomes ho =>
    obtain ⟨hwave, houtcome⟩ := outcomes_eq_ok ho
    have hall := h.commitAll (Extends.refl g) fun x hx =>
      ⟨hinside x.1 (hwave ▸ List.mem_map_of_mem hx), houtcome x hx⟩
    split
    all_goals
      next hc =>
        rw [hc] at hall
        exact hall

theorem runWaves (h : p.StaysWithin registry config T) (g : Graph) (summary : PhaseSummary)
    {waves : List (List ModuleId)} (hinside : ∀ wave ∈ waves, ∀ id ∈ wave, id < g.size) :
    T g (p.runWaves registry config g summary waves).1 := by
  induction waves generalizing g summary with
  | nil => exact h.refl g
  | cons wave rest ih =>
    have hfirst := hinside wave List.mem_cons_self
    have hwave := h.runWave g hfirst
    have hext := (staysWithin_extends p registry config).runWave g hfirst
    unfold Phase.runWaves
    split
    next g' fault hr =>
      rw [hr] at hwave
      exact hwave
    next g' outcomes hr =>
      rw [hr] at hwave hext
      refine h.trans hwave (ih g' _ fun later hlater id hid => ?_)
      rw [hext.size]
      exact hinside later (List.mem_cons_of_mem wave hlater) id hid

/-- **However a phase ends**, it stays within a relation within which its commits,
its barrier and the spread of failures stay. -/
theorem run (h : p.StaysWithin registry config T)
    (hbarrier : ∀ s, T s.graph (p.barrier config s).1.graph)
    (hspread : ∀ g : Graph, T g g.propagateFailures.1) (s : RunState) :
    T s.graph (p.run registry config s).1.graph := by
  unfold Phase.run
  split
  next => exact h.refl s.graph
  next waves hw =>
    have hwaves := h.runWaves s.graph ⟨p.name, waves.length, 0, 0, 0, 0⟩ (lt_size_of_waves hw)
    split
    next g fault heq =>
      rw [heq] at hwaves
      exact hwaves
    next g counted heq =>
      rw [heq] at hwaves
      have hb := h.trans hwaves (hbarrier { s with graph := g })
      split
      next sb abort hbar =>
        rw [hbar] at hb
        exact hb
      next sb hbar =>
        rw [hbar] at hb
        exact h.trans hb (hspread sb.graph)

theorem passes {phases : List Phase} (hrefl : ∀ g, T g g)
    (h : ∀ p ∈ phases, p.StaysWithin registry config T)
    (hbarrier : ∀ p ∈ phases, ∀ s, T s.graph (p.barrier config s).1.graph)
    (hspread : ∀ g : Graph, T g g.propagateFailures.1)
    (hpasses : Passes registry config phases s g) : T s.graph g := by
  induction hpasses with
  | start => exact hrefl _
  | @wave p rest s earlier later summary hw =>
    exact (h p List.mem_cons_self).runWaves s.graph summary fun wave hwave =>
      lt_size_of_waves hw wave (List.mem_append_left later hwave)
  | @phase p rest s s' summary g hrun _ ih =>
    have hfirst := (h p List.mem_cons_self).run (hbarrier p List.mem_cons_self) hspread s
    rw [hrun] at hfirst
    exact (h p List.mem_cons_self).trans hfirst
      (ih (fun q hq => h q (List.mem_cons_of_mem p hq))
        (fun q hq => hbarrier q (List.mem_cons_of_mem p hq)))

theorem runAll {phases : List Phase} (hrefl : ∀ g, T g g)
    (h : ∀ p ∈ phases, p.StaysWithin registry config T)
    (hbarrier : ∀ p ∈ phases, ∀ s, T s.graph (p.barrier config s).1.graph)
    (hspread : ∀ g : Graph, T g g.propagateFailures.1) (s : RunState) :
    T s.graph (Phase.runAll registry config phases s).1.graph := by
  induction phases generalizing s with
  | nil => exact hrefl s.graph
  | cons p rest ih =>
    have hfirst := (h p List.mem_cons_self).run (hbarrier p List.mem_cons_self) hspread s
    cases hp : p.run registry config s with
    | mk s₁ result =>
      rw [hp] at hfirst
      cases result with
      | error abort => exact runAll_cons_of_error hp ▸ hfirst
      | ok summary =>
        rw [runAll_cons_of_ok hp]
        exact (h p List.mem_cons_self).trans hfirst
          (ih (fun q hq => h q (List.mem_cons_of_mem p hq))
            (fun q hq => hbarrier q (List.mem_cons_of_mem p hq)) s₁)

end Phase.StaysWithin

/-- Waves run in two portions. Only the graph is told: it does not depend on what
has been counted. -/
theorem Phase.extends_runWaves_append (p : Phase) (registry : Registry) (config : Config)
    {g : Graph} (summary summary' : PhaseSummary) {earlier later : List (List ModuleId)}
    (hinside : ∀ wave ∈ earlier ++ later, ∀ id ∈ wave, id < g.size) :
    Extends (p.runWaves registry config g summary earlier).1
      (p.runWaves registry config g summary' (earlier ++ later)).1 := by
  induction earlier generalizing g summary summary' with
  | nil => exact (staysWithin_extends p registry config).runWaves g summary' hinside
  | cons wave rest ih =>
    rw [List.cons_append] at hinside ⊢
    have hext := (staysWithin_extends p registry config).runWave g
      (hinside wave List.mem_cons_self)
    unfold Phase.runWaves
    cases hr : p.runWave registry config g wave with
    | mk g' result =>
      rw [hr] at hext
      cases result with
      | error fault => exact Extends.refl g'
      | ok outcomes =>
        refine ih _ _ fun other hother id hid => ?_
        rw [hext.size]
        exact hinside other (List.mem_cons_of_mem wave hother) id hid

theorem Phase.extends_run (hbarrier : ∀ s, Extends s.graph (p.barrier config s).1.graph)
    {waves : List (List ModuleId)} (hw : s.graph.waves p.order = some waves)
    {summary' : PhaseSummary} (hrun : p.run registry config s = (s', .ok summary'))
    (summary : PhaseSummary) :
    Extends (p.runWaves registry config s.graph summary waves).1 s'.graph := by
  have hinside : ∀ wave ∈ waves ++ [], ∀ id ∈ wave, id < s.graph.size :=
    (List.append_nil waves).symm ▸ lt_size_of_waves hw
  obtain ⟨waves', g, counted, sb, hw', heq, hb, rfl, -⟩ := completed_of_run hrun
  obtain rfl : waves = waves' := Option.some.inj (hw.symm.trans hw')
  have hsame := extends_runWaves_append p registry config summary
    ⟨p.name, waves.length, 0, 0, 0, 0⟩ hinside
  rw [List.append_nil, heq] at hsame
  have hkept := hbarrier { s with graph := g }
  rw [hb] at hkept
  exact (hsame.trans hkept).trans (extends_propagateFailures sb.graph)

/-- **Runs only add.** What a graph of a completed run holds, the last one holds
as well. -/
theorem Phase.Passes.extends {phases : List Phase} {summaries : List PhaseSummary} {g : Graph}
    (hbarrier : ∀ p ∈ phases, ∀ s, Extends s.graph (p.barrier config s).1.graph)
    (h : Passes registry config phases s g)
    (hrun : Phase.runAll registry config phases s = (s', .ok summaries)) :
    Extends g s'.graph := by
  induction phases generalizing s summaries g with
  | nil =>
    cases h
    exact (Prod.mk.inj hrun).1 ▸ Extends.refl _
  | cons p rest ih =>
    obtain ⟨s₁, summary, later, hp, hr⟩ := runAll_cons_eq_ok hrun
    have hrest := fun q hq => hbarrier q (List.mem_cons_of_mem p hq)
    have hwaves : ∀ {waves} (counted : PhaseSummary), s.graph.waves p.order = some waves →
        Extends (p.runWaves registry config s.graph counted waves).1 s'.graph :=
      fun counted hw => (extends_run (hbarrier p List.mem_cons_self) hw hp counted).trans
        (ih hrest .start hr)
    cases h with
    | start =>
      obtain ⟨waves, _, _, _, hw, -⟩ := completed_of_run hp
      exact ((staysWithin_extends p registry config).runWaves _ summary
        (lt_size_of_waves hw)).trans (hwaves summary hw)
    | wave hw =>
      exact (extends_runWaves_append p registry config _ summary (lt_size_of_waves hw)).trans
        (hwaves summary hw)
    | phase hp' hpasses =>
      rw [hp] at hp'
      obtain rfl := (Prod.mk.inj hp').1
      exact ih hrest hpasses hr

end TargetGen
