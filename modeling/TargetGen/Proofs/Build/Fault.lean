import TargetGen.Build.Run
import TargetGen.Proofs.Build.Distribution
import TargetGen.Proofs.Build.Steps
import TargetGen.Proofs.Graph.Loading
import TargetGen.Proofs.Phase.History
import TargetGen.SourceTree.Listing

/-!
# Fault — a build reads what is there and publishes nothing twice

Two mistakes are possible when providers are handled: one is read before it is
there, or a kind is published again. Neither happens in a build, for two reasons.

Every kind of provider has its stage, and a phase publishes only kinds of its
own stage. Before a phase all kinds that are there are of earlier stages
(`Graph.KindsBelow`), a module is visited once, and a visit of one module does
not touch the providers of another: so whatever is published is new.

Decisions and queues are the only providers that have to be there. After the phase that
makes decisions, each sound module has one (`Graph.Decided`). A module that runs its
step is sound, and so are its direct dependencies; and a graph only grows. The barrier
of the queries reads the queues of modules that it found to have one
(`Build.batch_queued`), and what it publishes takes none of them away
(`Build.distribute_of_queued`).
-/

namespace TargetGen

open TargetGen.Graph

/-! ## Stages -/

/-- When a kind of provider is published: the phases of a build in order, with
the barrier of the queries between the last two. -/
def ProviderKind.stage : ProviderKind → Nat
  | discovery => 0
  | decision => 1
  | references | targets => 2
  | queries | status => 3
  | answers => 4
  | custom _ => 5

/-- All that modules have published is of the stages before `n`. -/
def Graph.KindsBelow (g : Graph) (n : Nat) : Prop :=
  ∀ id, ∀ kind ∈ g.kinds id, kind.stage < n

namespace Graph.KindsBelow

variable {g g' : Graph} {n : Nat} {id : ModuleId}

theorem mono {m : Nat} (h : g.KindsBelow n) (hle : n ≤ m) : g.KindsBelow m :=
  fun id kind hk => Nat.lt_of_lt_of_le (h id kind hk) hle

theorem of_fresh (h : g.Fresh) : g.KindsBelow n := by
  intro id kind hk
  rw [kinds, h.published] at hk
  cases hk

theorem propagateFailures (h : g.KindsBelow n) : g.propagateFailures.1.KindsBelow n := by
  intro id kind hk
  rw [kinds_propagateFailures] at hk
  exact h id kind hk

theorem commit {phase : String} {o : Outcome} (h : g.KindsBelow n) (hid : id < g.size)
    (hnew : ∀ p ∈ o.providers, p.kind.stage < n) (hc : (g.commit phase id o).2 = none) :
    (g.commit phase id o).1.KindsBelow n := by
  intro other kind hk
  by_cases hother : other = id
  · subst hother
    rw [kinds, published_commit hid hc, List.map_append, List.mem_append] at hk
    rcases hk with hold | hnew'
    · exact h other kind hold
    · simp only [List.map_map, List.mem_map, Function.comp_apply] at hnew'
      obtain ⟨p, hp, rfl⟩ := hnew'
      exact hnew p hp
  · rw [kinds, (extendsAt_commit g phase id o).node other hother] at hk
    exact h other kind hk

end Graph.KindsBelow

/-! ## Phases that keep to their stage -/

/-- What the steps of a phase publish is of one stage, and no kind of it twice. -/
def Phase.Emits (p : Phase) (registry : Registry) (config : Config) (n : Nat) : Prop :=
  ∀ g id output, p.step ⟨g, registry, config, id⟩ = .ok (.ok output) →
    (output.providers.map Provider.kind).Nodup ∧ ∀ q ∈ output.providers, q.kind.stage = n

/-- The steps of a phase meet with no fault, in whatever graph it comes to. -/
def Phase.Faultless (p : Phase) (registry : Registry) (config : Config) (start : Graph) : Prop :=
  ∀ g id fault, Extends start g → id < g.size → g.isFailed id = false →
    g.failedDependency id = none → p.step ⟨g, registry, config, id⟩ ≠ .error fault

section

variable {p : Phase} {registry : Registry} {config : Config} {start : Graph} {n : Nat}
  {waves : List (List ModuleId)} {s s' : RunState} {summary : PhaseSummary}

theorem Phase.Emits.outcome {g : Graph} {id : ModuleId} {o : Outcome}
    (hp : p.Emits registry config n) (ho : p.outcome ⟨g, registry, config, id⟩ = .ok o) :
    (o.providers.map Provider.kind).Nodup ∧ ∀ q ∈ o.providers, q.kind.stage = n := by
  match o, ho with
  | .ran (.ok output), ho => exact hp g id output (Phase.outcome_eq_ran ho).2.2
  | .ran (.error _), _ => simp [Outcome.providers]
  | .blocked _, _ => simp [Outcome.providers]
  | .alreadyFailed, _ => simp [Outcome.providers]

/-- **Visits publish what is new.** -/
theorem Phase.Emits.keeps (hp : p.Emits registry config n) (hstart : start.KindsBelow n)
    (hstep : p.Faultless registry config start) :
    p.Keeps registry config start waves (fun _ g => g.KindsBelow (n + 1)) (fun _ => False) where
  commit v _ hnow ho hc := by
    refine hnow.commit v.inside_now (fun q hq => ?_) hc
    rw [(hp.outcome ho).2 q hq]
    exact Nat.lt_succ_self n
  clash {seen done before now id o fault} v _ _ ho hc := by
    obtain ⟨hnodup, hstage⟩ := hp.outcome ho
    -- at its visit a module has the kinds with which the phase began
    have hfresh : ∀ q ∈ o.providers, q.kind ∉ now.kinds id := by
      intro q hq hold
      rw [v.visited_now.kinds v.fresh] at hold
      have hlt := hstart id q.kind hold
      rw [hstage q hq] at hlt
      exact Nat.lt_irrefl n hlt
    rw [commit_of_fresh p.name v.inside_now hnodup hfresh] at hc
    cases hc
  fault {seen before id fault} v _ ho := by
    obtain ⟨hsound, hdependencies, hfault⟩ := Phase.outcome_eq_error ho
    exact hstep before id fault v.visited_before.extends_start v.inside_now hsound hdependencies
      hfault

/-- A barrier that has nothing against a graph with kinds of the stages before
`n`, and leaves kinds of the stages before `m`. -/
def Phase.BarrierKeeps (p : Phase) (config : Config) (n m : Nat) : Prop :=
  ∀ s : RunState, s.graph.KindsBelow n →
    (∀ fault, (p.barrier config s).2 ≠ some (.fault fault)) ∧
      (p.barrier config s).1.graph.KindsBelow m

/-- **A phase ends in no fault** if its steps do not, they keep to their stage,
and the barrier has nothing against what is there then. -/
theorem Phase.Emits.run_ne_fault {m : Nat} (hp : p.Emits registry config n)
    (hs : s.graph.KindsBelow n) (hstep : p.Faultless registry config s.graph)
    (hbarrier : p.BarrierKeeps config (n + 1) m) (fault : Fault) :
    (p.run registry config s).2 ≠ .error (.fault fault) := by
  intro hrun
  have hbegin : s.graph.KindsBelow (n + 1) := hs.mono (Nat.le_succ n)
  rcases Phase.run_eq_fault (fun _ => hp.keeps hs hstep) hbegin hrun with hno | ⟨_, g, hdone, hb⟩
  · exact hno
  · exact (hbarrier { s with graph := g } hdone.kept).1 fault hb

theorem Phase.Emits.kindsBelow_done {g : Graph} (hp : p.Emits registry config n)
    (hs : start.KindsBelow n) (h : p.HistoryDone registry config start g) :
    g.KindsBelow (n + 1) := by
  intro id kind hk
  by_cases hid : id < start.size
  · obtain ⟨w, hw, hmem⟩ := h.exists_wave hid
    obtain ⟨o, hdealt⟩ := h.dealt w hw id hmem
    rw [hdealt.gained.kinds, List.mem_append] at hk
    rcases hk with hold | hnew
    · exact Nat.lt_succ_of_lt (hs id kind hold)
    · obtain ⟨q, hq, rfl⟩ := List.mem_map.mp hnew
      rw [(hp.outcome hdealt.outcome).2 q hq]
      exact Nat.lt_succ_self n
  · rw [kinds, node_of_size_le (h.extends_start.size ▸ Nat.le_of_not_lt hid)] at hk
    cases hk

/-- After a phase all kinds are of the stages that its steps and its barrier reach. -/
theorem Phase.Emits.kindsBelow_run {m : Nat} (hp : p.Emits registry config n)
    (hs : s.graph.KindsBelow n) (hbarrier : p.BarrierKeeps config (n + 1) m)
    (hrun : p.run registry config s = (s', .ok summary)) : s'.graph.KindsBelow m := by
  obtain ⟨g, sb, hdone, hb, rfl⟩ := Phase.historyDone_of_run hrun
  have hkinds := (hbarrier { s with graph := g } (hp.kindsBelow_done hs hdone)).2
  rw [hb] at hkinds
  exact hkinds.propagateFailures

theorem Phase.Emits.runAll_ne_fault {m : Nat} {rest : List Phase}
    (hp : p.Emits registry config n) (hs : s.graph.KindsBelow n)
    (hstep : p.Faultless registry config s.graph) (hbarrier : p.BarrierKeeps config (n + 1) m)
    {fault : Fault}
    (hrest : ∀ s' summary, p.run registry config s = (s', .ok summary) → s'.graph.KindsBelow m →
      (Phase.runAll registry config rest s').2 ≠ .error (.fault fault)) :
    (Phase.runAll registry config (p :: rest) s).2 ≠ .error (.fault fault) := by
  intro hrun
  rcases Phase.runAll_cons_eq_error hrun with hfault | ⟨s', summary, hfirst, hlater⟩
  · exact hp.run_ne_fault hs hstep hbarrier fault hfault
  · exact hrest s' summary hfirst (hp.kindsBelow_run hs hbarrier hfirst) hlater

end

/-! ## Decisions -/

/-- Every module that has not failed has its decision. -/
def Graph.Decided (g : Graph) : Prop :=
  ∀ id < g.size, g.isFailed id = false → .decision ∈ g.kinds id

theorem Graph.Decided.mono {g g' : Graph} (h : g.Decided) (hext : Extends g g') : g'.Decided := by
  intro id hid hsound
  have hkind := h id (hext.size ▸ hid) (hext.isFailed_eq_false hsound)
  exact ((hext.published id).map _).subset hkind

theorem Graph.Decided.provider {g : Graph} {id : ModuleId} (h : g.Decided) (hid : id < g.size)
    (hsound : g.isFailed id = false) : ∃ d, g.provider id .decision = .ok (.decision d) := by
  obtain ⟨p, hp⟩ := exists_provider?_of_mem_kinds (h id hid hsound)
  have hkind := kind_of_provider? hp
  cases p with
  | decision d => exact ⟨d, by rw [Graph.provider, hp]⟩
  | _ => cases hkind

namespace Build

variable {registry : Registry} {config : Config} {s s' : RunState} {summary : PhaseSummary}

theorem decisions_keeps {start : Graph} {waves : List (List ModuleId)} :
    decisions.Keeps registry config start waves
      (fun done g => ∀ id ∈ done, g.isFailed id = false → .decision ∈ g.kinds id)
      (fun _ => True) where
  commit {seen done before now id o} v _ hnow ho hc := by
    have hat := extendsAt_commit now decisions.name id o
    intro other hother hsound
    rw [List.mem_append, List.mem_singleton] at hother
    by_cases hid : other = id
    · subst hid
      rw [kinds, published_commit v.inside_now hc]
      -- the step always publishes a decision; without it there is an error
      rcases Phase.outcome_eq_ok ho with ⟨-, hfailed⟩ | ⟨dependency, rfl, -⟩ |
        ⟨result, rfl, -, -, hstep⟩
      · rw [hat.isFailed (v.extends_now.isFailed hfailed)] at hsound
        cases hsound
      · rw [Graph.isFailed, errors_commit v.inside_now] at hsound
        simp [Outcome.errors] at hsound
      · obtain rfl := Except.ok.inj hstep
        simp [Outcome.providers, StepOutput.publish, StepOutput.empty, Provider.kind]
    · rw [Graph.isFailed, Graph.errors, hat.node other hid] at hsound
      rw [kinds, hat.node other hid]
      exact hnow other (hother.resolve_right hid) hsound
  clash _ _ _ _ _ := trivial
  fault _ _ _ := trivial

/-- **After the phase of the decisions** every sound module has one. -/
theorem decided_run (hrun : decisions.run registry config s = (s', .ok summary)) :
    s'.graph.Decided := by
  have hbegin : ∀ id ∈ ([] : List ModuleId),
      s.graph.isFailed id = false → .decision ∈ s.graph.kinds id := by
    intro id hid
    cases hid
  obtain ⟨done, g, sb, hdone, hb, rfl⟩ :=
    Phase.run_eq_ok (fun _ => decisions_keeps) hbegin hrun
  obtain rfl : { s with graph := g } = sb := (Prod.mk.inj hb).1
  have hdecided : g.Decided := fun id hid =>
    hdone.kept id (hdone.mem (hdone.visited.extends_start.size ▸ hid))
  exact hdecided.mono (extends_propagateFailures g)

/-! ## What the steps publish -/

theorem emits_discovery : discovery.Emits registry config 0 := by
  intro g id output hstep
  rcases discover_eq_ok (Except.ok.inj hstep) with ⟨-, rfl⟩ | ⟨type, found, -, -, -, rfl⟩
  · simp [Provider.kind, ProviderKind.stage]
  · simp [Provider.kind, ProviderKind.stage]

theorem emits_decisions : decisions.Emits registry config 1 := by
  intro g id output hstep
  obtain rfl := Except.ok.inj (Except.ok.inj hstep)
  simp [StepOutput.publish, StepOutput.empty, Provider.kind, ProviderKind.stage]

theorem emits_conversions : conversions.Emits registry config 2 := by
  intro g id output hstep
  obtain ⟨d, -, ⟨-, rfl⟩ | ⟨targets, r, -, rfl⟩⟩ := convert_eq_ok hstep
  · simp [StepOutput.empty]
  · simp [converted, Provider.kind, ProviderKind.stage]

theorem emits_queries (executor : Executor) : (queries executor).Emits registry config 3 := by
  intro g id output hstep
  have hstep : ask ⟨g, registry, config, id⟩ = output := Except.ok.inj (Except.ok.inj hstep)
  rcases ask_cases ⟨g, registry, config, id⟩ with ⟨builder, -, -, hask⟩ | ⟨-, status, hask⟩
  · rw [← hstep, hask]
    simp [Provider.kind, ProviderKind.stage]
  · rw [← hstep, hask]
    simp [Provider.kind, ProviderKind.stage]

/-! ## Who keeps to the rules -/

end Build

/-- A conversion that reads no provider but decisions, whatever it is answered. -/
def Conversion.ReadsDecisions {α : Type} : Conversion α → Prop
  | done _ => True
  | expand _ _ next => ∀ found, (next found).ReadsDecisions
  | expandModules _ next => ∀ found, (next found).ReadsDecisions
  | readProvider _ kind next =>
    kind = .decision ∧ (next none).ReadsDecisions ∧
      ∀ d, (next (some (.decision d))).ReadsDecisions
  | readRecord next => ∀ record, (next record).ReadsDecisions

/-- A converter that reads no provider but decisions. -/
def Converter.ReadsDecisions (c : Converter) : Prop :=
  ∀ m config label, (c.convert m config label).ReadsDecisions

/-- A builder that publishes kinds of its own only, each of them once. -/
def MixedBuilder.PublishesOwn (b : MixedBuilder) : Prop :=
  ∀ inbox ps, b.consume inbox = .ok ps →
    (ps.map Provider.kind).Nodup ∧ ∀ p ∈ ps, ∃ name, p.kind = .custom name

/-- Converters read decisions only, and builders publish kinds of their own. -/
structure Registry.KeepsRules (r : Registry) : Prop where
  converter : ∀ m c, r.converter? m = some c → c.ReadsDecisions
  builder : ∀ m b, r.builder? m = some b → b.PublishesOwn

/-- **A conversion that reads decisions only** meets with no fault where direct
dependencies have theirs. -/
theorem Conversion.ReadsDecisions.run_ne_fault {α : Type} {v : Viewpoint} {c : Conversion α}
    (hc : c.ReadsDecisions) (hdecided : v.graph.Decided)
    (hsound : ∀ dep, v.graph.dependsOn v.id dep = true → v.graph.isFailed dep = false)
    (r : ReferenceRecord) (fault : Fault) : (c.run v r).1 ≠ .error fault := by
  induction c generalizing r with
  | done result =>
    intro h
    cases h
  | expand paths excludes next ih => exact ih _ (hc _) _
  | expandModules names next ih => exact ih _ (hc _) _
  | readRecord next ih => exact ih _ (hc _) _
  | readProvider name kind next ih =>
    obtain ⟨rfl, hnone, hsome⟩ := hc
    -- only a direct dependency is read, and the module would not run had one failed
    have hread : v.dependencyProvider name .decision = .ok none ∨
        ∃ d, v.dependencyProvider name .decision = .ok (some (.decision d)) := by
      unfold Viewpoint.dependencyProvider
      split
      next => exact .inl rfl
      next dep hdep =>
        by_cases hdirect : v.graph.dependsOn v.id dep = true
        · obtain ⟨d, hd⟩ := hdecided.provider (lookup_lt_size hdep) (hsound dep hdirect)
          exact .inr ⟨d, by simp [hdirect, hd, bind, Except.bind, pure, Except.pure]⟩
        · exact .inl (by simp [hdirect])
    unfold Conversion.run
    rcases hread with hread | ⟨d, hread⟩
    · rw [hread]
      exact ih none hnone r
    · rw [hread]
      exact ih (some (.decision d)) (hsome d) r

namespace Build

variable {registry : Registry} {config : Config} {s s' : RunState} {summary : PhaseSummary}

theorem emits_consumption (h : registry.KeepsRules) :
    consumption.Emits registry config 5 := by
  intro g id output hstep
  rcases consume_eq_ok (Except.ok.inj hstep) with rfl | ⟨b, inbox, ps, hb, hps, rfl⟩
  · simp [StepOutput.empty]
  · obtain ⟨hnodup, hown⟩ := h.builder _ b hb inbox ps hps
    refine ⟨hnodup, fun q hq => ?_⟩
    obtain ⟨name, hkind⟩ := hown q hq
    rw [hkind]
    rfl

/-- **Conversions meet with no fault** in a graph in which all is decided. -/
theorem faultless_conversions (h : registry.KeepsRules) {start : Graph} (hstart : start.Decided) :
    conversions.Faultless registry config start := by
  intro g id fault hext hid hsound hdependencies hfault
  have hdecided := hstart.mono hext
  obtain ⟨d, hd⟩ := hdecided.provider hid hsound
  have hfault : convert ⟨g, registry, config, id⟩ = .error fault := hfault
  rcases bind_eq_error hfault with hno | ⟨provider, -, hfault⟩
  · rw [hd] at hno
    cases hno
  · split at hfault
    next =>
      split at hfault
      next => cases hfault
      next c hc =>
        rcases bind_eq_error hfault with hrun | ⟨result, -, hfault⟩
        · exact (h.converter _ c hc _ _ _).run_ne_fault hdecided
            (fun dep => failedDependency_eq_none hdependencies) ReferenceRecord.empty fault hrun
        · cases result with
          | error e => cases hfault
          | ok targets =>
            dsimp only at hfault
            split at hfault <;> cases hfault
    next => cases hfault

/-- The steps of the other phases only compute. -/
theorem faultless_of_total {p : Phase} {start : Graph} (h : ∀ v fault, p.step v ≠ .error fault) :
    p.Faultless registry config start :=
  fun _ _ fault _ _ _ _ => h _ fault

/-! ## Barriers -/

theorem noBarrier_keeps {p : Phase} {n : Nat} (h : p.barrier = Phase.noBarrier) :
    p.BarrierKeeps config n n := by
  intro s hs
  rw [h]
  exact ⟨fun _ hno => (by cases hno), hs⟩

/-- The queues that the barrier reads are there, and the answers are handed out without
fault where no module has them yet. -/
theorem queries_barrierKeeps (executor : Executor) :
    (queries executor).BarrierKeeps config 4 5 := by
  intro s hs
  have hlater : s.graph.KindsBelow 5 := hs.mono (Nat.le_succ 4)
  -- answers are of the stage that is next, so no module has them yet
  have hfresh : ∀ id, .answers ∉ s.graph.kinds id := fun id hk =>
    Nat.lt_irrefl 4 (hs id .answers hk)
  show (∀ fault, (answerAll executor s).2 ≠ some (.fault fault)) ∧
    (answerAll executor s).1.graph.KindsBelow 5
  rcases answerAll_cases executor s with h | ⟨e, h⟩ | ⟨answers, h⟩
  · rw [h]
    exact ⟨fun _ hno => (by cases hno), hlater⟩
  · rw [h]
    exact ⟨fun _ hno => by simp at hno, hlater⟩
  · rw [h, distribute_queued hfresh]
    refine ⟨fun _ hno => (by cases hno), fun id kind hk => ?_⟩
    rcases kinds_distribute hk with hold | rfl
    · exact hlater id kind hold
    · exact Nat.lt_succ_self 4

/-! ## Whole builds -/

/-- The phases of a build end in no fault. What there is after each of them is
what the next one starts from. -/
theorem runAll_phases_ne_fault (h : registry.KeepsRules) (config : Config) (executor : Executor)
    {g : Graph} (hfresh : g.Fresh) (fault : Fault) :
    (Phase.runAll registry config (phases executor) (RunState.ofGraph g)).2 ≠
      .error (.fault fault) := by
  refine emits_discovery.runAll_ne_fault (.of_fresh hfresh)
    (faultless_of_total fun _ _ hno => by cases hno) (noBarrier_keeps rfl)
    fun s₁ _ _ hkinds₁ => ?_
  refine emits_decisions.runAll_ne_fault hkinds₁
    (faultless_of_total fun _ _ hno => by cases hno) (noBarrier_keeps rfl)
    fun s₂ _ hdecisions hkinds₂ => ?_
  refine emits_conversions.runAll_ne_fault hkinds₂
    (faultless_conversions h (decided_run hdecisions)) (noBarrier_keeps rfl)
    fun s₃ _ _ hkinds₃ => ?_
  refine (emits_queries executor).runAll_ne_fault hkinds₃
    (faultless_of_total fun _ _ hno => by cases hno) (queries_barrierKeeps executor)
    fun s₄ _ _ hkinds₄ => ?_
  refine (emits_consumption h).runAll_ne_fault hkinds₄
    (faultless_of_total fun _ _ hno => by cases hno) (noBarrier_keeps rfl)
    fun s₅ _ _ _ hno => ?_
  cases hno

/-- **No build ends in a fault**: whatever modules fail, are blocked or are
skipped, providers are there when they are read, and none is published twice. -/
theorem no_fault_of_keepsRules (h : registry.KeepsRules) (config : Config) (executor : Executor)
    (modules : List Module) (fault : Fault) :
    run registry config executor modules ≠ .error (.fault fault) := by
  intro hrun
  unfold run at hrun
  split at hrun
  next => cases hrun
  next g hg =>
    apply runAll_phases_ne_fault h config executor (fresh_ofModules hg) fault
    unfold runOn at hrun
    cases hall : (Phase.runAll registry config (phases executor) (RunState.ofGraph g)).2 with
    | ok summaries => simp [hall, Except.map] at hrun
    | error abort => simpa [hall, Except.map] using hrun

/-! A build whose converter reads what was decided about a dependency, and whose
builder publishes a kind of its own. -/

def courteousTypes : Registry :=
  Registry.empty.register "lib"
    ⟨.mixed
        ⟨fun _ _ _ => .readProvider "base" .decision fun _ => .done (.ok []), fun _ => false⟩
        ⟨fun _ _ => true, fun _ _ => [], fun _ => .ok [.custom "flags" "-O2"]⟩,
      DependencyProperty.standard⟩

theorem courteousTypes_keepRules : courteousTypes.KeepsRules where
  converter m c hc := by
    obtain rfl := Option.some.inj (Registry.converter?_register_empty hc)
    intro _ _ _
    exact ⟨rfl, trivial, fun _ => trivial⟩
  builder m b hb := by
    obtain rfl := Option.some.inj (Registry.builder?_register_empty hb)
    intro inbox ps hps
    obtain rfl := Except.ok.inj hps
    simp [Provider.kind]

theorem courteous_run_has_no_fault :
    run courteousTypes (Config.ofTree Listing.empty.sourceTree) Executor.none
      [(Module.plain "app" "lib" "").withProp "deps" (.list ["base"]),
        Module.plain "base" "lib" ""] ≠ .error (.fault (.unpublished "base" .decision)) :=
  no_fault_of_keepsRules courteousTypes_keepRules _ _ _ _

end Build

end TargetGen
