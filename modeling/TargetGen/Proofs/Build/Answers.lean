import TargetGen.Proofs.Build.Fault
import TargetGen.Proofs.External
import TargetGen.Proofs.Phase.Order

/-!
# Answers — what the executor is asked, and who reads its answers

The phase of the queries sees one graph only, the one that the conversions left:
`Build.Queues` says on this graph what a module asks. What its step publishes is
just that (`mem_queriesOf_iff`), so the barrier makes the batch of it, and each
module is handed the part of the answers that belongs to its own queries.

Nothing comes between: spreading failures touches no provider, and at its visit
in the phase of the consumption a module still has what it had as the phase
began (`Phase.node_of_history`). Its inbox rebuilds the query of a question from
the same label and platform as its queue did.
-/

namespace TargetGen

open TargetGen.Graph

/-- The query that a question of a module stands for. -/
def Viewpoint.query (v : Viewpoint) (question : Question) : Query :=
  question.query v.label.address v.config.platform

namespace Build

variable {registry : Registry} {config : Config} {executor : Executor} {g start : Graph}
  {id : ModuleId} {q : Query} {s s' : RunState}

/-! ## Who asks what -/

/-- A module asks a query when the phase of the queries finds the graph of `v`: it
and its direct dependencies are sound, it is to run externally, and a question
of its builder stands for the query. -/
structure Queues (v : Viewpoint) (q : Query) : Prop where
  inside : v.id < v.graph.size
  sound : v.graph.isFailed v.id = false
  dependencies : ∀ dep, v.graph.dependsOn v.id dep = true → v.graph.isFailed dep = false
  asks : ∃ builder, v.registry.builder? v.module = some builder ∧
    v.module.mixedStatus (some builder.supported) (v.graph.decidedToConvert v.id) v.config =
      .enabled ∧
    ∃ question ∈ builder.questions v.module v.label, q = v.query question

theorem Queues.enabled {v : Viewpoint} (h : Queues v q) :
    v.config.mixedBuilds = true ∧ v.config.platform.os ≠ MixedStatus.excludedOs := by
  obtain ⟨builder, -, hstatus, -⟩ := h.asks
  unfold Module.mixedStatus at hstatus
  split at hstatus
  next => cases hstatus
  next hon => simpa using hon

/-- The phase of the queries sees only the graph on which it begins. -/
theorem before_of_mem_queries {w : StartedWave}
    (hw : w ∈ (queries executor).history registry config g) : w.before = g := by
  have hwaves : g.waves (queries executor).order =
      some (if g.nodes.isEmpty then [] else [g.ids]) := rfl
  refine Phase.before_of_one_wave hwaves ?_ hw
  split <;> simp

/-- **What a module has queued** when the waves of the queries are done is what it asks. -/
theorem mem_queriesOf_iff (hkinds : start.KindsBelow 3)
    (hdone : (queries executor).HistoryDone registry config start g) (hid : id < start.size) :
    q ∈ (queriesOf g id).getD [] ↔ Queues ⟨start, registry, config, id⟩ q := by
  obtain ⟨w, hw, hmem⟩ := hdone.exists_wave hid
  obtain ⟨o, hdealt⟩ := hdone.dealt w hw id hmem
  have houtcome := hdealt.outcome
  rw [before_of_mem_queries hw] at houtcome
  -- without a query among the providers that are new, there is none at all
  have hnone : .queries ∉ o.providers.map Provider.kind → queriesOf g id = none := by
    intro hno
    apply queriesOf_of_notMem
    rw [hdealt.gained.kinds, List.mem_append, not_or]
    exact ⟨fun hold => Nat.lt_irrefl 3 (hkinds id .queries hold), hno⟩
  rcases Phase.outcome_eq_ok houtcome with ⟨rfl, hfailed⟩ | ⟨dep, rfl, -, hdep⟩ |
    ⟨result, rfl, hsound, hdependencies, hstep⟩
  · rw [hnone (by simp [Outcome.providers])]
    refine ⟨fun h => (by cases h), fun h => ?_⟩
    have hsound : start.isFailed id = false := h.sound
    rw [show start.isFailed id = true from hfailed] at hsound
    cases hsound
  · rw [hnone (by simp [Outcome.providers])]
    refine ⟨fun h => (by cases h), fun h => ?_⟩
    obtain ⟨-, hdirect, hfailed⟩ := failedDependency_eq_some hdep
    have hsound : start.isFailed dep = false := h.dependencies dep hdirect
    rw [show start.isFailed dep = true from hfailed] at hsound
    cases hsound
  · obtain rfl := Except.ok.inj hstep
    rcases ask_cases ⟨start, registry, config, id⟩ with
      ⟨builder, hb, hstatus, hask⟩ | ⟨hnot, status, hask⟩
    · have hfound : g.provider? id .queries = some (.queries (builder.queries
          (start.module id) (start.labelFor id) config)) :=
        hdealt.gained.provider (.queries _)
          (by rw [Outcome.providers, hask]; exact List.mem_cons_self)
      rw [queriesOf, hfound]
      show q ∈ builder.queries (start.module id) (start.labelFor id) config ↔ _
      rw [MixedBuilder.mem_queries]
      constructor
      · intro hquestion
        exact ⟨hid, hsound, fun other => failedDependency_eq_none hdependencies, builder, hb,
          hstatus, hquestion⟩
      · intro h
        obtain ⟨other, hother, -, hquestion⟩ := h.asks
        obtain rfl := Option.some.inj (hb.symm.trans hother)
        exact hquestion
    · rw [hnone (by simp [Outcome.providers, hask, Provider.kind])]
      refine ⟨fun h => (by cases h), fun h => ?_⟩
      obtain ⟨builder, hb, hstatus, -⟩ := h.asks
      exact absurd hstatus (hnot builder hb)

/-! ## The batch -/

/-- The batch holds what modules ask, each query once and in order. -/
structure IsBatch (registry : Registry) (config : Config) (g : Graph) (batch : List Query) :
    Prop where
  increasing : Ordered.Increasing Query.compare batch
  mem_iff : ∀ q, q ∈ batch ↔ ∃ id, Queues ⟨g, registry, config, id⟩ q

theorem isBatch_asked (hkinds : start.KindsBelow 3)
    (hdone : (queries executor).HistoryDone registry config start g) :
    IsBatch registry config start (asked g) where
  increasing := Query.increasing_batch _
  mem_iff q := by
    rw [mem_asked_iff]
    refine exists_congr fun id => ?_
    by_cases hid : id < start.size
    · exact mem_queriesOf_iff hkinds hdone hid
    · have hnone : .queries ∉ g.kinds id := by
        rw [kinds, node_of_size_le (hdone.extends_start.size ▸ Nat.le_of_not_lt hid)]
        exact List.not_mem_nil
      rw [queriesOf_of_notMem hnone]
      exact ⟨fun hq => (by cases hq), fun hqueues => absurd hqueues.inside hid⟩

theorem answerAll_of_ok {answers : Answers} (hkinds : s.graph.KindsBelow 4)
    (hne : asked s.graph ≠ []) (h : executor (asked s.graph) = .ok answers) :
    answerAll executor s =
      (⟨(distribute queriesName answers s.graph (queued s.graph)).1,
        s.batches ++ [asked s.graph]⟩, none) := by
  have hnone : (distribute queriesName answers s.graph (queued s.graph)).2 = none :=
    distribute_queued fun id hk => Nat.lt_irrefl 4 (hkinds id .answers hk)
  rw [answerAll_of_answers hne h, hnone, Option.map_none]

/-- What a run of the phase of the queries comes to, with the graph `g` that there
is when its waves are done. -/
structure QueriesRun (registry : Registry) (config : Config) (executor : Executor)
    (s : RunState) (g : Graph) : Prop where
  done : (queries executor).HistoryDone registry config s.graph g
  kinds : g.KindsBelow 4
  silent : asked g = [] → ∃ summary, (queries executor).run registry config s =
    (⟨g.propagateFailures.1, s.batches⟩, .ok summary)
  refused : ∀ e, asked g ≠ [] → executor (asked g) = .error e →
    (queries executor).run registry config s =
      (⟨g, s.batches ++ [asked g]⟩, .error (.graph (.executor e)))
  answered : ∀ answers, asked g ≠ [] → executor (asked g) = .ok answers →
    ∃ summary, (queries executor).run registry config s =
      (⟨(distribute queriesName answers g (queued g)).1.propagateFailures.1,
        s.batches ++ [asked g]⟩, .ok summary)

/-- **The phase of the queries always comes to its barrier**, and how it ends
depends on the executor alone. -/
theorem queriesRun (executor : Executor) (hkinds : s.graph.KindsBelow 3) :
    ∃ g, QueriesRun registry config executor s g := by
  have hp : (queries executor).Emits registry config 3 := emits_queries executor
  have hfault : ∀ fault, ((queries executor).run registry config s).2 ≠ .error (.fault fault) :=
    hp.run_ne_fault hkinds (faultless_of_total fun _ _ hno => by cases hno)
      (queries_barrierKeeps executor)
  have hwaves : s.graph.waves (queries executor).order ≠ none := Option.some_ne_none _
  obtain ⟨g, counted, hdone, hrun⟩ := Phase.run_eq_finish hwaves hfault
  have hbelow : g.KindsBelow 4 := hp.kindsBelow_done hkinds hdone
  have hfinish : ∀ sb abort?, answerAll executor { s with graph := g } = (sb, abort?) →
      (queries executor).run registry config s =
        match abort? with
        | some abort => (sb, .error abort)
        | none => ({ sb with graph := sb.graph.propagateFailures.1 },
            .ok { counted with propagated := sb.graph.propagateFailures.2 }) := by
    intro sb abort? hb
    have hbarrier : (queries executor).barrier config { s with graph := g } = (sb, abort?) := hb
    rw [hrun, Phase.finish, hbarrier]
    cases abort? <;> rfl
  refine ⟨g, hdone, hbelow, fun hnil => ?_, fun e hne he => ?_, fun answers hne ha => ?_⟩
  · exact ⟨_, hfinish _ _ (answerAll_of_nil hnil)⟩
  · exact hfinish _ _ (answerAll_of_error hne he)
  · exact ⟨_, hfinish _ _ (answerAll_of_ok hbelow hne ha)⟩

/-! ## What is read -/

theorem read_inbox (v : Viewpoint) (question : Question) :
    (inbox v).read question =
      match (answersOf v.graph v.id).get? (v.query question) with
      | some answer => .ok answer
      | none => .error (.mixedBuild ("no answer for " ++ (v.query question).text)) :=
  Inbox.read_eq (inbox v) question

/-- **Who reads what.** A module reads just the answers to the queries that it asks. -/
theorem read_eq_ok_iff {answers : Answers} {w : StartedWave} {question : Question}
    {answer : String} (hkinds : start.KindsBelow 3) (hbelow : g.KindsBelow 4)
    (hdone : (queries executor).HistoryDone registry config start g)
    (hw : w ∈ consumption.history registry config
      (distribute queriesName answers g (queued g)).1.propagateFailures.1)
    (hid : id ∈ w.modules) :
    (inbox ⟨w.before, registry, config, id⟩).read question = .ok answer ↔
      Queues ⟨start, registry, config, id⟩
        (Viewpoint.query ⟨w.before, registry, config, id⟩ question) ∧
      answers.get? (Viewpoint.query ⟨w.before, registry, config, id⟩ question) =
        some answer := by
  have hsize : id < g.size := by
    have hlt := Phase.lt_size_of_history hw hid
    rwa [size_propagateFailures, (publishes_distribute ..).size] at hlt
  -- from the barrier to its visit a module keeps the answers that it was given
  have hnode : w.before.node id =
      (distribute queriesName answers g (queued g)).1.propagateFailures.1.node id := by
    obtain ⟨earlier, later, hsplit⟩ := List.append_of_mem hw
    exact Phase.node_of_history hsplit hid
  have hanswers : answersOf w.before id = answers.restrict ((queriesOf g id).getD []) := by
    rw [answersOf_congr (congrArg Node.store hnode),
      answersOf_congr (store_propagateFailures _ id)]
    exact answersOf_distribute_queued fun id hk => Nat.lt_irrefl 4 (hbelow id .answers hk)
  rw [← mem_queriesOf_iff hkinds hdone (hdone.extends_start.size ▸ hsize),
    ← Answers.get?_restrict_eq_some, ← hanswers, read_inbox]
  cases (answersOf w.before id).get?
      (Viewpoint.query ⟨w.before, registry, config, id⟩ question) with
  | none => simp
  | some found => simp

theorem read_eq_error {v : Viewpoint} {question : Question} {e : ModuleError}
    (h : (inbox v).read question = .error e) :
    e = .mixedBuild ("no answer for " ++ (v.query question).text) := by
  rw [read_inbox] at h
  split at h
  next => cases h
  next => exact (Except.error.inj h).symm

/-! ## Whole builds -/

/-- The phases of a build up to the one that may ask the executor. -/
def untilConversions : List Phase := [discovery, decisions, conversions]

/-- The phase that may ask the executor, and the one in which answers are read. -/
def afterConversions (executor : Executor) : List Phase := [queries executor, consumption]

theorem phases_eq (executor : Executor) :
    phases executor = untilConversions ++ afterConversions executor := rfl

theorem noBarrier_of_mem_untilConversions {p : Phase} (h : p ∈ untilConversions) :
    p.barrier = Phase.noBarrier := by
  simp only [untilConversions, List.mem_cons, List.not_mem_nil, or_false] at h
  rcases h with rfl | rfl | rfl <;> rfl

theorem kindsBelow_untilConversions {summaries : List PhaseSummary} (hfresh : g.Fresh)
    (h : Phase.runAll registry config untilConversions (RunState.ofGraph g) =
      (s, .ok summaries)) : s.graph.KindsBelow 3 := by
  obtain ⟨s₁, _, _, hdiscovery, h⟩ := Phase.runAll_cons_eq_ok h
  obtain ⟨s₂, _, _, hdecisions, h⟩ := Phase.runAll_cons_eq_ok h
  obtain ⟨s₃, _, _, hconversions, h⟩ := Phase.runAll_cons_eq_ok h
  obtain rfl := (Prod.mk.inj h).1
  have hkinds₁ : s₁.graph.KindsBelow 1 :=
    emits_discovery.kindsBelow_run (.of_fresh hfresh) (noBarrier_keeps rfl) hdiscovery
  have hkinds₂ : s₂.graph.KindsBelow 2 :=
    emits_decisions.kindsBelow_run hkinds₁ (noBarrier_keeps rfl) hdecisions
  exact emits_conversions.kindsBelow_run hkinds₂ (noBarrier_keeps rfl) hconversions

@[simp] theorem batches_untilConversions (registry : Registry) (config : Config) (g : Graph) :
    (Phase.runAll registry config untilConversions (RunState.ofGraph g)).1.batches = [] :=
  Phase.batches_runAll fun _ => noBarrier_of_mem_untilConversions

theorem runOn_of_abort {abort : Abort}
    (h : Phase.runAll registry config untilConversions (RunState.ofGraph g) =
      (s, .error abort)) : runOn registry config executor g = (s, .error abort) := by
  have hall : Phase.runAll registry config (phases executor) (RunState.ofGraph g) =
      (s, .error abort) := Phase.runAll_append_of_error h
  rw [runOn, hall]
  rfl

theorem runOn_of_ok {summaries : List PhaseSummary} {ended : Except Abort (List PhaseSummary)}
    (h : Phase.runAll registry config untilConversions (RunState.ofGraph g) =
      (s, .ok summaries))
    (hlater : Phase.runAll registry config (afterConversions executor) s = (s', ended)) :
    runOn registry config executor g =
      (s', (ended.map (summaries ++ ·)).map (BuildReport.ofGraph s'.graph)) := by
  have hall : Phase.runAll registry config (phases executor) (RunState.ofGraph g) =
      (s', ended.map (summaries ++ ·)) := by
    rw [phases_eq, Phase.runAll_append_of_ok h, hlater]
  rw [runOn, hall]

@[simp] theorem batches_consumption (registry : Registry) (config : Config) (s : RunState) :
    (Phase.runAll registry config [consumption] s).1.batches = s.batches :=
  Phase.batches_runAll fun _ hp => List.mem_singleton.mp hp ▸ rfl

theorem QueriesRun.batches_eq (h : QueriesRun registry config executor s g) :
    (Phase.runAll registry config (afterConversions executor) s).1.batches =
      if asked g = [] then s.batches else s.batches ++ [asked g] := by
  split
  next hnil =>
    obtain ⟨summary, hrun⟩ := h.silent hnil
    rw [afterConversions, Phase.runAll_cons_of_ok hrun, batches_consumption]
  next hne =>
    cases hanswer : executor (asked g) with
    | error e => rw [afterConversions, Phase.runAll_cons_of_error (h.refused e hne hanswer)]
    | ok answers =>
      obtain ⟨summary, hrun⟩ := h.answered answers hne hanswer
      rw [afterConversions, Phase.runAll_cons_of_ok hrun, batches_consumption]

theorem batches_of_abort {s₃ : RunState} {abort : Abort} {result : Except Abort BuildReport}
    (h : Phase.runAll registry config untilConversions (RunState.ofGraph g) =
      (s₃, .error abort)) (hrun : runOn registry config executor g = (s, result)) :
    s.batches = [] := by
  obtain ⟨rfl, -⟩ := Prod.mk.inj ((runOn_of_abort h).symm.trans hrun)
  have hnone := batches_untilConversions registry config g
  rwa [h] at hnone

theorem exists_queriesRun {s₃ : RunState} {summaries : List PhaseSummary}
    {result : Except Abort BuildReport} (hkinds : s₃.graph.KindsBelow 3)
    (h : Phase.runAll registry config untilConversions (RunState.ofGraph g) =
      (s₃, .ok summaries)) (hrun : runOn registry config executor g = (s, result)) :
    ∃ g₄, QueriesRun registry config executor s₃ g₄ ∧
      IsBatch registry config s₃.graph (asked g₄) ∧
      s.batches = if asked g₄ = [] then [] else [asked g₄] := by
  obtain ⟨g₄, hqueries⟩ : ∃ g₄, QueriesRun registry config executor s₃ g₄ :=
    queriesRun executor hkinds
  refine ⟨g₄, hqueries, isBatch_asked hkinds hqueries.done, ?_⟩
  have hstate : s = (Phase.runAll registry config (afterConversions executor) s₃).1 :=
    (Prod.mk.inj (hrun.symm.trans (runOn_of_ok h rfl))).1
  have hnone := batches_untilConversions registry config g
  rw [h] at hnone
  rw [hstate, hqueries.batches_eq, show s₃.batches = [] from hnone, List.nil_append]

theorem batches_of_silence {s₃ : RunState} {summaries : List PhaseSummary}
    {result : Except Abort BuildReport} (hkinds : s₃.graph.KindsBelow 3)
    (h : Phase.runAll registry config untilConversions (RunState.ofGraph g) =
      (s₃, .ok summaries)) (hrun : runOn registry config executor g = (s, result))
    (hno : ∀ id q, ¬ Queues ⟨s₃.graph, registry, config, id⟩ q) : s.batches = [] := by
  obtain ⟨g₄, -, hbatch, hbatches⟩ := exists_queriesRun hkinds h hrun
  have hnil : asked g₄ = [] := by
    rw [List.eq_nil_iff_forall_not_mem]
    intro q hq
    obtain ⟨id, hqueues⟩ := (hbatch.mem_iff q).mp hq
    exact hno id q hqueues
  rw [hbatches, if_pos hnil]

theorem QueriesRun.runOn_of_error {g₄ : Graph} {s₃ : RunState} {summaries : List PhaseSummary}
    {result : Except Abort BuildReport} {e : ExecutorError}
    (hqueries : QueriesRun registry config executor s₃ g₄) (hne : asked g₄ ≠ [])
    (he : executor (asked g₄) = .error e)
    (h : Phase.runAll registry config untilConversions (RunState.ofGraph g) =
      (s₃, .ok summaries)) (hrun : runOn registry config executor g = (s, result)) :
    result = .error (.graph (.executor e)) ∧ ∀ id, s.graph.provider? id .answers = none := by
  have hlater : Phase.runAll registry config (afterConversions executor) s₃ =
      (⟨g₄, s₃.batches ++ [asked g₄]⟩, .error (.graph (.executor e))) :=
    Phase.runAll_cons_of_error (hqueries.refused e hne he)
  obtain ⟨rfl, rfl⟩ := Prod.mk.inj ((runOn_of_ok h hlater).symm.trans hrun)
  refine ⟨rfl, fun id => ?_⟩
  cases hp : g₄.provider? id .answers with
  | none => rfl
  | some p =>
    exact absurd (hqueries.kinds id .answers (mem_kinds_of_provider? hp)) (Nat.lt_irrefl 4)

/-- **What the executor is asked, and who reads its answers.** The executor is asked
at most once. It is asked nothing

* if a phase up to the conversions ends the run,
* if external execution is off or excluded by the platform,
* or if no module asks a query.

Otherwise it is asked one batch, which holds just what modules ask. If it fails,
the run ends with its error and no module has answers. If it answers, then in the
phase of the consumption the builder of a module with queries is handed its inbox, from
which it reads an answer to a question just when the module asked that query itself and
the executor answered it; all else is an error about it. -/
theorem asks_one_batch {modules : List Module} {result : Except Abort BuildReport}
    (hload : Graph.ofModules registry modules = .ok g)
    (hrun : runOn registry config executor g = (s, result)) :
    (∀ s₃ abort, Phase.runAll registry config untilConversions (RunState.ofGraph g) =
      (s₃, .error abort) → s.batches = []) ∧
    (config.mixedBuilds = false ∨ config.platform.os = MixedStatus.excludedOs →
      s.batches = []) ∧
    ∀ s₃ summaries, Phase.runAll registry config untilConversions (RunState.ofGraph g) =
        (s₃, .ok summaries) →
      ((∀ id q, ¬ Queues ⟨s₃.graph, registry, config, id⟩ q) → s.batches = []) ∧
      ∀ id q, Queues ⟨s₃.graph, registry, config, id⟩ q →
        ∃ batch, s.batches = [batch] ∧ IsBatch registry config s₃.graph batch ∧
          (∀ e, executor batch = .error e →
            result = .error (.graph (.executor e)) ∧
              ∀ id, s.graph.provider? id .answers = none) ∧
          ∀ answers, executor batch = .ok answers →
            ∃ s₄ summary, (queries executor).run registry config s₃ = (s₄, .ok summary) ∧
              ∀ w ∈ consumption.history registry config s₄.graph, ∀ id ∈ w.modules,
              (∀ builder, registry.builder? (w.before.module id) = some builder →
                (w.before.provider? id .queries).isSome = true →
                consume ⟨w.before, registry, config, id⟩ =
                  (builder.consume (inbox ⟨w.before, registry, config, id⟩)).map (⟨·, []⟩)) ∧
              ∀ question,
                (∀ answer,
                  (inbox ⟨w.before, registry, config, id⟩).read question = .ok answer ↔
                    Queues ⟨s₃.graph, registry, config, id⟩
                      (Viewpoint.query ⟨w.before, registry, config, id⟩ question) ∧
                    answers.get? (Viewpoint.query ⟨w.before, registry, config, id⟩ question) =
                      some answer) ∧
                ∀ e, (inbox ⟨w.before, registry, config, id⟩).read question = .error e →
                  e = .mixedBuild ("no answer for " ++
                    (Viewpoint.query ⟨w.before, registry, config, id⟩ question).text) := by
  have hkinds : ∀ {s₃ summaries},
      Phase.runAll registry config untilConversions (RunState.ofGraph g) =
        (s₃, .ok summaries) → s₃.graph.KindsBelow 3 :=
    fun h => kindsBelow_untilConversions (fresh_ofModules hload) h
  refine ⟨fun s₃ abort h => batches_of_abort h hrun, fun hoff => ?_, fun s₃ summaries h =>
    ⟨batches_of_silence (hkinds h) h hrun, fun id q hqueues => ?_⟩⟩
  · cases h : Phase.runAll registry config untilConversions (RunState.ofGraph g) with
    | mk s₃ ended =>
      cases ended with
      | error abort => exact batches_of_abort h hrun
      | ok summaries =>
        refine batches_of_silence (hkinds h) h hrun fun id q hqueues => ?_
        obtain ⟨hon, hos⟩ := hqueues.enabled
        rcases hoff with hoff | hoff
        · exact absurd (hoff.symm.trans hon) (by decide)
        · exact hos hoff
  · obtain ⟨g₄, hrunQueries, hbatch, hbatches⟩ := exists_queriesRun (hkinds h) h hrun
    have hne : asked g₄ ≠ [] := List.ne_nil_of_mem ((hbatch.mem_iff q).mpr ⟨id, hqueues⟩)
    rw [if_neg hne] at hbatches
    refine ⟨asked g₄, hbatches, hbatch, fun e he => ?_, fun answers hanswers => ?_⟩
    · exact hrunQueries.runOn_of_error hne he h hrun
    · obtain ⟨summary, hanswered⟩ := hrunQueries.answered answers hne hanswers
      refine ⟨_, summary, hanswered, fun w hw id hid =>
        ⟨fun builder hb hqueue => consume_of_queries hqueue hb, fun question =>
          ⟨fun answer => ?_, fun e => read_eq_error⟩⟩⟩
      exact read_eq_ok_iff (hkinds h) hrunQueries.kinds hrunQueries.done hw hid

/-! Two modules with labels of their own, each of which asks about `base`. -/

def curious : MixedBuilder where
  supported _ _ := true
  questions _ _ := [.about "//:base" .outputFiles]
  consume inbox := do return [.custom "seen" (← inbox.read (.about "//:base" .outputFiles))]

def curiousTypes : Registry :=
  Registry.empty.register "lib"
    ⟨.mixed ⟨fun _ _ _ => .done (.ok []), fun _ => false⟩ curious, DependencyProperty.standard⟩

def curiousConfig : Config where
  __ := Config.ofTree Listing.empty.sourceTree
  allowlist := (Allowlist.empty.allowMixed "app").allowMixed "base"
  mixedBuilds := true

def curiousModules : List Module :=
  [(Module.plain "app" "lib" "").withLabel "//:app",
   (Module.plain "base" "lib" "").withLabel "//:base"]

def curiousGraph : Graph := ((Graph.ofModules curiousTypes curiousModules).toOption).getD default

/-- The executor that answers each query with the label that it asks about. -/
def echo : Executor := fun batch => .ok ⟨batch.map fun q => (q, q.label)⟩

def curiousRun : RunState × Except Abort BuildReport :=
  runOn curiousTypes curiousConfig echo curiousGraph

def curiousConversions : RunState × Except Abort (List PhaseSummary) :=
  Phase.runAll curiousTypes curiousConfig untilConversions (RunState.ofGraph curiousGraph)

theorem curious_asks_one_batch :
    curiousRun.1.batches = [[⟨"//:base", Platform.default, .outputFiles⟩]] ∧
      IsBatch curiousTypes curiousConfig curiousConversions.1.graph
        [⟨"//:base", Platform.default, .outputFiles⟩] := by
  have hload : Graph.ofModules curiousTypes curiousModules = .ok curiousGraph := rfl
  have hrun : runOn curiousTypes curiousConfig echo curiousGraph =
      (curiousRun.1, curiousRun.2) := rfl
  have hconversions : Phase.runAll curiousTypes curiousConfig untilConversions
      (RunState.ofGraph curiousGraph) =
        (curiousConversions.1, .ok (curiousConversions.2.toOption.getD [])) := by
    decide +kernel
  have hedges : curiousConversions.1.graph.edges = [] := by decide +kernel
  have htype : (curiousConversions.1.graph.module 0).moduleType = "lib" := by decide +kernel
  have hbuilder : curiousTypes.builder? (curiousConversions.1.graph.module 0) = some curious := by
    rw [Registry.builder?, htype]
    rfl
  have hqueues : Queues ⟨curiousConversions.1.graph, curiousTypes, curiousConfig, 0⟩
      ⟨"//:base", Platform.default, .outputFiles⟩ := by
    refine ⟨by decide +kernel, by decide +kernel, fun dep hdep => ?_, curious, hbuilder,
      by decide +kernel, _, List.mem_cons_self, rfl⟩
    obtain ⟨tag, he⟩ := dependsOn_iff.mp hdep
    rw [hedges] at he
    cases he
  obtain ⟨batch, hbatch, hisBatch, -⟩ :=
    ((asks_one_batch hload hrun).2.2 _ _ hconversions).2 0 _ hqueues
  have hone : curiousRun.1.batches = [[⟨"//:base", Platform.default, .outputFiles⟩]] := by
    decide +kernel
  obtain rfl := (List.cons.inj (hone.symm.trans hbatch)).1
  exact ⟨hone, hisBatch⟩

end Build

end TargetGen
