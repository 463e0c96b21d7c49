import TargetGen.Build.Phases
import TargetGen.Proofs.External
import TargetGen.Proofs.Phase.Run

/-!
# Distribution — what the barrier of the queries does to the graph

The barrier reads the queues of the modules that have one, and relies on it that they
are there: once for the batch, in a graph that nothing has changed since the modules
were selected (`batch_queued`), and again while answers are handed out. Each module is
then given one more provider and keeps those that it has, so the queues that are still
to be read stay where they were, and there is no fault as long as no module has
answers yet (`distribute_of_queued`).

Nothing else changes. A barrier that only publishes takes nothing away from what the
visits of its phase have kept (`Phase.run_eq_ok_of_publishes`).
-/

namespace TargetGen

/-- Nothing but providers is added from one graph to the other. -/
structure Graph.Publishes (g g' : Graph) : Prop extends Graph.Extends g g' where
  edges_eq : g'.edges = g.edges
  errors_eq : ∀ id, g'.errors id = g.errors id

namespace Graph.Publishes

variable {g g' g'' : Graph}

theorem refl (g : Graph) : Publishes g g := ⟨Extends.refl g, rfl, fun _ => rfl⟩

theorem trans (h : Publishes g g') (h' : Publishes g' g'') : Publishes g g'' where
  toExtends := h.toExtends.trans h'.toExtends
  edges_eq := h'.edges_eq.trans h.edges_eq
  errors_eq id := (h'.errors_eq id).trans (h.errors_eq id)

theorem of_publish {id : ModuleId} {phase : String} {p : Provider}
    (h : g.publish id phase p = .ok g') : Publishes g g' :=
  ⟨(extendsAt_publish h).toExtends, edges_publish h, fun _ => errors_publish h⟩

end Graph.Publishes

/-- A phase that is completed, whose barrier only publishes: what its visits keep
holds of the graph that the barrier finds. -/
theorem Phase.run_eq_ok_of_publishes {p : Phase} {registry : Registry} {config : Config}
    {s s' : RunState} {summary : PhaseSummary} {P : Graph → Prop} {Q : Fault → Prop}
    (k : ∀ waves, p.Keeps registry config s.graph waves (fun _ => P) Q)
    (hbarrier : ∀ s, Graph.Publishes s.graph (p.barrier config s).1.graph) (h : P s.graph)
    (hrun : p.run registry config s = (s', .ok summary)) :
    ∃ (g : Graph) (sb : RunState), P g ∧ Graph.Publishes g sb.graph ∧
      s' = { sb with graph := sb.graph.propagateFailures.1 } := by
  obtain ⟨done, g, sb, hdone, hb, hs⟩ := Phase.run_eq_ok k h hrun
  have hpublishes := hbarrier { s with graph := g }
  rw [hb] at hpublishes
  exact ⟨g, sb, hdone.kept, hpublishes, hs⟩

namespace Build

open TargetGen.Graph

variable {g : Graph} {id : ModuleId} {phase : String} {answers : Answers}

/-! ## Queues -/

/-- The queries of a module, if it has any list of them. -/
def queriesOf (g : Graph) (id : ModuleId) : Option (List Query) :=
  match g.provider? id .queries with
  | some (.queries qs) => some qs
  | _ => none

theorem queueOf_eq_ok_iff {qs : List Query} : queueOf g id = .ok qs ↔ queriesOf g id = some qs := by
  unfold queueOf queriesOf Graph.provider
  cases hp : g.provider? id .queries with
  | none => simp [bind, Except.bind]
  | some p =>
    have hkind := kind_of_provider? hp
    cases p with
    | queries items => simp [bind, Except.bind, pure, Except.pure]
    | _ => cases hkind

theorem exists_queriesOf (h : .queries ∈ g.kinds id) : ∃ qs, queriesOf g id = some qs := by
  obtain ⟨p, hp⟩ := exists_provider?_of_mem_kinds h
  have hkind := kind_of_provider? hp
  cases p with
  | queries qs => exact ⟨qs, by rw [queriesOf, hp]⟩
  | _ => cases hkind

theorem queriesOf_of_notMem (h : .queries ∉ g.kinds id) : queriesOf g id = none := by
  cases hp : g.provider? id .queries with
  | none => simp [queriesOf, hp]
  | some p => exact absurd (mem_kinds_of_provider? hp) h

theorem queriesOf_congr {g' : Graph} (h : g'.node id = g.node id) :
    queriesOf g' id = queriesOf g id := by
  rw [queriesOf, Graph.provider?, h, queriesOf, Graph.provider?]

@[simp] theorem mem_queued_iff : id ∈ queued g ↔ .queries ∈ g.kinds id := by
  rw [queued, List.mem_filter, Option.isSome_iff_exists, mem_ids]
  constructor
  · rintro ⟨-, p, hp⟩
    exact mem_kinds_of_provider? hp
  · intro hkind
    refine ⟨Nat.lt_of_not_le fun hle => ?_, exists_provider?_of_mem_kinds hkind⟩
    rw [kinds, node_of_size_le hle] at hkind
    cases hkind

theorem nodup_queued (g : Graph) : (queued g).Nodup := g.nodup_ids.filter _

/-- The queries of all modules, in one batch. -/
def asked (g : Graph) : List Query :=
  Query.batch ((queued g).flatMap fun id => (queriesOf g id).getD [])

theorem mem_asked_iff {q : Query} : q ∈ asked g ↔ ∃ id, q ∈ (queriesOf g id).getD [] := by
  rw [asked, Query.mem_batch, List.mem_flatMap]
  constructor
  · rintro ⟨id, -, hq⟩
    exact ⟨id, hq⟩
  · rintro ⟨id, hq⟩
    refine ⟨id, mem_queued_iff.mpr (Classical.byContradiction fun hno => ?_), hq⟩
    rw [queriesOf_of_notMem hno] at hq
    cases hq

/-- **The batch is made without fault**: whoever is selected has its queries. -/
@[simp] theorem batch_queued (g : Graph) : batch g (queued g) = .ok (asked g) := by
  have hqueues : (queued g).mapM (queueOf g) =
      .ok ((queued g).map fun id => (queriesOf g id).getD []) := by
    rw [mapM_eq_ok_iff, List.forall₂_map_right_iff, List.forall₂_same]
    intro id hid
    obtain ⟨qs, hqs⟩ := exists_queriesOf (mem_queued_iff.mp hid)
    rw [queueOf_eq_ok_iff, hqs]
    rfl
  rw [batch, hqueues, asked, List.flatMap_def]
  rfl

/-! ## Handing out answers -/

theorem publishes_distribute (g : Graph) (phase : String) (answers : Answers)
    (ids : List ModuleId) : Publishes g (distribute phase answers g ids).1 := by
  induction ids generalizing g with
  | nil => exact Publishes.refl g
  | cons id rest ih =>
    unfold distribute
    split
    next => exact Publishes.refl g
    next qs _ =>
      split
      next g' hg' => exact (Publishes.of_publish hg').trans (ih g')
      next => exact Publishes.refl g

/-- **Answers are handed out without fault** to modules that have queries and no answers
yet: each of them is given its own, which leaves the others as they were. -/
theorem distribute_of_queued {ids : List ModuleId} (hnodup : ids.Nodup)
    (hqueued : ∀ id ∈ ids, .queries ∈ g.kinds id) (hfresh : ∀ id ∈ ids, .answers ∉ g.kinds id) :
    (distribute phase answers g ids).2 = none := by
  induction ids generalizing g with
  | nil => rfl
  | cons id rest ih =>
    obtain ⟨hid, hrest⟩ := List.nodup_cons.mp hnodup
    obtain ⟨qs, hqs⟩ := exists_queriesOf (hqueued id List.mem_cons_self)
    obtain ⟨g', hg'⟩ := publish_of_notMem (p := .answers (answers.restrict qs)) phase
      (hfresh id List.mem_cons_self)
    have hkinds : ∀ other ∈ rest, g'.kinds other = g.kinds other := by
      intro other h
      have hne : other ≠ id := fun e => hid (e ▸ h)
      rw [kinds, (extendsAt_publish hg').node other hne, kinds]
    rw [distribute, queueOf_eq_ok_iff.mpr hqs]
    dsimp only
    rw [hg']
    refine ih hrest (fun other h => ?_) (fun other h => ?_)
    · rw [hkinds other h]
      exact hqueued other (List.mem_cons_of_mem id h)
    · rw [hkinds other h]
      exact hfresh other (List.mem_cons_of_mem id h)

theorem distribute_queued (h : ∀ id, .answers ∉ g.kinds id) :
    (distribute phase answers g (queued g)).2 = none :=
  distribute_of_queued (nodup_queued g) (fun _ => mem_queued_iff.mp) fun id _ => h id

theorem kinds_distribute {ids : List ModuleId} {kind : ProviderKind}
    (h : kind ∈ (distribute phase answers g ids).1.kinds id) :
    kind ∈ g.kinds id ∨ kind = .answers := by
  induction ids generalizing g with
  | nil => exact .inl h
  | cons other rest ih =>
    unfold distribute at h
    split at h
    next => exact .inl h
    next qs _ =>
      split at h
      next g' hg' =>
        refine (ih h).elim (fun h => ?_) .inr
        by_cases hid : id = other ∧ other < g.size
        · obtain ⟨rfl, hid⟩ := hid
          rw [kinds_publish hid hg', List.mem_append, List.mem_singleton] at h
          exact h
        · obtain ⟨-, rfl⟩ := publish_eq_ok hg'
          rw [Graph.kinds, node_modifyNode, if_neg hid] at h
          exact .inl h
      next => exact .inl h

theorem node_distribute {ids : List ModuleId} (hid : id ∉ ids) :
    (distribute phase answers g ids).1.node id = g.node id := by
  induction ids generalizing g with
  | nil => rfl
  | cons other rest ih =>
    obtain ⟨hne, hrest⟩ := not_or.mp (mt List.mem_cons.mpr hid)
    unfold distribute
    split
    next => rfl
    next qs _ =>
      split
      next g' hg' => rw [ih hrest, (extendsAt_publish hg').node id hne]
      next => rfl

theorem answersOf_congr {g' : Graph} (h : (g'.node id).store = (g.node id).store) :
    answersOf g' id = answersOf g id := by
  rw [answersOf, Graph.provider?, h, answersOf, Graph.provider?]

theorem answersOf_of_notMem (h : .answers ∉ g.kinds id) : answersOf g id = Answers.empty := by
  cases hp : g.provider? id .answers with
  | none => simp [answersOf, hp]
  | some p => exact absurd (mem_kinds_of_provider? hp) h

theorem answersOf_distribute {ids : List ModuleId} (hnodup : ids.Nodup)
    (hinside : ∀ id ∈ ids, id < g.size) (h : (distribute phase answers g ids).2 = none) :
    ∀ id ∈ ids, answersOf (distribute phase answers g ids).1 id =
      answers.restrict ((queriesOf g id).getD []) := by
  induction ids generalizing g with
  | nil => simp
  | cons first rest ih =>
    obtain ⟨hfirst, hrest⟩ := List.nodup_cons.mp hnodup
    have hin := fun other ho => hinside other (List.mem_cons_of_mem first ho)
    intro id hid
    unfold distribute at h ⊢
    split at h
    next => cases h
    next qs hqs =>
      split at h
      next g' hg' =>
        have hat := extendsAt_publish hg'
        rcases List.mem_cons.mp hid with rfl | hid
        · rw [answersOf_congr (congrArg Node.store (node_distribute hfirst)),
            queueOf_eq_ok_iff.mp hqs, answersOf,
            show g'.provider? id .answers = some (.answers (answers.restrict qs)) from
              provider?_publish (hinside id List.mem_cons_self) hg']
          rfl
        · have hnode : g'.node id = g.node id := hat.node id fun heq => hfirst (heq ▸ hid)
          rw [ih hrest (fun other ho => hat.size ▸ hin other ho) h id hid, queriesOf_congr hnode]
      next => cases h

/-- **Each module is given the answers to its own queries**, and no others: where it has
no queries, none at all. -/
theorem answersOf_distribute_queued (h : ∀ id, .answers ∉ g.kinds id) :
    answersOf (distribute phase answers g (queued g)).1 id =
      answers.restrict ((queriesOf g id).getD []) := by
  by_cases hid : id ∈ queued g
  · refine answersOf_distribute (nodup_queued g) (fun other ho => ?_) (distribute_queued h) id hid
    exact mem_ids.mp (List.mem_filter.mp ho).1
  · rw [answersOf_congr (congrArg Node.store (node_distribute hid)), answersOf_of_notMem (h id),
      queriesOf_of_notMem (mt mem_queued_iff.mpr hid)]
    rfl

/-! ## The barrier -/

theorem answerAll_of_nil {executor : Executor} {s : RunState} (h : asked s.graph = []) :
    answerAll executor s = (s, none) := by
  simp only [answerAll, batch_queued, h]

theorem answerAll_of_error {executor : Executor} {s : RunState} {e : ExecutorError}
    (hne : asked s.graph ≠ []) (h : executor (asked s.graph) = .error e) :
    answerAll executor s =
      (⟨s.graph, s.batches ++ [asked s.graph]⟩, some (.graph (.executor e))) := by
  cases hasked : asked s.graph with
  | nil => exact absurd hasked hne
  | cons q rest =>
    rw [hasked] at h
    simp only [answerAll, batch_queued, hasked, h]

theorem answerAll_of_answers {executor : Executor} {s : RunState} (hne : asked s.graph ≠ [])
    (h : executor (asked s.graph) = .ok answers) :
    answerAll executor s =
      (⟨(distribute queriesName answers s.graph (queued s.graph)).1,
          s.batches ++ [asked s.graph]⟩,
        (distribute queriesName answers s.graph (queued s.graph)).2.map .fault) := by
  cases hasked : asked s.graph with
  | nil => exact absurd hasked hne
  | cons q rest =>
    rw [hasked] at h
    simp only [answerAll, batch_queued, hasked, h]

/-- **What answering comes to**: nothing is asked, or the executor fails, or it has
answers, which are handed out. -/
theorem answerAll_cases (executor : Executor) (s : RunState) :
    answerAll executor s = (s, none) ∨
    (∃ e, answerAll executor s =
      (⟨s.graph, s.batches ++ [asked s.graph]⟩, some (.graph (.executor e)))) ∨
    ∃ answers, answerAll executor s =
      (⟨(distribute queriesName answers s.graph (queued s.graph)).1,
          s.batches ++ [asked s.graph]⟩,
        (distribute queriesName answers s.graph (queued s.graph)).2.map .fault) := by
  by_cases hne : asked s.graph = []
  · exact .inl (answerAll_of_nil hne)
  · cases h : executor (asked s.graph) with
    | error e => exact .inr (.inl ⟨e, answerAll_of_error hne h⟩)
    | ok answers => exact .inr (.inr ⟨answers, answerAll_of_answers hne h⟩)

theorem publishes_answerAll (executor : Executor) (s : RunState) :
    Publishes s.graph (answerAll executor s).1.graph := by
  rcases answerAll_cases executor s with h | ⟨e, h⟩ | ⟨answers, h⟩
  · rw [h]
    exact Publishes.refl _
  · rw [h]
    exact Publishes.refl _
  · rw [h]
    exact publishes_distribute ..

theorem publishes_barrier {executor : Executor} {p : Phase} (hp : p ∈ phases executor)
    (config : Config) (s : RunState) : Publishes s.graph (p.barrier config s).1.graph := by
  simp only [phases, List.mem_cons, List.not_mem_nil, or_false] at hp
  rcases hp with rfl | rfl | rfl | rfl | rfl
  case inr.inr.inr.inl => exact publishes_answerAll executor s
  all_goals exact Publishes.refl _

end Build

end TargetGen
