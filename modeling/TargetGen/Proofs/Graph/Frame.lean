import Mathlib.Data.List.GetD
import Mathlib.Tactic.ByContra
import Mathlib.Tactic.Tauto
import TargetGen.Phase.Run

/-!
# Frame — what a change of the graph leaves as it was

A graph changes in three ways only: a provider is published, an error is
recorded, an edge is added. Each of them appends to what is there and concerns
one module. Two relations say so, and everything that runs over a graph is
shown to stay within them:

* `Graph.Extends g g'`: the modules are the same, and whatever the first graph
  holds of providers, errors and edges is the beginning of what the second holds;
* `Graph.ExtendsAt id g g'`: moreover, only the module `id` and the edges that
  leave it have changed.

The sections follow the code: nodes, edges, providers, errors, then the commit
of one outcome. The last section says exactly what a commit leaves behind.
-/

namespace TargetGen.Graph

variable {g g' g'' : Graph} {id other : ModuleId}

/-! ## Nodes -/

theorem node_modifyNode (g : Graph) (id other : ModuleId) (f : Node → Node) :
    (g.modifyNode id f).node other =
      if other = id ∧ id < g.size then f (g.node id) else g.node other := by
  simp only [modifyNode, node, size, List.getD_eq_getElem?_getD, List.getElem?_modify]
  by_cases h : id = other
  · subst h
    by_cases hlt : id < g.nodes.length
    · simp [hlt]
    · simp [hlt]
  · have h' : ¬ other = id := fun e => h e.symm
    simp [h, h']

theorem node_modifyNode_self (f : Node → Node) (h : id < g.size) :
    (g.modifyNode id f).node id = f (g.node id) := by
  rw [node_modifyNode, if_pos ⟨rfl, h⟩]

theorem node_modifyNode_of_ne (f : Node → Node) (h : other ≠ id) :
    (g.modifyNode id f).node other = g.node other := by
  rw [node_modifyNode, if_neg fun e => h e.1]

@[simp] theorem size_modifyNode (f : Node → Node) : (g.modifyNode id f).size = g.size :=
  List.length_modify ..

@[simp] theorem edges_modifyNode (f : Node → Node) : (g.modifyNode id f).edges = g.edges := rfl

theorem node_of_size_le (h : g.size ≤ id) : g.node id = default :=
  List.getD_eq_default _ _ h

theorem isFailed_iff : g.isFailed id = true ↔ g.errors id ≠ [] := by
  simp [isFailed]

theorem isFailed_of_mem {e : ModuleError} (h : e ∈ g.errors id) : g.isFailed id = true :=
  isFailed_iff.mpr (List.ne_nil_of_mem h)

theorem lt_size_of_isFailed (h : g.isFailed id = true) : id < g.size := by
  by_contra hle
  rw [isFailed_iff, errors, node_of_size_le (Nat.le_of_not_lt hle)] at h
  exact h rfl

@[simp] theorem mem_ids : id ∈ g.ids ↔ id < g.size := List.mem_range

theorem nodup_ids (g : Graph) : g.ids.Nodup := List.nodup_range

/-! ## Edges -/

theorem dependsOn_iff {a b : ModuleId} :
    g.dependsOn a b = true ↔ ∃ tag, ⟨a, b, tag⟩ ∈ g.edges := by
  simp only [dependsOn, List.any_eq_true, Bool.and_eq_true, decide_eq_true_eq]
  constructor
  · rintro ⟨⟨s, t, tag⟩, he, rfl, rfl⟩
    exact ⟨tag, he⟩
  · rintro ⟨tag, he⟩
    exact ⟨_, he, rfl, rfl⟩

theorem dependsOn_of_mem {e : Edge} (h : e ∈ g.edges) :
    g.dependsOn e.source e.target = true :=
  dependsOn_iff.mpr ⟨e.tag, h⟩

@[simp] theorem mem_dependencyIds {a b : ModuleId} :
    b ∈ g.dependencyIds a ↔ b < g.size ∧ g.dependsOn a b = true := by
  simp [dependencyIds]

theorem failedDependency_eq_some {a b : ModuleId} (h : g.failedDependency a = some b) :
    b < g.size ∧ g.dependsOn a b = true ∧ g.isFailed b = true := by
  have hb := mem_dependencyIds.mp (List.mem_of_find?_eq_some h)
  exact ⟨hb.1, hb.2, by simpa using List.find?_some h⟩

theorem failedDependency_eq_none {a b : ModuleId} (h : g.failedDependency a = none)
    (hb : g.dependsOn a b = true) : g.isFailed b = false := by
  by_contra hf
  have hf : g.isFailed b = true := by simpa using hf
  have hmem := mem_dependencyIds.mpr ⟨lt_size_of_isFailed hf, hb⟩
  exact List.find?_eq_none.mp h b hmem hf

@[simp] theorem mem_edges_addEdge {e e' : Edge} :
    e' ∈ (g.addEdge e).edges ↔ e' ∈ g.edges ∨ e' = e :=
  Distinct.mem_append

@[simp] theorem mem_edges_addEdges {edges : List Dependency} {e : Edge} :
    e ∈ (g.addEdges id edges).edges ↔
      e ∈ g.edges ∨ e.source = id ∧ (e.target, e.tag) ∈ edges := by
  induction edges generalizing g with
  | nil => simp [addEdges]
  | cons d rest ih =>
    have step : g.addEdges id (d :: rest) = (g.addEdge ⟨id, d.1, d.2⟩).addEdges id rest := rfl
    rw [step, ih, mem_edges_addEdge, List.mem_cons]
    obtain ⟨source, target, tag⟩ := e
    obtain ⟨target', tag'⟩ := d
    simp only [Edge.mk.injEq, Prod.mk.injEq]
    tauto

@[simp] theorem nodes_addEdges (edges : List Dependency) :
    (g.addEdges id edges).nodes = g.nodes := by
  induction edges generalizing g with
  | nil => rfl
  | cons d rest ih => exact (ih (g := g.addEdge ⟨id, d.1, d.2⟩)).trans rfl

@[simp] theorem size_addEdges (edges : List Dependency) : (g.addEdges id edges).size = g.size := by
  simp [size]

@[simp] theorem node_addEdges (edges : List Dependency) :
    (g.addEdges id edges).node other = g.node other := by
  simp [node]

@[simp] theorem errors_addEdges (edges : List Dependency) :
    (g.addEdges id edges).errors other = g.errors other := by
  simp [errors]

@[simp] theorem provider?_addEdges (edges : List Dependency) (kind : ProviderKind) :
    (g.addEdges id edges).provider? other kind = g.provider? other kind := by
  simp [Graph.provider?]

/-! ## Growth -/

/-- Nothing is lost from one graph to the other. -/
structure Extends (g g' : Graph) : Prop where
  size : g'.size = g.size
  module : ∀ id, g'.module id = g.module id
  published : ∀ id, (g.node id).store.published <+: (g'.node id).store.published
  errors : ∀ id, g.errors id <+: g'.errors id
  edges : g.edges <+: g'.edges

/-- Nothing is lost, and all that is new belongs to one module. -/
structure ExtendsAt (id : ModuleId) (g g' : Graph) : Prop extends Extends g g' where
  node : ∀ other, other ≠ id → g'.node other = g.node other
  own : ∀ e ∈ g'.edges, e ∈ g.edges ∨ e.source = id

theorem Extends.refl (g : Graph) : Extends g g :=
  ⟨rfl, fun _ => rfl, fun _ => List.prefix_rfl, fun _ => List.prefix_rfl, List.prefix_rfl⟩

theorem Extends.trans (h : Extends g g') (h' : Extends g' g'') : Extends g g'' where
  size := h'.size.trans h.size
  module id := (h'.module id).trans (h.module id)
  published id := (h.published id).trans (h'.published id)
  errors id := (h.errors id).trans (h'.errors id)
  edges := h.edges.trans h'.edges

theorem ExtendsAt.refl (id : ModuleId) (g : Graph) : ExtendsAt id g g :=
  ⟨Extends.refl g, fun _ _ => rfl, fun _ h => .inl h⟩

theorem ExtendsAt.trans (h : ExtendsAt id g g') (h' : ExtendsAt id g' g'') :
    ExtendsAt id g g'' where
  toExtends := h.toExtends.trans h'.toExtends
  node other ho := (h'.node other ho).trans (h.node other ho)
  own e he := (h'.own e he).elim (h.own e) .inr

namespace Extends

theorem ids (h : Extends g g') : g'.ids = g.ids := by
  rw [Graph.ids, Graph.ids, h.size]

theorem mem_edges (h : Extends g g') {e : Edge} (he : e ∈ g.edges) : e ∈ g'.edges :=
  h.edges.subset he

theorem dependsOn (h : Extends g g') {a b : ModuleId} (hd : g.dependsOn a b = true) :
    g'.dependsOn a b = true := by
  obtain ⟨tag, he⟩ := dependsOn_iff.mp hd
  exact dependsOn_iff.mpr ⟨tag, h.mem_edges he⟩

theorem mem_errors (h : Extends g g') {e : ModuleError} (he : e ∈ g.errors id) :
    e ∈ g'.errors id :=
  (h.errors id).subset he

theorem isFailed (h : Extends g g') (hf : g.isFailed id = true) : g'.isFailed id = true := by
  rw [isFailed_iff] at hf ⊢
  intro hnil
  exact hf (List.prefix_nil.mp (hnil ▸ h.errors id))

theorem isFailed_eq_false (h : Extends g g') (hs : g'.isFailed id = false) :
    g.isFailed id = false := by
  cases hf : g.isFailed id with
  | false => rfl
  | true =>
    rw [h.isFailed hf] at hs
    cases hs

theorem provider? (h : Extends g g') {kind : ProviderKind} {p : Provider}
    (hp : g.provider? id kind = some p) : g'.provider? id kind = some p := by
  obtain ⟨later, hlater⟩ := h.published id
  obtain ⟨found, hfind, rfl⟩ := Option.map_eq_some_iff.mp hp
  refine Option.map_eq_some_iff.mpr ⟨found, ?_, rfl⟩
  rw [ProviderStore.find?, ← hlater, List.find?_append]
  exact Option.or_eq_some_iff.mpr (.inl hfind)

end Extends

/-! ## Recording errors -/

@[simp] theorem edges_recordError (e : ModuleError) : (g.recordError id e).edges = g.edges := rfl

theorem errors_recordError (h : id < g.size) (e : ModuleError) :
    (g.recordError id e).errors id = g.errors id ++ [e] := by
  rw [errors, recordError, node_modifyNode_self _ h, errors]

theorem extendsAt_recordError (e : ModuleError) : ExtendsAt id g (g.recordError id e) := by
  refine ⟨⟨size_modifyNode _, fun other => ?_, fun other => ?_, fun other => ?_,
    List.prefix_rfl⟩, fun other ho => node_modifyNode_of_ne _ ho, fun _ he => .inl he⟩
  all_goals
    simp only [recordError, Graph.module, Graph.errors, node_modifyNode]
    split
    next h => simp [h.1]
    next h => simp

/-! ## Publishing -/

/-- The kinds that a module has published. -/
def kinds (g : Graph) (id : ModuleId) : List ProviderKind :=
  (g.node id).store.published.map (·.provider.kind)

theorem find?_eq_none_iff {kind : ProviderKind} :
    (g.node id).store.find? kind = none ↔ kind ∉ g.kinds id := by
  simp [ProviderStore.find?, kinds]

theorem mem_kinds_of_provider? {kind : ProviderKind} {p : Provider}
    (h : g.provider? id kind = some p) : kind ∈ g.kinds id := by
  by_contra hno
  have hnone := find?_eq_none_iff.mpr hno
  simp [Graph.provider?, ProviderStore.get?, hnone] at h

theorem kind_of_provider? {kind : ProviderKind} {p : Provider}
    (h : g.provider? id kind = some p) : p.kind = kind := by
  obtain ⟨found, hfind, rfl⟩ := Option.map_eq_some_iff.mp h
  simpa using List.find?_some hfind

theorem decidedToConvert_iff :
    g.decidedToConvert id = true ↔
      ∃ d, g.provider? id .decision = some (.decision d) ∧ d.convert = true := by
  unfold decidedToConvert decision?
  cases hp : g.provider? id .decision with
  | none => simp
  | some p =>
    have hkind := kind_of_provider? hp
    cases p with
    | decision d => simp
    | _ => cases hkind

theorem decidedToConvert_eq_false_iff :
    g.decidedToConvert id = false ↔
      ∀ d, g.provider? id .decision = some (.decision d) → d.convert = false := by
  rw [Bool.eq_false_iff, ne_eq, decidedToConvert_iff, not_exists]
  simp only [not_and, Bool.not_eq_true]

theorem exists_provider?_of_mem_kinds {kind : ProviderKind} (h : kind ∈ g.kinds id) :
    ∃ p, g.provider? id kind = some p := by
  cases hp : g.provider? id kind with
  | some p => exact ⟨p, rfl⟩
  | none =>
    rw [Graph.provider?, ProviderStore.get?, Option.map_eq_none_iff] at hp
    exact absurd h (find?_eq_none_iff.mp hp)

theorem publish_eq_ok {phase : String} {p : Provider} (h : g.publish id phase p = .ok g') :
    p.kind ∉ g.kinds id ∧
      g' = g.modifyNode id fun n =>
        { n with store := ⟨(g.node id).store.published ++ [⟨phase, p⟩]⟩ } := by
  simp only [publish, ProviderStore.publish] at h
  split at h
  next => cases h
  next hfind => exact ⟨find?_eq_none_iff.mp hfind, (Except.ok.inj h).symm⟩

theorem publish_of_notMem {p : Provider} (phase : String) (h : p.kind ∉ g.kinds id) :
    ∃ g', g.publish id phase p = .ok g' := by
  simp only [publish, ProviderStore.publish, find?_eq_none_iff.mpr h]
  exact ⟨_, rfl⟩

theorem extendsAt_publish {phase : String} {p : Provider} (h : g.publish id phase p = .ok g') :
    ExtendsAt id g g' := by
  obtain ⟨-, rfl⟩ := publish_eq_ok h
  refine ⟨⟨size_modifyNode _, fun other => ?_, fun other => ?_, fun other => ?_,
    List.prefix_rfl⟩, fun other ho => node_modifyNode_of_ne _ ho, fun _ he => .inl he⟩
  all_goals
    simp only [Graph.module, Graph.errors, node_modifyNode]
    split
    next h => simp [h.1]
    next h => simp

theorem published_publish {phase : String} {p : Provider} (hid : id < g.size)
    (h : g.publish id phase p = .ok g') :
    (g'.node id).store.published = (g.node id).store.published ++ [⟨phase, p⟩] := by
  obtain ⟨-, rfl⟩ := publish_eq_ok h
  rw [node_modifyNode_self _ hid]

theorem errors_publish {phase : String} {p : Provider} (h : g.publish id phase p = .ok g') :
    g'.errors other = g.errors other := by
  obtain ⟨-, rfl⟩ := publish_eq_ok h
  rw [errors, errors, node_modifyNode]
  split
  next h => rw [h.1]
  next => rfl

theorem edges_publish {phase : String} {p : Provider} (h : g.publish id phase p = .ok g') :
    g'.edges = g.edges := by
  obtain ⟨-, rfl⟩ := publish_eq_ok h
  exact edges_modifyNode _

theorem kinds_publish {phase : String} {p : Provider} (hid : id < g.size)
    (h : g.publish id phase p = .ok g') : g'.kinds id = g.kinds id ++ [p.kind] := by
  rw [kinds, published_publish hid h, List.map_append]
  rfl

theorem provider?_publish {phase : String} {p : Provider} (hid : id < g.size)
    (h : g.publish id phase p = .ok g') : g'.provider? id p.kind = some p := by
  have hfresh := find?_eq_none_iff.mpr (publish_eq_ok h).1
  rw [Graph.provider?, ProviderStore.get?, ProviderStore.find?, published_publish hid h,
    List.find?_append, ← ProviderStore.find?, hfresh]
  simp

theorem extendsAt_publishAll (g : Graph) (id : ModuleId) (phase : String) (ps : List Provider) :
    ExtendsAt id g (g.publishAll id phase ps).1 := by
  induction ps generalizing g with
  | nil => exact ExtendsAt.refl id g
  | cons p rest ih =>
    unfold publishAll
    split
    next g' hp => exact (extendsAt_publish hp).trans (ih g')
    next => exact ExtendsAt.refl id g

@[simp] theorem errors_publishAll (g : Graph) (id other : ModuleId) (phase : String)
    (ps : List Provider) : (g.publishAll id phase ps).1.errors other = g.errors other := by
  induction ps generalizing g with
  | nil => rfl
  | cons p rest ih =>
    unfold publishAll
    split
    next g' hp => exact (ih g').trans (errors_publish hp)
    next => rfl

@[simp] theorem edges_publishAll (g : Graph) (id : ModuleId) (phase : String) (ps : List Provider) :
    (g.publishAll id phase ps).1.edges = g.edges := by
  induction ps generalizing g with
  | nil => rfl
  | cons p rest ih =>
    unfold publishAll
    split
    next g' hp => exact (ih g').trans (edges_publish hp)
    next => rfl

theorem published_publishAll {phase : String} {ps : List Provider} (hid : id < g.size)
    (h : (g.publishAll id phase ps).2 = none) :
    ((g.publishAll id phase ps).1.node id).store.published =
      (g.node id).store.published ++ ps.map (⟨phase, ·⟩) := by
  induction ps generalizing g with
  | nil => simp [publishAll]
  | cons p rest ih =>
    unfold publishAll at h ⊢
    split at h
    next g' hp =>
      rw [ih ((extendsAt_publish hp).size ▸ hid) h, published_publish hid hp]
      simp
    next => cases h

theorem provider?_publishAll {phase : String} {ps : List Provider} (hid : id < g.size)
    (h : (g.publishAll id phase ps).2 = none) :
    ∀ p ∈ ps, (g.publishAll id phase ps).1.provider? id p.kind = some p := by
  induction ps generalizing g with
  | nil => simp
  | cons p rest ih =>
    intro q hq
    unfold publishAll at h ⊢
    split at h
    next g' hp =>
      rcases List.mem_cons.mp hq with rfl | hq
      · exact (extendsAt_publishAll g' id phase rest).provider? (provider?_publish hid hp)
      · exact ih ((extendsAt_publish hp).size ▸ hid) h q hq
    next => cases h

theorem publishAll_of_fresh {ps : List Provider} (phase : String) (hid : id < g.size)
    (hnodup : (ps.map Provider.kind).Nodup) (hfresh : ∀ p ∈ ps, p.kind ∉ g.kinds id) :
    (g.publishAll id phase ps).2 = none := by
  induction ps generalizing g with
  | nil => rfl
  | cons p rest ih =>
    obtain ⟨hp, hrest⟩ := List.nodup_cons.mp hnodup
    obtain ⟨g', hg'⟩ := publish_of_notMem phase (hfresh p List.mem_cons_self)
    unfold publishAll
    rw [hg']
    apply ih ((extendsAt_publish hg').size ▸ hid) hrest
    intro q hq
    rw [kinds_publish hid hg', List.mem_append, List.mem_singleton]
    rintro (hold | hnew)
    · exact hfresh q (List.mem_cons_of_mem _ hq) hold
    · exact hp (hnew ▸ List.mem_map_of_mem hq)

/-! ## Commits -/

end TargetGen.Graph

namespace TargetGen.Outcome

/-- The providers that an outcome adds to its module. -/
def providers : Outcome → List Provider
  | ran (.ok output) => output.providers
  | ran (.error _) | blocked _ | alreadyFailed => []

/-- The dependencies that an outcome adds to its module. -/
def edges : Outcome → List Dependency
  | ran (.ok output) => output.edges
  | ran (.error _) | blocked _ | alreadyFailed => []

/-- The errors that an outcome records with its module. -/
def errors (g : Graph) : Outcome → List ModuleError
  | ran (.error e) => [e]
  | blocked dependency => [.dependencyFailed (g.module dependency).name]
  | ran (.ok _) | alreadyFailed => []

theorem eq_ran_of_mem_providers {o : Outcome} {p : Provider} (h : p ∈ o.providers) :
    ∃ output, o = ran (.ok output) := by
  match o, h with
  | ran (.ok output), _ => exact ⟨output, rfl⟩
  | ran (.error _), h => cases h
  | blocked _, h => cases h
  | alreadyFailed, h => cases h

theorem eq_ran_of_mem_edges {o : Outcome} {d : Dependency} (h : d ∈ o.edges) :
    ∃ output, o = ran (.ok output) := by
  match o, h with
  | ran (.ok output), _ => exact ⟨output, rfl⟩
  | ran (.error _), h => cases h
  | blocked _, h => cases h
  | alreadyFailed, h => cases h

end TargetGen.Outcome

namespace TargetGen.Graph

variable {g g' : Graph} {id : ModuleId} {phase : String}

theorem extendsAt_addEdges (edges : List Dependency) :
    ExtendsAt id g (g.addEdges id edges) := by
  refine ⟨⟨size_addEdges edges, fun other => ?_, fun other => ?_, fun other => ?_, ?_⟩,
    fun other _ => node_addEdges edges, fun e he => ?_⟩
  · rw [Graph.module, node_addEdges, Graph.module]
  · simp
  · simp
  · induction edges generalizing g with
    | nil => exact List.prefix_rfl
    | cons d rest ih =>
      have first : g.edges <+: (g.addEdge ⟨id, d.1, d.2⟩).edges := by
        unfold addEdge Distinct.append
        split
        next => exact List.prefix_rfl
        next => exact List.prefix_append ..
      exact first.trans ih
  · exact (mem_edges_addEdges.mp he).imp (fun h => h) And.left

@[simp] theorem commit_error (e : ModuleError) :
    g.commit phase id (.ran (.error e)) = (g.recordError id e, none) := rfl

@[simp] theorem commit_blocked (dependency : ModuleId) :
    g.commit phase id (.blocked dependency) =
      (g.recordError id (.dependencyFailed (g.module dependency).name), none) := rfl

@[simp] theorem commit_alreadyFailed : g.commit phase id .alreadyFailed = (g, none) := rfl

/-- The commit of a step that succeeded has a fault just when publishing has one. -/
theorem commit_ok_of_eq_none {output : StepOutput}
    (h : (g.publishAll id phase output.providers).2 = none) :
    g.commit phase id (.ran (.ok output)) =
      ((g.publishAll id phase output.providers).1.addEdges id output.edges, none) := by
  simp only [commit]
  split
  next g' fault heq => rw [heq] at h; cases h
  next g' heq => rw [heq]

theorem commit_ok_eq_none {output : StepOutput}
    (h : (g.commit phase id (.ran (.ok output))).2 = none) :
    (g.publishAll id phase output.providers).2 = none := by
  simp only [commit] at h
  split at h
  next g' fault heq => cases h
  next g' heq => rw [heq]

/-- **A commit keeps to its module.** Whatever the outcome, and whether or not
there is a fault. -/
theorem extendsAt_commit (g : Graph) (phase : String) (id : ModuleId) (o : Outcome) :
    ExtendsAt id g (g.commit phase id o).1 := by
  match o with
  | .ran (.ok output) =>
    have hall := extendsAt_publishAll g id phase output.providers
    simp only [commit]
    split
    next g' fault heq => exact heq ▸ hall
    next g' heq => exact (heq ▸ hall).trans (extendsAt_addEdges _)
  | .ran (.error e) => exact extendsAt_recordError e
  | .blocked dependency => exact extendsAt_recordError _
  | .alreadyFailed => exact ExtendsAt.refl id g

theorem errors_commit (hid : id < g.size) (o : Outcome) :
    (g.commit phase id o).1.errors id = g.errors id ++ o.errors g := by
  match o with
  | .ran (.ok output) =>
    have hall := errors_publishAll g id id phase output.providers
    simp only [commit, Outcome.errors, List.append_nil]
    split
    next g' fault heq => rwa [heq] at hall
    next g' heq =>
      rw [heq] at hall
      rwa [errors_addEdges]
  | .ran (.error e) => exact errors_recordError hid e
  | .blocked dependency => exact errors_recordError hid _
  | .alreadyFailed => exact (List.append_nil _).symm

theorem published_commit (hid : id < g.size) {o : Outcome}
    (h : (g.commit phase id o).2 = none) :
    ((g.commit phase id o).1.node id).store.published =
      (g.node id).store.published ++ o.providers.map (⟨phase, ·⟩) := by
  match o, h with
  | .ran (.ok output), h =>
    have hnone := commit_ok_eq_none h
    rw [commit_ok_of_eq_none hnone, node_addEdges]
    exact published_publishAll hid hnone
  | .ran (.error e), _ => simp [Outcome.providers, recordError, node_modifyNode_self _ hid]
  | .blocked dependency, _ => simp [Outcome.providers, recordError, node_modifyNode_self _ hid]
  | .alreadyFailed, _ => simp [Outcome.providers]

theorem provider?_commit (hid : id < g.size) {o : Outcome}
    (h : (g.commit phase id o).2 = none) :
    ∀ p ∈ o.providers, (g.commit phase id o).1.provider? id p.kind = some p := by
  match o, h with
  | .ran (.ok output), h =>
    have hnone := commit_ok_eq_none h
    intro p hp
    rw [commit_ok_of_eq_none hnone, provider?_addEdges]
    exact provider?_publishAll hid hnone p hp
  | .ran (.error e), _ => simp [Outcome.providers]
  | .blocked dependency, _ => simp [Outcome.providers]
  | .alreadyFailed, _ => simp [Outcome.providers]

theorem mem_edges_commit {o : Outcome} {e : Edge} (h : (g.commit phase id o).2 = none) :
    e ∈ (g.commit phase id o).1.edges ↔
      e ∈ g.edges ∨ e.source = id ∧ (e.target, e.tag) ∈ o.edges := by
  match o, h with
  | .ran (.ok output), h =>
    rw [commit_ok_of_eq_none (commit_ok_eq_none h), mem_edges_addEdges, edges_publishAll,
      Outcome.edges]
  | .ran (.error e), _ => simp [Outcome.edges]
  | .blocked dependency, _ => simp [Outcome.edges]
  | .alreadyFailed, _ => simp [Outcome.edges]

theorem commit_of_fresh {o : Outcome} (phase : String) (hid : id < g.size)
    (hnodup : (o.providers.map Provider.kind).Nodup)
    (hfresh : ∀ p ∈ o.providers, p.kind ∉ g.kinds id) :
    (g.commit phase id o).2 = none := by
  match o, hnodup, hfresh with
  | .ran (.ok output), hnodup, hfresh =>
    rw [commit_ok_of_eq_none (publishAll_of_fresh phase hid hnodup hfresh)]
  | .ran (.error e), _, _ => rfl
  | .blocked dependency, _, _ => rfl
  | .alreadyFailed, _, _ => rfl

end TargetGen.Graph
