import Mathlib.Logic.Relation
import TargetGen.Proofs.Graph.Frame

/-!
# Propagation — failures reach every dependent

`Graph.spread` works off a queue of failed modules; what it has not reached yet
is handed on as the list of sound ones. Three facts about it carry all that is
said about propagation, each by induction on the worklist:

* what it reaches it reaches once, and only among the sound modules;
* whatever it reaches depends on what was queued or reached (`spread_cause`),
  and so leads to the queue (`spread_reaches`);
* a sound module that depends on what was queued or reached is reached itself
  (`spread_closed`).

Afterwards no edge leads from a sound module to a failed one.
-/

namespace TargetGen.Graph

variable {g : Graph} {id dep : ModuleId} {queue sound : List ModuleId}

/-- `b` is reached from `a` over edges of whatever tag, possibly none. -/
def Reaches (g : Graph) (a b : ModuleId) : Prop :=
  Relation.ReflTransGen (fun a b => g.dependsOn a b = true) a b

theorem Reaches.mono {g' : Graph} (h : Extends g g') {a b : ModuleId} (hr : g.Reaches a b) :
    g'.Reaches a b :=
  Relation.ReflTransGen.mono (fun _ _ => h.dependsOn) _ _ hr

/-! ## The worklist -/

@[simp] theorem mem_reachedFrom {failed : ModuleId} :
    id ∈ g.reachedFrom failed sound ↔ id ∈ sound ∧ g.dependsOn id failed = true := by
  simp [reachedFrom]

@[simp] theorem mem_sparedBy {failed : ModuleId} :
    id ∈ g.sparedBy failed sound ↔ id ∈ sound ∧ g.dependsOn id failed = false := by
  simp [sparedBy]

theorem spread_cons (g : Graph) (failed : ModuleId) (queue sound : List ModuleId) :
    g.spread (failed :: queue) sound =
      (g.reachedFrom failed sound).map (·, failed) ++
        g.spread (queue ++ g.reachedFrom failed sound) (g.sparedBy failed sound) := by
  rw [spread]

/-- The modules that the worklist reaches. -/
def reached (g : Graph) (queue sound : List ModuleId) : List ModuleId :=
  (g.spread queue sound).map Prod.fst

theorem reached_cons (g : Graph) (failed : ModuleId) (queue sound : List ModuleId) :
    g.reached (failed :: queue) sound =
      g.reachedFrom failed sound ++
        g.reached (queue ++ g.reachedFrom failed sound) (g.sparedBy failed sound) := by
  simp [reached, spread_cons, Function.comp_def]

theorem reached_subset : ∀ id ∈ g.reached queue sound, id ∈ sound := by
  fun_induction spread g queue sound with
  | case1 sound => simp [reached, spread]
  | case2 failed queue sound ih =>
    intro id h
    rw [reached_cons, List.mem_append] at h
    rcases h with h | h
    · exact (mem_reachedFrom.mp h).1
    · exact (mem_sparedBy.mp (ih id h)).1

theorem nodup_reached (h : sound.Nodup) : (g.reached queue sound).Nodup := by
  fun_induction spread g queue sound with
  | case1 sound => simp [reached, spread]
  | case2 failed queue sound ih =>
    rw [reached_cons, List.nodup_append]
    refine ⟨h.filter _, ih (h.filter _), ?_⟩
    rintro a ha b hb rfl
    have hdep := (mem_reachedFrom.mp ha).2
    rw [(mem_sparedBy.mp (reached_subset a hb)).2] at hdep
    cases hdep

theorem spread_cause (h : (id, dep) ∈ g.spread queue sound) :
    g.dependsOn id dep = true ∧ (dep ∈ queue ∨ dep ∈ g.reached queue sound) := by
  fun_induction spread g queue sound with
  | case1 sound => cases h
  | case2 failed queue sound ih =>
    rw [List.mem_append, List.mem_map] at h
    rw [reached_cons, List.mem_append, List.mem_cons]
    rcases h with ⟨a, ha, heq⟩ | h
    · obtain ⟨rfl, rfl⟩ := Prod.mk.inj heq
      exact ⟨(mem_reachedFrom.mp ha).2, .inl (.inl rfl)⟩
    · obtain ⟨hdep, hfrom⟩ := ih h
      refine ⟨hdep, ?_⟩
      rw [List.mem_append] at hfrom
      tauto

theorem spread_reaches (h : id ∈ g.reached queue sound) : ∃ b ∈ queue, g.Reaches id b := by
  fun_induction spread g queue sound with
  | case1 sound => simp [reached, spread] at h
  | case2 failed queue sound ih =>
    have first : ∀ a ∈ g.reachedFrom failed sound, g.Reaches a failed := fun a ha =>
      Relation.ReflTransGen.single (mem_reachedFrom.mp ha).2
    rw [reached_cons, List.mem_append] at h
    rcases h with h | h
    · exact ⟨failed, List.mem_cons_self, first id h⟩
    · obtain ⟨b, hb, hr⟩ := ih h
      rcases List.mem_append.mp hb with hb | hb
      · exact ⟨b, List.mem_cons_of_mem _ hb, hr⟩
      · exact ⟨failed, List.mem_cons_self, hr.trans (first b hb)⟩

theorem spread_closed {b : ModuleId} (hid : id ∈ sound) (hdep : g.dependsOn id b = true)
    (hb : b ∈ queue ∨ b ∈ g.reached queue sound) : id ∈ g.reached queue sound := by
  fun_induction spread g queue sound with
  | case1 sound => simp [reached, spread] at hb
  | case2 failed queue sound ih =>
    rw [reached_cons, List.mem_append] at hb ⊢
    by_cases hfailed : g.dependsOn id failed = true
    · exact .inl (mem_reachedFrom.mpr ⟨hid, hfailed⟩)
    · have hspared : id ∈ g.sparedBy failed sound :=
        mem_sparedBy.mpr ⟨hid, by simpa using hfailed⟩
      refine .inr (ih hspared ?_)
      rw [List.mem_append]
      rcases hb with hb | hb | hb
      · rcases List.mem_cons.mp hb with rfl | hb
        · exact absurd hdep hfailed
        · exact .inl (.inl hb)
      · exact .inl (.inr hb)
      · exact .inr hb

/-! ## Failing what was reached -/

/-- Fail modules by their dependencies, one after the other. -/
def failBy (g : Graph) (reached : List (ModuleId × ModuleId)) : Graph :=
  reached.foldl
    (fun g (id, dependency) => g.recordError id (.dependencyFailed (g.module dependency).name)) g

theorem failBy_cons (g : Graph) (id dep : ModuleId) (rest : List (ModuleId × ModuleId)) :
    g.failBy ((id, dep) :: rest) =
      (g.recordError id (.dependencyFailed (g.module dep).name)).failBy rest := rfl

theorem extends_failBy (g : Graph) (pairs : List (ModuleId × ModuleId)) :
    Extends g (g.failBy pairs) := by
  induction pairs generalizing g with
  | nil => exact Extends.refl g
  | cons pair rest ih => exact (extendsAt_recordError _).toExtends.trans (ih _)

@[simp] theorem edges_failBy (g : Graph) (pairs : List (ModuleId × ModuleId)) :
    (g.failBy pairs).edges = g.edges := by
  induction pairs generalizing g with
  | nil => rfl
  | cons pair rest ih => exact (ih _).trans rfl

@[simp] theorem store_failBy (g : Graph) (pairs : List (ModuleId × ModuleId)) (id : ModuleId) :
    ((g.failBy pairs).node id).store = (g.node id).store := by
  induction pairs generalizing g with
  | nil => rfl
  | cons pair rest ih =>
    rw [failBy_cons, ih, recordError, node_modifyNode]
    split
    next h => rw [h.1]
    next => rfl

theorem errors_failBy_of_notMem {pairs : List (ModuleId × ModuleId)}
    (h : id ∉ pairs.map Prod.fst) : (g.failBy pairs).errors id = g.errors id := by
  induction pairs generalizing g with
  | nil => rfl
  | cons pair rest ih =>
    obtain ⟨hne, hrest⟩ := not_or.mp (mt List.mem_cons.mpr h)
    rw [failBy_cons, ih hrest, errors, (extendsAt_recordError _).node id hne, errors]

theorem errors_failBy {pairs : List (ModuleId × ModuleId)} (hnodup : (pairs.map Prod.fst).Nodup)
    (hid : id < g.size) (h : (id, dep) ∈ pairs) :
    (g.failBy pairs).errors id = g.errors id ++ [.dependencyFailed (g.module dep).name] := by
  induction pairs generalizing g with
  | nil => cases h
  | cons pair rest ih =>
    obtain ⟨hfirst, hrest⟩ := List.nodup_cons.mp hnodup
    rcases List.mem_cons.mp h with rfl | h
    · rw [failBy_cons, errors_failBy_of_notMem hfirst, errors_recordError hid]
    · have hne : id ≠ pair.1 := fun e => hfirst (e ▸ List.mem_map_of_mem h)
      have hext : ExtendsAt pair.1 g
          (g.recordError pair.1 (.dependencyFailed (g.module pair.2).name)) :=
        extendsAt_recordError _
      rw [failBy_cons, ih hrest (hext.size ▸ hid) h, hext.module, errors, hext.node id hne, errors]

/-! ## Propagation -/

theorem propagateFailures_fst (g : Graph) :
    g.propagateFailures.1 = g.failBy g.newlyFailed := rfl

theorem mem_newlyFailed_fst (h : id ∈ g.newlyFailed.map Prod.fst) :
    id < g.size ∧ g.isFailed id = false := by
  have := reached_subset id h
  simpa using this

theorem nodup_newlyFailed (g : Graph) : (g.newlyFailed.map Prod.fst).Nodup :=
  nodup_reached (g.nodup_ids.filter _)

theorem extends_propagateFailures (g : Graph) : Extends g g.propagateFailures.1 :=
  extends_failBy g _

@[simp] theorem edges_propagateFailures (g : Graph) : g.propagateFailures.1.edges = g.edges :=
  edges_failBy g _

@[simp] theorem store_propagateFailures (g : Graph) (id : ModuleId) :
    (g.propagateFailures.1.node id).store = (g.node id).store :=
  store_failBy g _ id

@[simp] theorem size_propagateFailures (g : Graph) : g.propagateFailures.1.size = g.size :=
  (extends_propagateFailures g).size

@[simp] theorem module_propagateFailures (g : Graph) (id : ModuleId) :
    g.propagateFailures.1.module id = g.module id :=
  (extends_propagateFailures g).module id

@[simp] theorem dependsOn_propagateFailures (g : Graph) (a b : ModuleId) :
    g.propagateFailures.1.dependsOn a b = g.dependsOn a b := by
  simp [dependsOn]

@[simp] theorem kinds_propagateFailures (g : Graph) (id : ModuleId) :
    g.propagateFailures.1.kinds id = g.kinds id := by
  simp [kinds]

@[simp] theorem provider?_propagateFailures (g : Graph) (id : ModuleId) (kind : ProviderKind) :
    g.propagateFailures.1.provider? id kind = g.provider? id kind := by
  simp [Graph.provider?]

theorem errors_propagateFailures_of_isFailed (h : g.isFailed id = true) :
    g.propagateFailures.1.errors id = g.errors id := by
  apply errors_failBy_of_notMem
  intro hmem
  rw [(mem_newlyFailed_fst hmem).2] at h
  cases h

theorem mem_errors_propagateFailures {e : ModuleError}
    (h : e ∈ g.propagateFailures.1.errors id) :
    e ∈ g.errors id ∨ ∃ name, e = .dependencyFailed name := by
  by_cases hmem : id ∈ g.newlyFailed.map Prod.fst
  · obtain ⟨⟨_, dep⟩, hpair, rfl⟩ := List.mem_map.mp hmem
    rw [propagateFailures_fst, errors_failBy g.nodup_newlyFailed (mem_newlyFailed_fst hmem).1 hpair,
      List.mem_append, List.mem_singleton] at h
    exact h.imp_right fun heq => ⟨_, heq⟩
  · rw [propagateFailures_fst, errors_failBy_of_notMem hmem] at h
    exact .inl h

theorem isFailed_propagateFailures_iff (hid : id < g.size) :
    g.propagateFailures.1.isFailed id = true ↔
      g.isFailed id = true ∨ id ∈ g.newlyFailed.map Prod.fst := by
  rw [isFailed_iff, isFailed_iff, propagateFailures_fst]
  by_cases hmem : id ∈ g.newlyFailed.map Prod.fst
  · obtain ⟨⟨_, dep⟩, hpair, rfl⟩ := List.mem_map.mp hmem
    rw [errors_failBy g.nodup_newlyFailed hid hpair]
    exact iff_of_true (by simp) (.inr hmem)
  · rw [errors_failBy_of_notMem hmem]
    exact (or_iff_left hmem).symm

theorem countP_newlyFailed (g : Graph) :
    g.ids.countP (· ∈ g.newlyFailed.map Prod.fst) = g.newlyFailed.length := by
  have hperm : (g.ids.filter (· ∈ g.newlyFailed.map Prod.fst)).Perm
      (g.newlyFailed.map Prod.fst) := by
    apply (List.perm_ext_iff_of_nodup (g.nodup_ids.filter _) g.nodup_newlyFailed).mpr
    intro id
    rw [List.mem_filter, decide_eq_true_eq]
    exact and_iff_right_of_imp fun hmem => mem_ids.mpr (mem_newlyFailed_fst hmem).1
  rw [List.countP_eq_length_filter, hperm.length_eq, List.length_map]

theorem countP_failed_since (g : Graph) :
    (g.ids.countP fun id => g.propagateFailures.1.isFailed id && !g.isFailed id) =
      g.newlyFailed.length := by
  rw [← countP_newlyFailed]
  apply List.countP_congr
  intro id hid
  have hsound : id ∈ g.newlyFailed.map Prod.fst → g.isFailed id = false := fun hmem =>
    (mem_newlyFailed_fst hmem).2
  rw [Bool.and_eq_true, isFailed_propagateFailures_iff (mem_ids.mp hid)]
  cases hold : g.isFailed id with
  | true => simpa [hold] using hsound
  | false => simp

theorem exists_mem_newlyFailed (h : g.isFailed id = false)
    (h' : g.propagateFailures.1.isFailed id = true) :
    ∃ dep, (id, dep) ∈ g.newlyFailed ∧
      g.propagateFailures.1.errors id = [.dependencyFailed (g.module dep).name] := by
  have hid : id < g.size := by
    rw [← size_propagateFailures]
    exact lt_size_of_isFailed h'
  have hmem : id ∈ g.newlyFailed.map Prod.fst := by
    rcases (isFailed_propagateFailures_iff hid).mp h' with hold | hmem
    · rw [h] at hold
      cases hold
    · exact hmem
  have herrors : g.errors id = [] := by simpa [isFailed] using h
  obtain ⟨⟨_, dep⟩, hpair, rfl⟩ := List.mem_map.mp hmem
  refine ⟨dep, hpair, ?_⟩
  rw [propagateFailures_fst, errors_failBy g.nodup_newlyFailed hid hpair, herrors,
    List.nil_append]

/-- **What fails by propagation.** It gets one error, which names a direct
dependency that has failed, and it leads to a module that had failed before. -/
theorem newly_failed (h : g.isFailed id = false)
    (h' : g.propagateFailures.1.isFailed id = true) :
    ∃ dep, g.dependsOn id dep = true ∧ g.propagateFailures.1.isFailed dep = true ∧
      g.propagateFailures.1.errors id = [.dependencyFailed (g.module dep).name] ∧
      ∃ b, g.Reaches id b ∧ g.isFailed b = true := by
  obtain ⟨dep, hpair, hone⟩ := exists_mem_newlyFailed h h'
  obtain ⟨hdep, hfrom⟩ := spread_cause hpair
  obtain ⟨b, hb, hr⟩ := spread_reaches (List.mem_map_of_mem hpair)
  refine ⟨dep, hdep, ?_, hone, b, hr, (List.mem_filter.mp hb).2⟩
  -- the cause had failed before, or is one of those that fail now
  rcases hfrom with hq | hr
  · exact (extends_propagateFailures g).isFailed (List.mem_filter.mp hq).2
  · exact (isFailed_propagateFailures_iff (mem_newlyFailed_fst hr).1).mpr (.inr hr)

/-- **Afterwards failure is closed.** No edge leads from a sound module to a
failed one. -/
theorem isFailed_of_dependsOn {b : ModuleId} (hid : id < g.size)
    (hdep : g.dependsOn id b = true) (hb : g.propagateFailures.1.isFailed b = true) :
    g.propagateFailures.1.isFailed id = true := by
  have hsize : b < g.size := by
    rw [← size_propagateFailures]
    exact lt_size_of_isFailed hb
  have hbmem : b ∈ g.ids.filter (g.isFailed ·) ∨ b ∈ g.newlyFailed.map Prod.fst := by
    rcases (isFailed_propagateFailures_iff hsize).mp hb with hbf | hreached
    · exact .inl (by simp [hsize, hbf])
    · exact .inr hreached
  rw [isFailed_propagateFailures_iff hid]
  by_cases hf : g.isFailed id = true
  · exact .inl hf
  · exact .inr (spread_closed (by simp [hid, hf]) hdep hbmem)

/-! ## Closedness -/

/-- No edge leads from a sound module to a failed one. -/
def FailureClosed (g : Graph) : Prop :=
  ∀ e ∈ g.edges, g.isFailed e.target = true → g.isFailed e.source = true

theorem FailureClosed.of_reaches {g : Graph} (h : g.FailureClosed) {a b : ModuleId}
    (hr : g.Reaches a b) (hb : g.isFailed b = true) : g.isFailed a = true := by
  induction hr using Relation.ReflTransGen.head_induction_on with
  | refl => exact hb
  | head hdep _ ih =>
    obtain ⟨tag, he⟩ := dependsOn_iff.mp hdep
    exact h _ he ih

theorem failureClosed_propagateFailures (hinside : ∀ e ∈ g.edges, e.source < g.size) :
    g.propagateFailures.1.FailureClosed := by
  intro e he hf
  rw [edges_propagateFailures] at he
  exact isFailed_of_dependsOn (hinside e he) (dependsOn_of_mem he) hf

/-- Where failure is closed, propagation has nothing to do. -/
theorem FailureClosed.propagateFailures_eq {g : Graph} (h : g.FailureClosed) :
    g.propagateFailures = (g, 0) := by
  have hnone : g.newlyFailed = [] := by
    rw [List.eq_nil_iff_forall_not_mem]
    rintro ⟨id, dep⟩ hpair
    have hmem : id ∈ g.newlyFailed.map Prod.fst := List.mem_map_of_mem hpair
    obtain ⟨b, hb, hreaches⟩ := spread_reaches hmem
    have hfailed := h.of_reaches hreaches (List.mem_filter.mp hb).2
    rw [(mem_newlyFailed_fst hmem).2] at hfailed
    cases hfailed
  unfold propagateFailures
  rw [hnone]
  rfl

end TargetGen.Graph
