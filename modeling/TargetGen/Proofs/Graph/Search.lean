import TargetGen.Graph.Search
import TargetGen.Proofs.Graph.Distance

/-!
# Search — the queue comes to the same end

The search follows the worklist of `Graph.spread` turn by turn (`Search.Follows`): the
queue is the same, the modules that were not met are the sound ones that are left, and
the errors recorded so far are those of the pairs reached so far. A failed module has
always been met, so whatever is met for the first time is sound and fails. The search
takes one turn for each module that is failed in the end (`Search.Follows.exists_end`).

What is known of the worklist is thus known of the search: who fails, by whom, and
that this is a step towards a module where failure began.
-/

namespace TargetGen

open TargetGen.Graph

variable {g : Graph} {s : Search} {id failed : ModuleId} {queue sound : List ModuleId}
  {pairs : List (ModuleId × ModuleId)}

namespace Graph

theorem failBy_append (g : Graph) (pairs more : List (ModuleId × ModuleId)) :
    g.failBy (pairs ++ more) = (g.failBy pairs).failBy more :=
  List.foldl_append

theorem isFailed_recordError_of_ne {other : ModuleId} {e : ModuleError} (h : other ≠ id) :
    (g.recordError id e).isFailed other = g.isFailed other := by
  rw [isFailed, isFailed, errors, errors, (extendsAt_recordError e).node other h]

@[simp] theorem dependentIds_failBy (g : Graph) (pairs : List (ModuleId × ModuleId))
    (id : ModuleId) :
    (g.failBy pairs).dependentIds id = g.dependentIds id := by
  simp only [dependentIds, dependsOn, edges_failBy, (extends_failBy g pairs).ids]

end Graph

namespace Search

/-! ## Meeting modules -/

/-- Those of some modules that the search has not met. -/
def unmet (s : Search) (ids : List ModuleId) : List ModuleId := ids.filter (· ∉ s.seen)

/-- **All that is met for the first time is queued and fails**, as long as failed modules
have been met before. -/
theorem foldl_meet (failed : ModuleId) {ids : List ModuleId} (hnodup : ids.Nodup) (s : Search)
    (hmet : ∀ id, s.graph.isFailed id = true → id ∈ s.seen) :
    ids.foldl (meet failed) s =
      ⟨s.queue ++ s.unmet ids, s.seen ++ s.unmet ids,
        s.graph.failBy ((s.unmet ids).map (·, failed)), s.count + (s.unmet ids).length⟩ := by
  induction ids generalizing s with
  | nil => simp [unmet, failBy]
  | cons id rest ih =>
    obtain ⟨hid, hrest⟩ := List.nodup_cons.mp hnodup
    rw [List.foldl_cons]
    by_cases hseen : id ∈ s.seen
    · have hunmet : s.unmet (id :: rest) = s.unmet rest := by
        simp [unmet, hseen]
      rw [hunmet, meet, if_pos hseen]
      exact ih hrest s hmet
    · have hsound : s.graph.isFailed id = false := by
        rw [Bool.eq_false_iff]
        intro hfailed
        exact hseen (hmet id hfailed)
      let e : ModuleError := .dependencyFailed (s.graph.module failed).name
      let next : Search :=
        ⟨s.queue ++ [id], s.seen ++ [id], s.graph.recordError id e, s.count + 1⟩
      have hmeet : meet failed s id = next := by
        simp [meet, hseen, hsound, next, e]
      have hnext : ∀ other, next.graph.isFailed other = true → other ∈ next.seen := by
        intro other hfailed
        by_cases heq : other = id
        · simp [next, heq]
        · rw [show next.graph.isFailed other = s.graph.isFailed other from
            isFailed_recordError_of_ne heq] at hfailed
          exact List.mem_append_left _ (hmet other hfailed)
      have hlater : next.unmet rest = s.unmet rest := by
        apply List.filter_congr
        intro other hother
        have hne : other ≠ id := by
          rintro rfl
          exact hid hother
        simp [next, hne]
      have hunmet : s.unmet (id :: rest) = id :: s.unmet rest := by
        simp [unmet, hseen]
      rw [hmeet, ih hrest next hnext, hlater, hunmet, List.map_cons, failBy_cons]
      simp [next, e, Nat.add_assoc, Nat.add_comm]

/-! ## Turns -/

/-- A search stands where the worklist of `g` does that has reached `pairs` so far: the
queue is the same, and `sound` is what it has not met. -/
structure Follows (g : Graph) (queue sound : List ModuleId) (pairs : List (ModuleId × ModuleId))
    (s : Search) : Prop where
  queued : s.queue = queue
  unmet : s.unmet g.ids = sound
  graph : s.graph = g.failBy pairs
  count : s.count = pairs.length
  met : ∀ id, s.graph.isFailed id = true → id ∈ s.seen

namespace Follows

theorem start (g : Graph) :
    g.search.Follows g (g.ids.filter (g.isFailed ·)) (g.ids.filter fun id => !g.isFailed id) []
    where
  queued := rfl
  unmet := by
    apply List.filter_congr
    intro id hid
    simp [search, hid]
  graph := rfl
  count := rfl
  met id hfailed := by
    have hfailed : g.isFailed id = true := hfailed
    exact List.mem_filter.mpr ⟨mem_ids.mpr (lt_size_of_isFailed hfailed), hfailed⟩

/-- **A turn of the search is one of the worklist.** -/
theorem turn (h : s.Follows g (failed :: queue) sound pairs) :
    ∃ next, s.turn = some next ∧
      next.Follows g (queue ++ g.reachedFrom failed sound) (g.sparedBy failed sound)
        (pairs ++ (g.reachedFrom failed sound).map (·, failed)) := by
  have hdependents : s.graph.dependentIds failed = g.dependentIds failed := by
    rw [h.graph, dependentIds_failBy]
  -- the dependents that were not met are those of the sound modules that are reached
  have hreached : s.unmet (g.dependentIds failed) = g.reachedFrom failed sound := by
    rw [← h.unmet, Search.unmet, Search.unmet, dependentIds, reachedFrom, List.filter_filter,
      List.filter_filter]
    simp only [Bool.and_comm]
  have hturn : s.turn = some ((g.dependentIds failed).foldl (meet failed) { s with queue }) := by
    rw [Search.turn, h.queued]
    simp only [hdependents]
  have hnodup : (g.dependentIds failed).Nodup := g.nodup_ids.filter _
  rw [foldl_meet failed hnodup { s with queue } h.met] at hturn
  have hunmet : Search.unmet { s with queue } (g.dependentIds failed) =
      g.reachedFrom failed sound := hreached
  rw [hunmet] at hturn
  refine ⟨_, hturn, rfl, ?_, ?_, ?_, ?_⟩
  · -- what is met by now: what had been before, and what was reached
    have hmem : ∀ id ∈ g.ids, (id ∈ sound ↔ id ∉ s.seen) := by
      intro id hid
      simp [← h.unmet, Search.unmet, hid]
    have hspared : g.sparedBy failed sound =
        g.ids.filter fun id => !g.dependsOn id failed && id ∉ s.seen := by
      rw [← h.unmet, sparedBy, Search.unmet, List.filter_filter]
    rw [hspared]
    apply List.filter_congr
    intro id hid
    by_cases hseen : id ∈ s.seen
    · simp [hseen]
    · simp [hseen, hmem id hid]
  · rw [failBy_append, ← h.graph]
  · simp [h.count]
  · intro id hfailed
    have hfailed : (s.graph.failBy ((g.reachedFrom failed sound).map (·, failed))).isFailed id =
        true := hfailed
    by_cases hmem : id ∈ g.reachedFrom failed sound
    · exact List.mem_append_right _ hmem
    · have hnone : id ∉ ((g.reachedFrom failed sound).map (·, failed)).map Prod.fst := by
        simpa using hmem
      have hold : s.graph.isFailed id = true := by
        rw [isFailed, errors_failBy_of_notMem hnone] at hfailed
        exact hfailed
      exact List.mem_append_left _ (h.met id hold)

/-- **The search ends**, and has failed what the worklist reaches. -/
theorem exists_end (h : s.Follows g queue sound pairs) :
    ∃ last, s.after (queue.length + (g.spread queue sound).length) = some last ∧
      last.turn = none ∧ last.graph = g.failBy (pairs ++ g.spread queue sound) ∧
      last.count = pairs.length + (g.spread queue sound).length := by
  fun_induction spread g queue sound generalizing s pairs with
  | case1 sound =>
    refine ⟨s, rfl, ?_, ?_, h.count⟩
    · rw [Search.turn, h.queued]
    · rw [List.append_nil]
      exact h.graph
  | case2 failed queue sound ih =>
    obtain ⟨next, hnext, hfollows⟩ := h.turn
    obtain ⟨last, hafter, hend, hgraph, hcount⟩ := ih hfollows
    refine ⟨last, ?_, hend, ?_, ?_⟩
    · have hturns : (failed :: queue).length +
          ((g.reachedFrom failed sound).map (·, failed) ++
            g.spread (queue ++ g.reachedFrom failed sound) (g.sparedBy failed sound)).length =
          (queue ++ g.reachedFrom failed sound).length +
            (g.spread (queue ++ g.reachedFrom failed sound) (g.sparedBy failed sound)).length
            + 1 := by
        simp
        omega
      rw [hturns, Search.after, hnext]
      exact hafter
    · rw [hgraph, List.append_assoc]
    · rw [hcount]
      simp
      omega

end Follows

end Search

namespace Graph

theorem exists_end_search (g : Graph) :
    ∃ last, g.search.after (g.ids.countP (g.propagateFailures.1.isFailed ·)) = some last ∧
      last.turn = none ∧ last.graph = g.propagateFailures.1 ∧
      last.count = g.propagateFailures.2 := by
  obtain ⟨last, hafter, hend, hgraph, hcount⟩ := (Search.Follows.start g).exists_end
  have hturns : g.ids.countP (g.propagateFailures.1.isFailed ·) =
      (g.ids.filter (g.isFailed ·)).length + g.newlyFailed.length := by
    rw [← countP_failed_since, ← List.countP_eq_length_filter,
      List.countP_eq_countP_filter_add _ _ (g.isFailed ·), List.countP_filter, List.countP_filter]
    congr 1
    apply List.countP_congr
    intro id _
    have hkept : g.isFailed id = true → g.propagateFailures.1.isFailed id = true :=
      (extends_propagateFailures g).isFailed
    simpa using hkept
  rw [hturns]
  refine ⟨last, hafter, hend, ?_, ?_⟩
  · rw [hgraph, List.nil_append]
    rfl
  · rw [hcount, List.length_nil, Nat.zero_add]
    rfl

/-- **Failures spread to all that leads to them, and no further.** The search for dependents
comes to an end, at a graph in which whoever leads to a failed module has failed: once, and
by a dependency on a shortest way there. Spreading failures again changes nothing. -/
theorem failures_spread_to_dependents (g : Graph) (hinside : g.EdgesInside) :
    g.SpreadTo g.propagateFailures.1 g.propagateFailures.2 ∧
    g.propagateFailures.1.propagateFailures = (g.propagateFailures.1, 0) ∧
    ∃ last, g.search.after (g.ids.countP (g.propagateFailures.1.isFailed ·)) = some last ∧
      last.turn = none ∧ last.graph = g.propagateFailures.1 ∧
      last.count = g.propagateFailures.2 := by
  have hclosed : g.propagateFailures.1.FailureClosed :=
    failureClosed_propagateFailures fun e he => (hinside e he).1
  exact ⟨spreadTo_propagateFailures hinside, hclosed.propagateFailures_eq, exists_end_search g⟩

/-- A module of some name, with the errors it has. -/
def failing (name : String) (errors : List ModuleError) : Node :=
  ⟨Module.plain name "lib" "", ProviderStore.empty, errors⟩

/-- Two modules have failed. A circle of three leads to the first, and one module of the
circle depends on the second as well; the last module is depended on only. -/
def tangle : Graph where
  nodes := [failing "core" [.conversion "no"], failing "net" [.tree "gone", .conversion "no"],
    failing "a" [], failing "b" [], failing "c" [], failing "leaf" []]
  edges := [⟨2, 0, .ordinary⟩, ⟨3, 2, .outputOf "x"⟩, ⟨4, 3, .license⟩, ⟨2, 4, .conversionOnly⟩,
    ⟨4, 1, .ordinary⟩, ⟨4, 5, .ordinary⟩]

theorem tangle_fails_by_the_shortest_ways :
    tangle.EdgesInside ∧
      (∃ dep n, tangle.dependsOn 4 dep = true ∧ tangle.FailureAt n dep ∧
        tangle.propagateFailures.1.errors 4 = [.dependencyFailed (tangle.module dep).name]) ∧
      tangle.propagateFailures.1.errors 4 = [.dependencyFailed "net"] ∧
      ¬ (∃ b, tangle.Reaches 5 b ∧ tangle.isFailed b = true) ∧
      tangle.propagateFailures.1.propagateFailures.2 = 0 ∧
      ∃ last, tangle.search.after 5 = some last ∧ last.turn = none ∧ last.count = 3 := by
  have hinside : tangle.EdgesInside := by unfold EdgesInside; decide
  have hturns : tangle.ids.countP (tangle.propagateFailures.1.isFailed ·) = 5 := by
    decide +kernel
  obtain ⟨hspread, hagain, last, hafter, hend, -, hcount⟩ :=
    failures_spread_to_dependents tangle hinside
  rw [hturns] at hafter
  refine ⟨hinside, ?_, by decide +kernel, ?_, ?_, last, hafter, hend, ?_⟩
  · obtain ⟨dep, n, hdep, hdistance, -, hone⟩ :=
      hspread.cause 4 (by decide) (by decide +kernel)
    exact ⟨dep, n, hdep, hdistance, hone⟩
  · rw [← hspread.failed 5]
    decide +kernel
  · rw [hagain]
  · rw [hcount]
    decide +kernel

end Graph

end TargetGen
