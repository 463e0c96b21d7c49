import Mathlib.Algebra.BigOperators.Group.Finset.Basic
import TargetGen.Graph.Countdown
import TargetGen.Proofs.Graph.Level

/-!
# Countdown — counting edges finds the levels

Between two rounds a count is known exactly: it is the number of edges that a
module waits along for modules that were not released (`Round.Exact`). So no edge
is taken away that is not counted, and the counts never stop at zero because they
could not go lower (`Round.Exact.neverBelow`). A release takes away the edges to
the modules of its round, and a module comes down to none by that just when it waits
for one of them and for none that is left. These are the modules that peeling finds
ready next, so the rounds of the countdown are the levels (`rounds_of_exact`).
-/

namespace TargetGen

variable {g : Graph} {d : Direction} {a b id : ModuleId} {ids remaining released : List ModuleId}
  {r : Round} {placed : Nat}

/-! ## Releasing -/

namespace Countdown

theorem pending_release (c : Countdown) (id other : ModuleId) :
    (c.release id).pending.getD other 0 =
      if id = other then c.pending.getD id 0 - 1 else c.pending.getD other 0 := by
  simp only [release, List.getD_eq_getElem?_getD, List.getElem?_set]
  by_cases h : id = other
  · subst h
    by_cases hlt : id < c.pending.length
    · simp [hlt]
    · simp [hlt]
  · simp [h]

/-- A count comes down by one with every release, but not below zero. -/
theorem pending_releaseAll (released : List ModuleId) (c : Countdown) (id : ModuleId) :
    (released.foldl release c).pending.getD id 0 = c.pending.getD id 0 - released.count id := by
  induction released generalizing c with
  | nil => rfl
  | cons first rest ih =>
    rw [List.foldl_cons, ih, pending_release, List.count_cons]
    by_cases h : first = id
    · subst h
      simp only [if_pos, beq_self_eq_true]
      omega
    · simp only [if_neg h, beq_iff_eq, Nat.add_zero]

theorem mem_found_releaseAll (released : List ModuleId) (c : Countdown) (id : ModuleId) :
    id ∈ (released.foldl release c).found ↔
      id ∈ c.found ∨ id ∈ released ∧ c.pending.getD id 0 ≤ released.count id := by
  induction released generalizing c with
  | nil => simp
  | cons first rest ih =>
    have hfound : id ∈ (c.release first).found ↔
        id ∈ c.found ∨ first = id ∧ c.pending.getD id 0 ≤ 1 := by
      by_cases hleft : c.pending.getD first 0 - 1 = 0
      · simp only [release, if_pos hleft, List.mem_append, List.mem_singleton]
        refine or_congr_right ⟨?_, fun h => h.1.symm⟩
        rintro rfl
        exact ⟨rfl, by omega⟩
      · simp only [release, if_neg hleft]
        refine ⟨.inl, ?_⟩
        rintro (h | ⟨rfl, hle⟩)
        · exact h
        · omega
    rw [List.foldl_cons, ih, hfound, pending_release, List.count_cons, List.mem_cons]
    by_cases h : first = id
    · subst h
      simp only [beq_self_eq_true, if_true, true_and, true_or]
      have hrest : first ∈ rest ↔ 0 < rest.count first := List.count_pos_iff.symm
      rw [hrest, or_assoc]
      refine or_congr_right ?_
      omega
    · simp only [h, Ne.symm h, beq_iff_eq, if_false, Nat.add_zero, false_and, false_or, or_false]

end Countdown

namespace Graph

/-! ## Edges counted -/

@[simp] theorem mem_orderingNeighbors : b ∈ g.orderingNeighbors a d ↔ g.WaitsFor d a b := by
  simp only [orderingNeighbors, WaitsFor, List.mem_map, List.mem_filter, Bool.and_eq_true,
    decide_eq_true_eq, and_assoc]

theorem mem_waitersOf : a ∈ g.waitersOf d ids ↔ ∃ b ∈ ids, g.WaitsFor d a b := by
  simp only [waitersOf, List.mem_flatMap, mem_orderingNeighbors, waitsFor_opposite]

theorem isReady_iff_notMem_waitersOf :
    g.isReady d remaining id = true ↔ id ∉ g.waitersOf d remaining := by
  rw [isReady_iff, mem_waitersOf]
  simp only [not_exists, not_and]

@[simp] theorem mem_readyAmong_iff :
    id ∈ g.readyAmong d remaining ↔ id ∈ remaining ∧ id ∉ g.waitersOf d remaining := by
  rw [readyAmong, List.mem_filter, isReady_iff_notMem_waitersOf]

@[simp] theorem mem_waitingAmong_iff :
    id ∈ g.waitingAmong d remaining ↔ id ∈ remaining ∧ id ∈ g.waitersOf d remaining := by
  rw [mem_waitingAmong, mem_waitersOf]

theorem count_orderingNeighbors_opposite (g : Graph) (d : Direction) (a b : ModuleId) :
    (g.orderingNeighbors b d.opposite).count a = (g.orderingNeighbors a d).count b := by
  simp only [orderingNeighbors, List.count_eq_countP, List.countP_map, List.countP_filter]
  apply List.countP_congr
  intro e _
  cases d with
  | dependencies =>
    show (e.source == a && (e.tag.orders && decide (e.target = b))) = true ↔
      (e.target == b && (e.tag.orders && decide (e.source = a))) = true
    simp only [Bool.and_eq_true, beq_iff_eq, decide_eq_true_eq]
    tauto
  | dependents =>
    show (e.target == a && (e.tag.orders && decide (e.source = b))) = true ↔
      (e.source == b && (e.tag.orders && decide (e.target = a))) = true
    simp only [Bool.and_eq_true, beq_iff_eq, decide_eq_true_eq]
    tauto

theorem count_waitersOf_ids (hinside : g.EdgesInside) (d : Direction) (id : ModuleId) :
    (g.waitersOf d g.ids).count id = (g.orderingNeighbors id d).length := by
  have hall : ∀ b ∈ g.orderingNeighbors id d, b < g.size := by
    intro b hb
    exact (hinside.lt_size (mem_orderingNeighbors.mp hb)).2
  calc (g.waitersOf d g.ids).count id
      = (g.ids.map fun b => (g.orderingNeighbors id d).count b).sum := by
        rw [waitersOf, List.count_flatMap]
        refine congrArg List.sum (List.map_congr_left fun b _ => ?_)
        exact count_orderingNeighbors_opposite g d id b
    _ = ∑ b ∈ Finset.range g.size,
          Multiset.count b (g.orderingNeighbors id d : Multiset ModuleId) := by
        simp only [Multiset.coe_count]
        rfl
    _ = (g.orderingNeighbors id d).length :=
        Multiset.sum_count_eq_card fun b hb => Finset.mem_range.mpr (hall b hb)

/-- Edges to some modules are edges to those of them that are ready, or to those that wait. -/
theorem count_waitersOf (g : Graph) (d : Direction) (remaining : List ModuleId) (id : ModuleId) :
    (g.waitersOf d remaining).count id =
      (g.waitersOf d (g.readyAmong d remaining)).count id
        + (g.waitersOf d (g.waitingAmong d remaining)).count id := by
  have hperm := (readyAmong_append_waitingAmong_perm g d remaining).flatMap_right
    (g.orderingNeighbors · d.opposite)
  rw [List.flatMap_append] at hperm
  rw [← List.count_append]
  exact (hperm.count_eq id).symm

end Graph

/-! ## One round -/

/-- What is known of a round: some modules remain, the ready ones among them, and edges to them
are what is counted. A module that does not remain waits for none that does. -/
structure Round.Exact (g : Graph) (d : Direction) (remaining : List ModuleId) (placed : Nat)
    (r : Round) : Prop where
  ready : r.ready = g.readyAmong d remaining
  pending : ∀ id, r.pending.getD id 0 = (g.waitersOf d remaining).count id
  behind : ∀ id ∈ g.waitersOf d remaining, id ∈ remaining
  increasing : remaining.Pairwise (· < ·)
  placed : placed + remaining.length = g.size

/-- An edge that is taken away in a round is one of those counted: no count is at zero
before one is taken from it. -/
def Round.NeverBelow (g : Graph) (d : Direction) (r : Round) : Prop :=
  ∀ before id after, g.waitersOf d r.ready = before ++ id :: after →
    0 < (before.foldl Countdown.release ⟨r.pending, []⟩).pending.getD id 0

namespace Round.Exact

theorem neverBelow (h : r.Exact g d remaining placed) : r.NeverBelow g d := by
  intro before id after hsplit
  have hcount : before.count id < r.pending.getD id 0 := by
    rw [h.pending, Graph.count_waitersOf, ← h.ready, hsplit, List.count_append, List.count_cons_self]
    omega
  rw [Countdown.pending_releaseAll]
  exact Nat.sub_pos_of_lt hcount

theorem length_eq (h : r.Exact g d remaining placed) :
    r.ready.length + (g.waitingAmong d remaining).length = remaining.length := by
  rw [h.ready, ← List.length_append]
  exact (Graph.readyAmong_append_waitingAmong_perm g d remaining).length_eq

/-- **A release finds what is ready next**, and leaves the edges to what still waits. -/
theorem next (h : r.Exact g d remaining placed) :
    (g.nextRound d r).Exact g d (g.waitingAmong d remaining) (placed + r.ready.length) where
  ready := by
    have hincreasing : Ordered.Increasing (compare : Nat → Nat → Ordering)
        (g.readyAmong d (g.waitingAmong d remaining)) := by
      refine ((h.increasing.sublist List.filter_sublist).sublist List.filter_sublist).imp ?_
      intro a b hab
      exact Nat.compare_eq_lt.mpr hab
    refine Ordered.Increasing.eq_of_mem_iff (Ordered.increasing_ofList _) hincreasing fun id => ?_
    show id ∈ Ordered.ofList compare _ ↔ _
    have hsum := Graph.count_waitersOf g d remaining id
    rw [Ordered.mem_ofList_iff, Countdown.mem_found_releaseAll, Graph.mem_readyAmong_iff,
      Graph.mem_waitingAmong_iff, h.ready]
    show id ∈ [] ∨ _ ∧ r.pending.getD id 0 ≤ _ ↔ _
    rw [h.pending, hsum]
    constructor
    · rintro (hnil | ⟨hreleased, hle⟩)
      · cases hnil
      · have hpos := List.count_pos_iff.mpr hreleased
        have hwaits : id ∈ g.waitersOf d remaining := List.count_pos_iff.mp (by omega)
        exact ⟨⟨h.behind id hwaits, hwaits⟩, List.count_eq_zero.mp (by omega)⟩
    · rintro ⟨⟨-, hwaits⟩, hnone⟩
      have hpos := List.count_pos_iff.mpr hwaits
      have hzero := List.count_eq_zero.mpr hnone
      exact .inr ⟨List.count_pos_iff.mp (by omega), by omega⟩
  pending id := by
    show (List.foldl Countdown.release _ _).pending.getD id 0 = _
    rw [Countdown.pending_releaseAll, h.ready]
    show r.pending.getD id 0 - _ = _
    rw [h.pending, Graph.count_waitersOf, Nat.add_sub_cancel_left]
  behind id hid := by
    obtain ⟨b, hb, hwaits⟩ := Graph.mem_waitersOf.mp hid
    have hremaining : id ∈ g.waitersOf d remaining :=
      Graph.mem_waitersOf.mpr ⟨b, List.mem_of_mem_filter hb, hwaits⟩
    exact Graph.mem_waitingAmong_iff.mpr ⟨h.behind id hremaining, hremaining⟩
  increasing := h.increasing.sublist List.filter_sublist
  placed := by
    have hlength := h.length_eq
    have hplaced := h.placed
    omega

end Round.Exact

namespace Graph

theorem exact_firstRound (hinside : g.EdgesInside) (d : Direction) :
    (g.firstRound d).Exact g d g.ids 0 := by
  have hpending : ∀ id, (g.firstRound d).pending.getD id 0 = (g.waitersOf d g.ids).count id := by
    intro id
    show (g.ids.map fun id => (g.orderingNeighbors id d).length).getD id 0 = _
    by_cases hid : id < g.size
    · rw [count_waitersOf_ids hinside, List.getD_eq_getElem?_getD, List.getElem?_map, ids,
        List.getElem?_range hid]
      rfl
    · rw [List.getD_eq_default _ _ (by simpa [ids] using hid), eq_comm, List.count_eq_zero,
        mem_waitersOf]
      rintro ⟨b, -, hwaits⟩
      exact hid (hinside.lt_size hwaits).1
  refine ⟨?_, hpending, ?_, List.pairwise_lt_range, ?_⟩
  · refine List.filter_congr fun id _ => ?_
    rw [Bool.eq_iff_iff, decide_eq_true_eq, isReady_iff_notMem_waitersOf, ← List.count_eq_zero]
    exact iff_of_eq (congrArg (· = 0) (hpending id))
  · intro id hid
    obtain ⟨b, -, hwaits⟩ := mem_waitersOf.mp hid
    exact mem_ids.mpr (hinside.lt_size hwaits).1
  · simp [ids]

/-! ## All rounds -/

theorem rounds_of_exact (h : r.Exact g d remaining placed) :
    ∃ rounds, g.rounds d r placed = some rounds ∧ (∀ r ∈ rounds, r.NeverBelow g d) ∧
      g.levelsOf d remaining =
        if (rounds.map (·.ready)).flatten.length = remaining.length
        then some (rounds.map (·.ready)) else none := by
  have hlength := h.length_eq
  have hplaced := h.placed
  fun_induction levelsOf g d remaining generalizing r placed with
  | case1 =>
    have hready : r.ready = [] := h.ready
    refine ⟨[], ?_, by simp, by simp⟩
    rw [rounds, if_pos hready]
  | case2 remaining _ hlt ih =>
    have hready : r.ready ≠ [] := by
      rintro hnil
      rw [hnil, List.length_nil] at hlength
      omega
    obtain ⟨rest, hrest, hnever, hlevels⟩ := ih h.next h.next.length_eq h.next.placed
    refine ⟨r :: rest, ?_, ?_, ?_⟩
    · rw [rounds, if_neg hready, if_neg (by omega), hrest]
      rfl
    · exact List.forall_mem_cons.mpr ⟨h.neverBelow, hnever⟩
    · rw [hlevels, ← h.ready]
      simp only [List.map_cons, List.flatten_cons, List.length_append]
      by_cases hall : (rest.map (·.ready)).flatten.length = (g.waitingAmong d remaining).length
      · rw [if_pos hall, if_pos (by omega)]
        rfl
      · rw [if_neg hall, if_neg (by omega)]
        rfl
  | case3 remaining hne hall =>
    have hready : r.ready = [] := List.length_eq_zero_iff.mp (by omega)
    refine ⟨[], ?_, by simp, ?_⟩
    · rw [rounds, if_pos hready]
    · rw [if_neg fun hzero => hne (List.length_eq_zero_iff.mp hzero.symm)]

theorem countdown_eq_levels (hinside : g.EdgesInside) (d : Direction) :
    ∃ rounds, g.countdown d = some rounds ∧ (∀ r ∈ rounds, r.NeverBelow g d) ∧
      g.levelsOfRounds rounds = g.levels d := by
  obtain ⟨rounds, hrounds, hnever, hlevels⟩ := rounds_of_exact (exact_firstRound hinside d)
  refine ⟨rounds, hrounds, hnever, ?_⟩
  rw [levels, hlevels, levelsOfRounds]
  simp only [ids, List.length_range]

/-- **Levels are lengths of longest paths, and counting edges finds them.** There are none
just if ordering edges make a cycle, be it one edge from a module to itself. They depend on
which modules are ordered only, not on how many edges order them or what other edges there
are. The countdown ends with them and takes no edge away that it did not count. -/
theorem levels_are_longest_paths (g : Graph) (hinside : g.EdgesInside) (d : Direction) :
    (g.levels d = none ↔ g.Cyclic) ∧
    (∀ levels, g.levels d = some levels → g.Layered d levels) ∧
    (g.levels d.opposite).map List.length = (g.levels d).map List.length ∧
    (∀ g' : Graph, g'.size = g.size → (∀ a b, g'.Orders a b ↔ g.Orders a b) →
      g'.levels d = g.levels d) ∧
    ∃ rounds, g.countdown d = some rounds ∧ (∀ r ∈ rounds, r.NeverBelow g d) ∧
      g.levelsOfRounds rounds = g.levels d := by
  refine ⟨?_, ?_, ?_, ?_, ?_⟩
  · exact levels_eq_none_iff hinside.ordersInside d
  · intro levels hlevels
    exact layered_of_levels hinside hlevels
  · exact length_levels_opposite hinside d
  · intro g' hsize horders
    exact levels_congr hsize horders d
  · exact countdown_eq_levels hinside d

/-- Three modules above one: the last waits for two, for one of them along two edges, and the
two wait for the first. The conversion of the first refers back to the last. -/
def diamond : Graph where
  nodes := List.replicate 4 default
  edges := [⟨1, 0, .ordinary⟩, ⟨2, 0, .ordinary⟩, ⟨3, 1, .ordinary⟩, ⟨3, 1, .license⟩,
    ⟨3, 2, .ordinary⟩, ⟨0, 3, .conversionOnly⟩]

theorem diamond_levels :
    diamond.EdgesInside ∧ diamond.levels .dependencies = some [[0], [1, 2], [3]] ∧
      diamond.LongestFrom .dependencies 3 2 ∧
      (diamond.levels .dependents).map List.length = some 3 ∧
      ∃ rounds, diamond.countdown .dependencies = some rounds ∧
        diamond.levelsOfRounds rounds = some [[0], [1, 2], [3]] := by
  have hinside : diamond.EdgesInside := by unfold EdgesInside; decide
  have hlevels : diamond.levels .dependencies = some [[0], [1, 2], [3]] := by decide +kernel
  obtain ⟨-, hlayered, hlength, -, rounds, hrounds, -, hsame⟩ :=
    levels_are_longest_paths diamond hinside .dependencies
  refine ⟨hinside, hlevels, ?_, ?_, rounds, hrounds, hsame.trans hlevels⟩
  · exact (hlayered _ hlevels).longest 3 2 ⟨[3], rfl, List.mem_singleton_self 3⟩
  · rw [hlevels] at hlength
    exact hlength

end Graph

end TargetGen
