import Mathlib.Data.Fintype.Pigeonhole
import Mathlib.Logic.Relation
import TargetGen.Proofs.Graph.Frame
import TargetGen.Proofs.Phase.Waves

/-!
# Cycles — when a graph has no levels

Levels are peeled off: those modules that wait for none of the remaining ones
form the next level. The peeling stops short of the end only if every module
that remains waits for another one that remains. In a finite graph that means a
cycle of ordering edges (`exists_transGen_of_waits`), and the modules of a cycle
keep each other from ever being ready (`levelsOf_of_waits`). So there are no
levels just when ordering edges make a cycle, whichever neighbours come first.
-/

namespace TargetGen.Graph

variable {g g' : Graph} {d : Direction} {a b id : ModuleId} {remaining : List ModuleId}

/-! ## Waiting -/

/-- An edge that orders modules leads from `a` to `b`. -/
def Orders (g : Graph) (a b : ModuleId) : Prop :=
  ∃ e ∈ g.edges, e.tag.orders = true ∧ e.source = a ∧ e.target = b

/-- Edges that order modules lead from some module back to it. -/
def Cyclic (g : Graph) : Prop := ∃ id, Relation.TransGen g.Orders id id

/-- `a` has to wait for `b` if neighbours in direction `d` come first. -/
def WaitsFor (g : Graph) (d : Direction) (a b : ModuleId) : Prop :=
  ∃ e ∈ g.edges, e.tag.orders = true ∧ e.waiting d = a ∧ e.awaited d = b

@[simp] theorem waitsFor_dependents : g.WaitsFor .dependents a b ↔ g.Orders b a := by
  constructor
  · rintro ⟨e, he, horders, hwaiting, hawaited⟩
    exact ⟨e, he, horders, hawaited, hwaiting⟩
  · rintro ⟨e, he, horders, hsource, htarget⟩
    exact ⟨e, he, horders, htarget, hsource⟩

theorem transGen_waitsFor :
    Relation.TransGen (g.WaitsFor d) id id ↔ Relation.TransGen g.Orders id id := by
  cases d with
  | dependencies => exact Iff.rfl
  | dependents =>
    have hswap : g.WaitsFor .dependents = Function.swap g.Orders := by
      funext a b
      exact propext waitsFor_dependents
    rw [hswap, Relation.transGen_swap]

theorem isReady_iff : g.isReady d remaining id = true ↔ ∀ b ∈ remaining, ¬ g.WaitsFor d id b := by
  constructor
  · rintro h b hb ⟨e, he, horders, hwaiting, rfl⟩
    exact awaited_notMem_of_isReady h he horders hwaiting hb
  · intro h
    refine List.all_eq_true.mpr fun e he => ?_
    by_contra hno
    simp only [Bool.not_eq_true', Bool.not_eq_false, Bool.and_eq_true, decide_eq_true_eq,
      List.contains_iff_mem] at hno
    obtain ⟨⟨horders, hwaiting⟩, hawaited⟩ := hno
    exact h _ hawaited ⟨e, he, horders, hwaiting, rfl⟩

theorem mem_waitingAmong :
    id ∈ g.waitingAmong d remaining ↔ id ∈ remaining ∧ ∃ b ∈ remaining, g.WaitsFor d id b := by
  rw [waitingAmong, List.mem_filter, Bool.not_eq_true', Bool.eq_false_iff, Ne, isReady_iff]
  simp only [not_forall, not_not, exists_prop]

/-! ## Peeling -/

/-- Where each of finitely many modules waits for one of them, they wait in a circle. -/
theorem exists_transGen_of_waits (hne : remaining ≠ [])
    (h : ∀ a ∈ remaining, ∃ b ∈ remaining, g.WaitsFor d a b) :
    ∃ a, Relation.TransGen (g.WaitsFor d) a a := by
  have hnext : ∀ a : {a // a ∈ remaining}, ∃ b : {a // a ∈ remaining}, g.WaitsFor d a b := by
    rintro ⟨a, ha⟩
    obtain ⟨b, hb, hwaits⟩ := h a ha
    exact ⟨⟨b, hb⟩, hwaits⟩
  choose next hwaits using hnext
  obtain ⟨first, hfirst⟩ := List.exists_mem_of_ne_nil remaining hne
  -- the chain of waiting modules comes back to one of them
  let chain : ℕ → {a // a ∈ remaining} := fun n => next^[n] ⟨first, hfirst⟩
  have hstep : ∀ n, Relation.TransGen (g.WaitsFor d) (chain n).1 (chain (n + 1)).1 := by
    intro n
    apply Relation.TransGen.single
    show g.WaitsFor d (chain n).1 (next^[n + 1] ⟨first, hfirst⟩).1
    rw [Function.iterate_succ_apply']
    exact hwaits _
  have hchain : ∀ {m n}, m < n → Relation.TransGen (g.WaitsFor d) (chain m).1 (chain n).1 :=
    fun {m n} hlt => Nat.rel_of_forall_rel_succ_of_lt (Relation.TransGen (g.WaitsFor d)) hstep hlt
  obtain ⟨m, n, hne, heq⟩ := Finite.exists_ne_map_eq_of_infinite chain
  rcases Nat.lt_or_gt_of_ne hne with hlt | hlt
  · have hcircle := hchain hlt
    rw [← heq] at hcircle
    exact ⟨_, hcircle⟩
  · have hcircle := hchain hlt
    rw [heq] at hcircle
    exact ⟨_, hcircle⟩

/-- Modules that keep each other waiting never come to a level. -/
theorem levelsOf_of_waits (waiting : ModuleId → Prop) (hinside : ∀ a, waiting a → a ∈ remaining)
    (hwaits : ∀ a, waiting a → ∃ b, waiting b ∧ g.WaitsFor d a b) (hsome : ∃ a, waiting a) :
    g.levelsOf d remaining = none := by
  fun_induction levelsOf g d remaining with
  | case1 =>
    obtain ⟨a, ha⟩ := hsome
    cases hinside a ha
  | case2 remaining _ _ ih =>
    rw [Option.map_eq_none_iff]
    apply ih
    intro a ha
    obtain ⟨b, hb, hab⟩ := hwaits a ha
    exact mem_waitingAmong.mpr ⟨hinside a ha, b, hinside b hb, hab⟩
  | case3 => rfl

theorem exists_transGen_of_levelsOf (h : g.levelsOf d remaining = none) :
    ∃ a, Relation.TransGen (g.WaitsFor d) a a := by
  fun_induction levelsOf g d remaining with
  | case1 => cases h
  | case2 remaining _ _ ih => exact ih (Option.map_eq_none_iff.mp h)
  | case3 remaining hne hall =>
    -- none of them is ready, since as many wait as remain
    have hsame : g.waitingAmong d remaining = remaining :=
      List.filter_sublist.eq_of_length_le (Nat.le_of_not_lt hall)
    apply exists_transGen_of_waits hne
    intro a ha
    rw [← hsame] at ha
    exact (mem_waitingAmong.mp ha).2

/-- Edges that order modules leave modules of the graph. -/
def OrdersInside (g : Graph) : Prop := ∀ a b, g.Orders a b → a < g.size

/-- **There are no levels just where ordering edges make a cycle.** -/
theorem levels_eq_none_iff (h : g.OrdersInside) (d : Direction) :
    g.levels d = none ↔ g.Cyclic := by
  constructor
  · intro hnone
    obtain ⟨id, hcycle⟩ := exists_transGen_of_levelsOf hnone
    exact ⟨id, transGen_waitsFor.mp hcycle⟩
  · rintro ⟨id, hcycle⟩
    -- the modules that wait are those on some cycle
    refine levelsOf_of_waits (fun a => Relation.TransGen (g.WaitsFor d) a a) ?_ ?_
      ⟨id, transGen_waitsFor.mpr hcycle⟩
    · intro a ha
      obtain ⟨b, hab, -⟩ := Relation.TransGen.head'_iff.mp (transGen_waitsFor.mp ha)
      exact mem_ids.mpr (h a b hab)
    · intro a ha
      obtain ⟨b, hab, hba⟩ := Relation.TransGen.head'_iff.mp ha
      exact ⟨b, Relation.TransGen.tail' hba hab, hab⟩

theorem waves_eq_none_iff (h : g.OrdersInside) (order : PhaseOrder) :
    g.waves order = none ↔ order ≠ .parallel ∧ g.Cyclic := by
  cases order with
  | bottomUp => exact (levels_eq_none_iff h .dependencies).trans (by simp)
  | topDown => exact (levels_eq_none_iff h .dependents).trans (by simp)
  | parallel => simp [waves]

/-! ## Graphs with the same ordering edges -/

/-- Two graphs of the same modules have the same edges that order them. -/
structure SameOrder (g g' : Graph) : Prop where
  size : g'.size = g.size
  edges : ∀ e : Edge, e.tag.orders = true → (e ∈ g'.edges ↔ e ∈ g.edges)

namespace SameOrder

theorem orders (h : SameOrder g g') : g'.Orders = g.Orders := by
  funext a b
  apply propext
  constructor
  · rintro ⟨e, he, horders, hends⟩
    exact ⟨e, (h.edges e horders).mp he, horders, hends⟩
  · rintro ⟨e, he, horders, hends⟩
    exact ⟨e, (h.edges e horders).mpr he, horders, hends⟩

theorem cyclic_iff (h : SameOrder g g') : g'.Cyclic ↔ g.Cyclic := by
  rw [Cyclic, h.orders, Cyclic]

theorem ordersInside (h : SameOrder g g') (hg : g.OrdersInside) : g'.OrdersInside := by
  intro a b hab
  rw [h.orders] at hab
  exact h.size ▸ hg a b hab

end SameOrder

end TargetGen.Graph
