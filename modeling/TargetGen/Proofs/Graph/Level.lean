import Mathlib.Data.List.Chain
import TargetGen.Graph.Countdown
import TargetGen.Proofs.Graph.Cycle

/-!
# Levels — where a module stands

Peeling says where a module stands by what it waits for: something in the level
just before its own (`levelsOf_succ`), and nothing in its own level or later
(`levelsOf_earlier`). The first gives a path of as many edges as there are levels
before it, the second says that no path is longer. So the level of a module is the
length of the longest path that leaves it. A longest path of all, read backwards,
leaves the other end, and so both directions have the same number of levels.
-/

namespace TargetGen.Graph

variable {g g' : Graph} {d : Direction} {a b id : ModuleId} {k : Nat}
  {remaining path : List ModuleId} {levels : List (List ModuleId)}

/-! ## Edges between modules of the graph -/

/-- Both ends of every edge are modules of the graph. -/
def EdgesInside (g : Graph) : Prop := ∀ e ∈ g.edges, e.source < g.size ∧ e.target < g.size

theorem edgesInside_of_edges_nil (h : g.edges = []) : g.EdgesInside := by
  intro e he
  rw [h] at he
  cases he

theorem EdgesInside.of_edges_eq (h : g.EdgesInside) (hsize : g'.size = g.size)
    (hedges : g'.edges = g.edges) : g'.EdgesInside := by
  intro e he
  rw [hsize]
  exact h e (hedges ▸ he)

theorem EdgesInside.ordersInside (h : g.EdgesInside) : g.OrdersInside := by
  rintro a b ⟨e, he, -, rfl, -⟩
  exact (h e he).1

theorem EdgesInside.lt_size (h : g.EdgesInside) (hab : g.WaitsFor d a b) :
    a < g.size ∧ b < g.size := by
  obtain ⟨e, he, -, rfl, rfl⟩ := hab
  cases d with
  | dependencies => exact h e he
  | dependents => exact (h e he).symm

@[simp] theorem waitsFor_opposite : g.WaitsFor d.opposite a b ↔ g.WaitsFor d b a := by
  cases d with
  | dependencies => exact waitsFor_dependents
  | dependents => exact waitsFor_dependents.symm

/-! ## Paths -/

/-- A path of ordering edges leaves a module: every module on it waits for the next one. -/
def PathFrom (g : Graph) (d : Direction) (id : ModuleId) (path : List ModuleId) : Prop :=
  (id :: path).IsChain (g.WaitsFor d)

theorem pathFrom_nil (g : Graph) (d : Direction) (id : ModuleId) : g.PathFrom d id [] :=
  List.isChain_singleton id

@[simp] theorem pathFrom_cons :
    g.PathFrom d a (b :: path) ↔ g.WaitsFor d a b ∧ g.PathFrom d b path :=
  List.isChain_cons_cons

theorem PathFrom.nodup (h : g.PathFrom d id path) (hacyclic : ¬ g.Cyclic) :
    (id :: path).Nodup := by
  have hreach : (id :: path).Pairwise (Relation.TransGen (g.WaitsFor d)) :=
    (List.IsChain.imp (fun _ _ => Relation.TransGen.single) h).pairwise
  refine List.nodup_iff_pairwise_ne.mpr (hreach.imp ?_)
  rintro a b hab rfl
  exact hacyclic ⟨a, transGen_waitsFor.mp hab⟩

theorem PathFrom.reverse (h : g.PathFrom d id path) :
    ∃ last back, last ∈ id :: path ∧ back.length = path.length ∧
      g.PathFrom d.opposite last back := by
  have hback : (id :: path).reverse.IsChain (g.WaitsFor d.opposite) := by
    rw [List.isChain_reverse]
    exact List.IsChain.imp (fun _ _ hab => waitsFor_opposite.mpr hab) h
  cases hrev : (id :: path).reverse with
  | nil => simp at hrev
  | cons last back =>
    refine ⟨last, back, ?_, ?_, ?_⟩
    · rw [← List.mem_reverse, hrev]
      exact List.mem_cons_self
    · have hlength := congrArg List.length hrev
      simpa using hlength.symm
    · rw [hrev] at hback
      exact hback

/-- The longest path that leaves a module has `k` edges. It comes to no module twice,
and no path at all has more edges. -/
structure LongestFrom (g : Graph) (d : Direction) (id : ModuleId) (k : Nat) : Prop where
  reached : ∃ path, g.PathFrom d id path ∧ (id :: path).Nodup ∧ path.length = k
  bound : ∀ path, g.PathFrom d id path → path.length ≤ k

/-! ## Where a module stands -/

/-- A module stands in the level with index `k`. -/
def StandsAt (levels : List (List ModuleId)) (id : ModuleId) (k : Nat) : Prop :=
  ∃ level, levels[k]? = some level ∧ id ∈ level

@[simp] theorem standsAt_zero {level : List ModuleId} :
    StandsAt (level :: levels) id 0 ↔ id ∈ level := by
  simp [StandsAt]

@[simp] theorem standsAt_succ {level : List ModuleId} :
    StandsAt (level :: levels) id (k + 1) ↔ StandsAt levels id k := by
  simp [StandsAt]

theorem StandsAt.lt_length (h : StandsAt levels id k) : k < levels.length := by
  obtain ⟨level, hlevel, -⟩ := h
  exact (List.getElem?_eq_some_iff.mp hlevel).1

theorem exists_standsAt : (∃ k, StandsAt levels id k) ↔ id ∈ levels.flatten := by
  rw [List.mem_flatten]
  constructor
  · rintro ⟨k, level, hlevel, hid⟩
    exact ⟨level, List.mem_of_getElem? hlevel, hid⟩
  · rintro ⟨level, hlevel, hid⟩
    obtain ⟨k, hk⟩ := List.mem_iff_getElem?.mp hlevel
    exact ⟨k, level, hk, hid⟩

/-- The first level is what is ready; the others are the levels of what waits. -/
theorem levelsOf_eq_cons {level : List ModuleId} (h : g.levelsOf d remaining = some (level :: levels)) :
    level = g.readyAmong d remaining ∧
      g.levelsOf d (g.waitingAmong d remaining) = some levels := by
  rw [levelsOf] at h
  split at h
  · cases h
  · split at h
    · obtain ⟨later, hlater, heq⟩ := Option.map_eq_some_iff.mp h
      obtain ⟨rfl, rfl⟩ := List.cons.inj heq
      exact ⟨rfl, hlater⟩
    · cases h

theorem mem_readyAmong :
    id ∈ g.readyAmong d remaining ↔ id ∈ remaining ∧ ∀ b ∈ remaining, ¬ g.WaitsFor d id b := by
  rw [readyAmong, List.mem_filter, isReady_iff]

theorem mem_levelsOf (h : g.levelsOf d remaining = some levels) {level : List ModuleId}
    (hlevel : level ∈ levels) : level ≠ [] ∧ level.Sublist remaining := by
  fun_induction levelsOf g d remaining generalizing levels with
  | case1 =>
    obtain rfl := Option.some.inj h
    cases hlevel
  | case2 remaining _ hlt ih =>
    obtain ⟨later, hlater, rfl⟩ := Option.map_eq_some_iff.mp h
    rcases List.mem_cons.mp hlevel with rfl | hlevel
    · -- fewer wait than remain
      have hlength := (readyAmong_append_waitingAmong_perm g d remaining).length_eq
      rw [List.length_append] at hlength
      refine ⟨fun hnil => ?_, List.filter_sublist⟩
      rw [hnil, List.length_nil] at hlength
      omega
    · obtain ⟨hne, hsub⟩ := ih hlater hlevel
      exact ⟨hne, hsub.trans List.filter_sublist⟩
  | case3 => cases h

/-- **Neighbours come earlier**, if they are among what remains at all. -/
theorem levelsOf_earlier (h : g.levelsOf d remaining = some levels) (ha : StandsAt levels a k)
    (hab : g.WaitsFor d a b) (hb : b ∈ remaining) : ∃ j < k, StandsAt levels b j := by
  induction k generalizing remaining levels with
  | zero =>
    cases levels with
    | nil => cases ha.lt_length
    | cons level levels =>
      obtain ⟨rfl, -⟩ := levelsOf_eq_cons h
      exact absurd hab ((mem_readyAmong.mp (standsAt_zero.mp ha)).2 b hb)
  | succ k ih =>
    cases levels with
    | nil => cases ha.lt_length
    | cons level levels =>
      obtain ⟨rfl, hlater⟩ := levelsOf_eq_cons h
      by_cases hready : b ∈ g.readyAmong d remaining
      · exact ⟨0, Nat.succ_pos k, standsAt_zero.mpr hready⟩
      · have hwaiting : b ∈ g.waitingAmong d remaining := by
          rw [mem_readyAmong] at hready
          rw [mem_waitingAmong]
          exact ⟨hb, by simpa [hb] using hready⟩
        obtain ⟨j, hj, hstands⟩ := ih hlater (standsAt_succ.mp ha) hwaiting
        exact ⟨j + 1, Nat.succ_lt_succ hj, standsAt_succ.mpr hstands⟩

/-- **A module waits for one in the level just before its own.** -/
theorem levelsOf_succ (h : g.levelsOf d remaining = some levels)
    (ha : StandsAt levels a (k + 1)) : ∃ b, g.WaitsFor d a b ∧ StandsAt levels b k := by
  induction k generalizing remaining levels with
  | zero =>
    match levels with
    | [] => cases ha.lt_length
    | [_] => exact absurd ha.lt_length (Nat.lt_irrefl 1)
    | first :: second :: levels =>
      obtain ⟨rfl, hlater⟩ := levelsOf_eq_cons h
      obtain ⟨rfl, -⟩ := levelsOf_eq_cons hlater
      obtain ⟨hwaits, hready⟩ := mem_readyAmong.mp (standsAt_zero.mp (standsAt_succ.mp ha))
      obtain ⟨-, b, hb, hab⟩ := mem_waitingAmong.mp hwaits
      refine ⟨b, hab, standsAt_zero.mpr (mem_readyAmong.mpr ⟨hb, fun c hc hbc => ?_⟩)⟩
      -- what `a` waits for does not wait itself, or else `a` were not ready next
      exact hready b (mem_waitingAmong.mpr ⟨hb, c, hc, hbc⟩) hab
  | succ k ih =>
    cases levels with
    | nil => cases ha.lt_length
    | cons level levels =>
      obtain ⟨-, hlater⟩ := levelsOf_eq_cons h
      obtain ⟨b, hab, hb⟩ := ih hlater (standsAt_succ.mp ha)
      exact ⟨b, hab, standsAt_succ.mpr hb⟩

/-! ## The longest paths -/

section Levels

variable (hlevels : g.levels d = some levels)
include hlevels

theorem not_cyclic_of_levels (hinside : g.EdgesInside) : ¬ g.Cyclic := by
  intro hcyclic
  rw [(levels_eq_none_iff hinside.ordersInside d).mpr hcyclic] at hlevels
  cases hlevels

theorem exists_standsAt_of_lt (hid : id < g.size) : ∃ k, StandsAt levels id k :=
  exists_standsAt.mpr ((levelsOf_perm hlevels).mem_iff.mpr (mem_ids.mpr hid))

theorem StandsAt.exists_path (ha : StandsAt levels a k) :
    ∃ path, g.PathFrom d a path ∧ path.length = k := by
  induction k generalizing a with
  | zero => exact ⟨[], pathFrom_nil g d a, rfl⟩
  | succ k ih =>
    obtain ⟨b, hab, hb⟩ := levelsOf_succ hlevels ha
    obtain ⟨path, hpath, hlength⟩ := ih hb
    exact ⟨b :: path, pathFrom_cons.mpr ⟨hab, hpath⟩, congrArg (· + 1) hlength⟩

theorem StandsAt.length_le (hinside : g.EdgesInside) (ha : StandsAt levels a k)
    (hpath : g.PathFrom d a path) : path.length ≤ k := by
  induction path generalizing a k with
  | nil => exact Nat.zero_le k
  | cons b path ih =>
    obtain ⟨hab, hrest⟩ := pathFrom_cons.mp hpath
    obtain ⟨j, hj, hb⟩ := levelsOf_earlier hlevels ha hab (mem_ids.mpr (hinside.lt_size hab).2)
    exact Nat.succ_le_of_lt (Nat.lt_of_le_of_lt (ih hb hrest) hj)

/-- **The level of a module is the length of the longest path that leaves it.** -/
theorem StandsAt.longestFrom (hinside : g.EdgesInside) (ha : StandsAt levels a k) :
    g.LongestFrom d a k where
  reached := by
    obtain ⟨path, hpath, hlength⟩ := ha.exists_path hlevels
    exact ⟨path, hpath, hpath.nodup (not_cyclic_of_levels hlevels hinside), hlength⟩
  bound path hpath := ha.length_le hlevels hinside hpath

end Levels

/-- Levels in which every module stands once, as far behind as its longest path is long. -/
structure Layered (g : Graph) (d : Direction) (levels : List (List ModuleId)) : Prop where
  nonempty : ∀ level ∈ levels, level ≠ []
  increasing : ∀ level ∈ levels, level.Pairwise (· < ·)
  once : levels.flatten.Perm g.ids
  longest : ∀ id k, StandsAt levels id k → g.LongestFrom d id k
  earlier : ∀ a b k, StandsAt levels a k → g.WaitsFor d a b → ∃ j < k, StandsAt levels b j

theorem layered_of_levels (hinside : g.EdgesInside) (h : g.levels d = some levels) :
    g.Layered d levels where
  nonempty _ hlevel := (mem_levelsOf h hlevel).1
  increasing _ hlevel := List.pairwise_lt_range.sublist (mem_levelsOf h hlevel).2
  once := levelsOf_perm h
  longest _ _ hid := hid.longestFrom h hinside
  earlier _ _ _ ha hab := levelsOf_earlier h ha hab (mem_ids.mpr (hinside.lt_size hab).2)

/-! ## Both directions -/

theorem PathFrom.lt_size (hinside : g.EdgesInside) (hpath : g.PathFrom d a path)
    (ha : a < g.size) : ∀ b ∈ a :: path, b < g.size := by
  induction path generalizing a with
  | nil => simpa using ha
  | cons b path ih =>
    obtain ⟨hab, hrest⟩ := pathFrom_cons.mp hpath
    intro c hc
    rcases List.mem_cons.mp hc with rfl | hc
    · exact ha
    · exact ih hrest (hinside.lt_size hab).2 c hc

/-- A path of as many edges as there are levels less one, backwards, leaves a module
that stands as far behind in the other direction. -/
theorem length_levels_le {levels' : List (List ModuleId)} (hinside : g.EdgesInside)
    (h : g.levels d = some levels) (h' : g.levels d.opposite = some levels') :
    levels.length ≤ levels'.length := by
  cases hlength : levels.length with
  | zero => exact Nat.zero_le _
  | succ last =>
    have hlast : last < levels.length := hlength ▸ Nat.lt_succ_self last
    obtain ⟨hne, hsub⟩ := mem_levelsOf h (List.getElem_mem hlast)
    obtain ⟨a, ha⟩ := List.exists_mem_of_ne_nil _ hne
    have hstands : StandsAt levels a last := ⟨_, List.getElem?_eq_getElem hlast, ha⟩
    obtain ⟨path, hpath, hedges⟩ := hstands.exists_path h
    obtain ⟨b, back, hb, hback, hopposite⟩ := hpath.reverse
    have hlt : b < g.size := hpath.lt_size hinside (mem_ids.mp (hsub.subset ha)) b hb
    obtain ⟨k, hk⟩ := exists_standsAt_of_lt h' hlt
    calc last + 1 = back.length + 1 := by rw [hback, hedges]
      _ ≤ k + 1 := Nat.succ_le_succ (hk.length_le h' hinside hopposite)
      _ ≤ levels'.length := hk.lt_length

/-- **Both directions have the same number of levels**, or both have none. -/
theorem length_levels_opposite (hinside : g.EdgesInside) (d : Direction) :
    (g.levels d.opposite).map List.length = (g.levels d).map List.length := by
  have hnone : g.levels d.opposite = none ↔ g.levels d = none :=
    (levels_eq_none_iff hinside.ordersInside _).trans
      (levels_eq_none_iff hinside.ordersInside d).symm
  cases h : g.levels d with
  | none => rw [hnone.mpr h]
  | some levels =>
    cases h' : g.levels d.opposite with
    | none => cases h.symm.trans (hnone.mp h')
    | some levels' =>
      have hback : g.levels d.opposite.opposite = some levels := by
        cases d <;> exact h
      exact congrArg some (Nat.le_antisymm (length_levels_le hinside h' hback)
        (length_levels_le hinside h h'))

/-! ## What levels depend on -/

theorem waitsFor_congr (horders : ∀ a b, g'.Orders a b ↔ g.Orders a b) :
    g'.WaitsFor d a b ↔ g.WaitsFor d a b := by
  cases d with
  | dependencies => exact horders a b
  | dependents => exact waitsFor_dependents.trans ((horders b a).trans waitsFor_dependents.symm)

/-- **Levels depend on which modules are ordered only**: it makes no difference by how many
edges they are, by edges of which tags, and what other edges there are. -/
theorem levels_congr (hsize : g'.size = g.size) (horders : ∀ a b, g'.Orders a b ↔ g.Orders a b)
    (d : Direction) : g'.levels d = g.levels d := by
  have hready : g'.isReady d = g.isReady d := by
    funext remaining id
    rw [Bool.eq_iff_iff, isReady_iff, isReady_iff]
    exact forall₂_congr fun b _ => not_congr (waitsFor_congr horders)
  rw [levels, levels, ids, ids, hsize, levelsOf_congr hready]

end TargetGen.Graph
