import TargetGen.Proofs.Graph.Level
import TargetGen.Proofs.Graph.Propagation

/-!
# Distance — how far a module is from where failures began

The queue of `Graph.spread` is worked off in the order of distance. At every time
it consists of two parts: `near` modules at some distance `k`, and behind them
`far` ones that are one edge further away. What is not reached yet is further away
than the near ones, and those of it at distance `k + 1` depend on a near module
that is still queued. This is the invariant `Front`. A turn keeps it
(`Front.advance`); and once the near part is used up, the far part is the near part
of the next distance (`Front.recede`).

So a module is reached from a dependency that is exactly one edge closer to a
failed module than it is itself (`spread_distance`).
-/

namespace TargetGen.Graph

variable {g : Graph} {k n : Nat} {a b id dep : ModuleId} {near far sound : List ModuleId}

/-! ## Distances -/

/-- A path of `n` edges leads from a module to one that has failed. -/
def LeadsToFailure (g : Graph) : Nat → ModuleId → Prop
  | 0, id => g.isFailed id = true
  | n + 1, id => ∃ dep, g.dependsOn id dep = true ∧ g.LeadsToFailure n dep

/-- A shortest path from a module to one that has failed has `n` edges. -/
structure FailureAt (g : Graph) (n : Nat) (id : ModuleId) : Prop where
  path : g.LeadsToFailure n id
  shortest : ∀ k, g.LeadsToFailure k id → n ≤ k

theorem LeadsToFailure.lt_size (hinside : g.EdgesInside) (h : g.LeadsToFailure n id) :
    id < g.size := by
  cases n with
  | zero => exact lt_size_of_isFailed h
  | succ n =>
    obtain ⟨dep, hdep, -⟩ := h
    obtain ⟨tag, he⟩ := dependsOn_iff.mp hdep
    exact (hinside _ he).1

/-! ## The front of the search -/

/-- How the worklist stands at distance `k`: its first part `near` is at that distance,
the other part `far` one edge further. Nothing in `sound` is as close as that, what is
next in it depends on something near, and what is not there is no further than `far`. -/
structure Front (g : Graph) (k : Nat) (near far sound : List ModuleId) : Prop where
  near_at : ∀ id ∈ near, g.FailureAt k id
  far_at : ∀ id ∈ far, g.FailureAt (k + 1) id
  beyond : ∀ id ∈ sound, ∀ n, g.LeadsToFailure n id → k < n
  next : ∀ id ∈ sound, g.LeadsToFailure (k + 1) id → ∃ dep ∈ near, g.dependsOn id dep = true
  rest : ∀ id < g.size, (∀ n, g.LeadsToFailure n id → k < n) → id ∈ sound ∨ id ∈ far

namespace Front

theorem start (g : Graph) :
    g.Front 0 (g.ids.filter (g.isFailed ·)) [] (g.ids.filter fun id => !g.isFailed id) where
  near_at id hid := by
    have hfailed : g.isFailed id = true := (List.mem_filter.mp hid).2
    exact ⟨hfailed, fun k _ => Nat.zero_le k⟩
  far_at id hid := by cases hid
  beyond id hid n hpath := by
    rw [Nat.pos_iff_ne_zero]
    rintro rfl
    have hsound := (List.mem_filter.mp hid).2
    rw [show g.isFailed id = true from hpath] at hsound
    cases hsound
  next id _ hpath := by
    obtain ⟨dep, hdep, hfailed⟩ := hpath
    have hfailed : g.isFailed dep = true := hfailed
    exact ⟨dep, List.mem_filter.mpr ⟨mem_ids.mpr (lt_size_of_isFailed hfailed), hfailed⟩, hdep⟩
  rest id hid hpath := by
    have hsound : g.isFailed id = false := by
      rw [Bool.eq_false_iff]
      intro hfailed
      exact Nat.lt_irrefl 0 (hpath 0 hfailed)
    simp [hid, hsound]

/-- **A turn reaches what is one edge further away** than the module it works off. -/
theorem advance (h : g.Front k (a :: near) far sound) :
    g.Front k near (far ++ g.reachedFrom a sound) (g.sparedBy a sound) where
  near_at id hid := h.near_at id (List.mem_cons_of_mem a hid)
  far_at id hid := by
    rcases List.mem_append.mp hid with hid | hid
    · exact h.far_at id hid
    · obtain ⟨hsound, hdep⟩ := mem_reachedFrom.mp hid
      exact ⟨⟨a, hdep, (h.near_at a List.mem_cons_self).path⟩, h.beyond id hsound⟩
  beyond id hid := h.beyond id (mem_sparedBy.mp hid).1
  next id hid hpath := by
    obtain ⟨hsound, hspared⟩ := mem_sparedBy.mp hid
    obtain ⟨dep, hdep, hdirect⟩ := h.next id hsound hpath
    rcases List.mem_cons.mp hdep with rfl | hdep
    · rw [hspared] at hdirect
      cases hdirect
    · exact ⟨dep, hdep, hdirect⟩
  rest id hid hpath := by
    rcases h.rest id hid hpath with hsound | hfar
    · cases hdirect : g.dependsOn id a with
      | true => exact .inr (List.mem_append_right far (mem_reachedFrom.mpr ⟨hsound, hdirect⟩))
      | false => exact .inl (mem_sparedBy.mpr ⟨hsound, hdirect⟩)
    · exact .inr (List.mem_append_left _ hfar)

/-- **When nothing near is left**, the far modules are the near ones of the next distance. -/
theorem recede (hinside : g.EdgesInside) (h : g.Front k [] far sound) :
    g.Front (k + 1) far [] sound := by
  have hbeyond : ∀ id ∈ sound, ∀ n, g.LeadsToFailure n id → k + 1 < n := by
    intro id hid n hpath
    have hne : n ≠ k + 1 := by
      rintro rfl
      obtain ⟨dep, hdep, -⟩ := h.next id hid hpath
      cases hdep
    have hlt := h.beyond id hid n hpath
    omega
  refine ⟨h.far_at, ?_, hbeyond, ?_, ?_⟩
  · intro id hid
    cases hid
  · rintro id hid ⟨dep, hdirect, hpath⟩
    -- a dependency that is closer still would bring the module itself too close
    have hdep : ∀ n, g.LeadsToFailure n dep → k < n := by
      intro n hn
      have hlt := hbeyond id hid (n + 1) ⟨dep, hdirect, hn⟩
      omega
    rcases h.rest dep (hpath.lt_size hinside) hdep with hsound | hfar
    · exact absurd (hbeyond dep hsound (k + 1) hpath) (Nat.lt_irrefl _)
    · exact ⟨dep, hfar, hdirect⟩
  · intro id hid hpath
    rcases h.rest id hid (fun n hn => Nat.lt_of_succ_lt (hpath n hn)) with hsound | hfar
    · exact .inl hsound
    · exact absurd (hpath (k + 1) (h.far_at id hfar).path) (Nat.lt_irrefl _)

end Front

/-- **What is reached is one edge further away** than the module from which it was. -/
theorem spread_distance {queue : List ModuleId} (hinside : g.EdgesInside)
    (h : g.Front k near far sound) (hqueue : queue = near ++ far)
    (hpair : (id, dep) ∈ g.spread queue sound) :
    ∃ n, g.FailureAt n dep ∧ g.FailureAt (n + 1) id := by
  fun_induction spread g queue sound generalizing k near far with
  | case1 sound => cases hpair
  | case2 failed queue sound ih =>
    obtain ⟨k, near, far, h, rfl⟩ : ∃ k near far, g.Front k (failed :: near) far sound ∧
        queue = near ++ far := by
      cases near with
      | nil =>
        obtain rfl : failed :: queue = far := hqueue
        exact ⟨k + 1, queue, [], h.recede hinside, by simp⟩
      | cons first near =>
        obtain ⟨rfl, rfl⟩ := List.cons.inj hqueue
        exact ⟨k, near, far, h, rfl⟩
    rcases List.mem_append.mp hpair with hnow | hlater
    · obtain ⟨other, hreached, heq⟩ := List.mem_map.mp hnow
      obtain ⟨rfl, rfl⟩ := Prod.mk.inj heq
      exact ⟨k, h.near_at failed List.mem_cons_self,
        h.advance.far_at other (List.mem_append_right far hreached)⟩
    · exact ih h.advance (by simp) hlater

/-- **A module fails by a dependency that is closer to where failures began.** -/
theorem newlyFailed_distance (hinside : g.EdgesInside) (h : (id, dep) ∈ g.newlyFailed) :
    ∃ n, g.FailureAt n dep ∧ g.FailureAt (n + 1) id :=
  spread_distance hinside (Front.start g) (List.append_nil _).symm h

/-! ## What spreading failures does -/

/-- `g'` is what becomes of `g` when its failures are spread to all dependents, and
`count` modules fail by it. -/
structure SpreadTo (g g' : Graph) (count : Nat) : Prop where
  size : g'.size = g.size
  modules : ∀ id, g'.module id = g.module id
  edges : g'.edges = g.edges
  stores : ∀ id, (g'.node id).store = (g.node id).store
  /-- Who has failed is who leads to a module that had failed before. -/
  failed : ∀ id, g'.isFailed id = true ↔ ∃ b, g.Reaches id b ∧ g.isFailed b = true
  count : count = g.ids.countP fun id => g'.isFailed id && !g.isFailed id
  kept : ∀ id, g.isFailed id = true → g'.errors id = g.errors id
  /-- Who has failed since has one error; it names a dependency that is closer to where
  failures began. -/
  cause : ∀ id, g.isFailed id = false → g'.isFailed id = true →
    ∃ dep n, g.dependsOn id dep = true ∧ g.FailureAt n dep ∧ g.FailureAt (n + 1) id ∧
      g'.errors id = [.dependencyFailed (g.module dep).name]

theorem spreadTo_propagateFailures (hinside : g.EdgesInside) :
    g.SpreadTo g.propagateFailures.1 g.propagateFailures.2 where
  size := size_propagateFailures g
  modules := module_propagateFailures g
  edges := edges_propagateFailures g
  stores := store_propagateFailures g
  failed id := by
    have hclosed := failureClosed_propagateFailures fun e he => (hinside e he).1
    constructor
    · intro hfailed
      by_cases hold : g.isFailed id = true
      · exact ⟨id, .refl, hold⟩
      · obtain ⟨-, -, -, -, b, hreaches, hb⟩ := newly_failed (by simpa using hold) hfailed
        exact ⟨b, hreaches, hb⟩
    · rintro ⟨b, hreaches, hb⟩
      have hext := extends_propagateFailures g
      exact hclosed.of_reaches (hreaches.mono hext) (hext.isFailed hb)
  count := (countP_failed_since g).symm
  kept _ hold := errors_propagateFailures_of_isFailed hold
  cause id hsound hfailed := by
    obtain ⟨dep, hpair, hone⟩ := exists_mem_newlyFailed hsound hfailed
    obtain ⟨n, hdep, hid⟩ := newlyFailed_distance hinside hpair
    exact ⟨dep, n, (spread_cause hpair).1, hdep, hid, hone⟩

end TargetGen.Graph
