import Mathlib.Data.List.Basic
import TargetGen.Phase.Basic

/-!
# Waves — every module has its place in one of them

Whatever its order, a phase that finds waves at all visits each module of the
graph exactly once: the waves, one after the other, are the modules in another
order. Where edges order the modules, what a module waits for stands in a wave
before its own (`levelsOf_awaited`): it is ready only once nothing that remains
is waited for.
-/

namespace TargetGen.Graph

variable {g : Graph} {d : Direction}

theorem readyAmong_append_waitingAmong_perm (g : Graph) (d : Direction)
    (remaining : List ModuleId) :
    (g.readyAmong d remaining ++ g.waitingAmong d remaining).Perm remaining :=
  List.filter_append_perm _ remaining

theorem levelsOf_perm {remaining : List ModuleId} {levels : List (List ModuleId)}
    (h : g.levelsOf d remaining = some levels) : levels.flatten.Perm remaining := by
  fun_induction levelsOf g d remaining generalizing levels with
  | case1 =>
    obtain rfl := Option.some.inj h
    exact List.Perm.nil
  | case2 remaining _ _ ih =>
    obtain ⟨later, hlater, rfl⟩ := Option.map_eq_some_iff.mp h
    rw [List.flatten_cons]
    exact ((ih hlater).append_left _).trans (readyAmong_append_waitingAmong_perm g d remaining)
  | case3 => cases h

/-- **Waves visit every module once.** -/
theorem waves_perm {order : PhaseOrder} {waves : List (List ModuleId)}
    (h : g.waves order = some waves) : waves.flatten.Perm g.ids := by
  cases order with
  | bottomUp => exact levelsOf_perm h
  | topDown => exact levelsOf_perm h
  | parallel =>
    obtain rfl := Option.some.inj h
    split
    next hempty =>
      have hnil : g.nodes = [] := by simpa using hempty
      simp [ids, size, hnil]
    next => simp

theorem waves_of_edges_nil (h : g.edges = []) (order : PhaseOrder) :
    ∃ waves, g.waves order = some waves ∧ waves.length ≤ 1 := by
  have hlevels : ∀ d, ∃ levels, g.levels d = some levels ∧ levels.length ≤ 1 := by
    intro d
    have hready : ∀ id, g.isReady d g.ids id = true := by
      intro id
      rw [isReady, h]
      rfl
    unfold levels
    rw [levelsOf]
    split
    next => exact ⟨[], rfl, Nat.zero_le 1⟩
    next hne =>
      have hwaiting : g.waitingAmong d g.ids = [] := by
        rw [waitingAmong, List.filter_eq_nil_iff]
        simp [hready]
      rw [hwaiting, List.length_nil, if_pos (List.length_pos_iff.mpr hne), levelsOf, if_pos rfl]
      exact ⟨_, rfl, Nat.le_refl 1⟩
  cases order with
  | bottomUp => exact hlevels .dependencies
  | topDown => exact hlevels .dependents
  | parallel =>
    refine ⟨_, rfl, ?_⟩
    split <;> simp

/-! ## What comes first -/

theorem awaited_notMem_of_isReady {remaining : List ModuleId} {id : ModuleId} {e : Edge}
    (h : g.isReady d remaining id = true) (he : e ∈ g.edges) (horders : e.tag.orders = true)
    (hwaiting : e.waiting d = id) : e.awaited d ∉ remaining := by
  have hedge := List.all_eq_true.mp h e he
  simpa [horders, hwaiting] using hedge

/-- **What is waited for comes first**, if it is among what remains at all. -/
theorem levelsOf_awaited {remaining : List ModuleId} {levels earlier later : List (List ModuleId)}
    {level : List ModuleId} {e : Edge} (h : g.levelsOf d remaining = some levels)
    (hsplit : levels = earlier ++ level :: later) (he : e ∈ g.edges)
    (horders : e.tag.orders = true) (hwaiting : e.waiting d ∈ level)
    (hawaited : e.awaited d ∈ remaining) : e.awaited d ∈ earlier.flatten := by
  fun_induction levelsOf g d remaining generalizing levels earlier with
  | case1 =>
    obtain rfl := Option.some.inj h
    simp at hsplit
  | case2 remaining _ _ ih =>
    obtain ⟨rest, hrest, rfl⟩ := Option.map_eq_some_iff.mp h
    cases earlier with
    | nil =>
      -- the first level waits for nothing that remains
      obtain ⟨rfl, -⟩ := List.cons.inj hsplit
      obtain ⟨-, hready⟩ := List.mem_filter.mp hwaiting
      exact absurd hawaited (awaited_notMem_of_isReady hready he horders rfl)
    | cons first earlier =>
      obtain ⟨rfl, htail⟩ := List.cons.inj hsplit
      rw [List.flatten_cons, List.mem_append]
      by_cases hfirst : g.isReady d remaining (e.awaited d) = true
      · exact .inl (List.mem_filter.mpr ⟨hawaited, hfirst⟩)
      · refine .inr (ih hrest htail ?_)
        exact List.mem_filter.mpr ⟨hawaited, by simpa using hfirst⟩
  | case3 => cases h

/-! ## Graphs whose modules are ready alike -/

theorem levelsOf_congr {g' : Graph} (h : g'.isReady d = g.isReady d)
    (remaining : List ModuleId) : g'.levelsOf d remaining = g.levelsOf d remaining := by
  have hready : g'.readyAmong d = g.readyAmong d := by
    funext remaining
    rw [readyAmong, h, readyAmong]
  have hwaiting : g'.waitingAmong d = g.waitingAmong d := by
    funext remaining
    rw [waitingAmong, h, waitingAmong]
  fun_induction levelsOf g d remaining with
  | case1 => rw [levelsOf, if_pos rfl]
  | case2 remaining hne hlt ih => rw [levelsOf, if_neg hne, hwaiting, if_pos hlt, ih, hready]
  | case3 remaining hne hall => rw [levelsOf, if_neg hne, hwaiting, if_neg hall]

end TargetGen.Graph
