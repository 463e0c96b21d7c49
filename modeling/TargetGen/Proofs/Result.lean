import Mathlib.Data.List.Forall2

/-!
# Results — what a computation that may fail came to

One computation after another gives a result if both do, and the first error
otherwise. So it is with a function that is tried on all items of a list: every
item has its result, in order, or some item has an error.
-/

namespace TargetGen

variable {ε α β γ : Type}

/-! ## One after another -/

theorem bind_eq_ok {r : Except ε α} {f : α → Except ε β} {b : β} (h : (r >>= f) = .ok b) :
    ∃ a, r = .ok a ∧ f a = .ok b := by
  cases r with
  | error e => cases h
  | ok a => exact ⟨a, rfl, h⟩

theorem bind_eq_error {r : Except ε α} {f : α → Except ε β} {e : ε} (h : (r >>= f) = .error e) :
    r = .error e ∨ ∃ a, r = .ok a ∧ f a = .error e := by
  cases r with
  | error e' => exact .inl (congrArg Except.error (Except.error.inj h))
  | ok a => exact .inr ⟨a, rfl, h⟩

theorem map_eq_ok {r : Except ε α} {f : α → β} {b : β} (h : r.map f = .ok b) :
    ∃ a, r = .ok a ∧ f a = b := by
  cases r with
  | error e => cases h
  | ok a => exact ⟨a, rfl, Except.ok.inj h⟩

theorem map_eq_error {r : Except ε α} {f : α → β} {e : ε} (h : r.map f = .error e) :
    r = .error e := by
  cases r with
  | error e' => exact congrArg Except.error (Except.error.inj h)
  | ok a => cases h

@[simp] theorem map_eq_error_iff {r : Except ε α} {f : α → β} {e : ε} :
    r.map f = .error e ↔ r = .error e := by
  constructor
  · exact map_eq_error
  · rintro rfl
    rfl

/-! ## Lists -/

variable {f : α → Except ε β} {x : α} {y : β} {xs : List α} {ys : List β} {e : ε}

theorem mapM_eq_ok_iff : xs.mapM f = .ok ys ↔ List.Forall₂ (fun x y => f x = .ok y) xs ys := by
  induction xs generalizing ys with
  | nil =>
    rw [List.forall₂_nil_left_iff]
    exact ⟨fun h => (Except.ok.inj h).symm, fun h => h ▸ rfl⟩
  | cons x rest ih =>
    rw [List.mapM_cons, List.forall₂_cons_left_iff]
    constructor
    · intro h
      obtain ⟨y, hx, h⟩ := bind_eq_ok h
      obtain ⟨later, hrest, h⟩ := bind_eq_ok h
      exact ⟨y, later, hx, ih.mp hrest, (Except.ok.inj h).symm⟩
    · rintro ⟨y, later, hx, hrest, rfl⟩
      rw [hx, ih.mpr hrest]
      rfl

theorem exists_of_mapM_eq_error (h : xs.mapM f = .error e) : ∃ x ∈ xs, f x = .error e := by
  induction xs with
  | nil => cases h
  | cons x rest ih =>
    rw [List.mapM_cons] at h
    rcases bind_eq_error h with hx | ⟨y, -, h⟩
    · exact ⟨x, List.mem_cons_self, hx⟩
    · rcases bind_eq_error h with hrest | ⟨later, -, h⟩
      · obtain ⟨other, hother, herror⟩ := ih hrest
        exact ⟨other, List.mem_cons_of_mem x hother, herror⟩
      · cases h

theorem mapM_eq_error_of_first {before after : List α}
    (hbefore : ∀ x ∈ before, ∃ y, f x = .ok y) (hx : f x = .error e) :
    (before ++ x :: after).mapM f = .error e := by
  induction before with
  | nil =>
    rw [List.nil_append, List.mapM_cons, hx]
    rfl
  | cons first rest ih =>
    obtain ⟨y, hy⟩ := hbefore first List.mem_cons_self
    have hrest := ih fun other ho => hbefore other (List.mem_cons_of_mem first ho)
    rw [List.cons_append, List.mapM_cons, hy, hrest]
    rfl

theorem exists_item_of_mapM (h : xs.mapM f = .ok ys) (hy : y ∈ ys) : ∃ x ∈ xs, f x = .ok y := by
  rw [mapM_eq_ok_iff] at h
  induction h with
  | nil => cases hy
  | @cons x y' rest later hx _ ih =>
    rcases List.mem_cons.mp hy with rfl | hy
    · exact ⟨x, List.mem_cons_self, hx⟩
    · obtain ⟨other, hother, hresult⟩ := ih hy
      exact ⟨other, List.mem_cons_of_mem x hother, hresult⟩

theorem exists_result_of_mapM (h : xs.mapM f = .ok ys) (hx : x ∈ xs) : ∃ y ∈ ys, f x = .ok y := by
  rw [mapM_eq_ok_iff] at h
  induction h with
  | nil => cases hx
  | @cons x' y rest later hy _ ih =>
    rcases List.mem_cons.mp hx with rfl | hx
    · exact ⟨y, List.mem_cons_self, hy⟩
    · obtain ⟨other, hother, hresult⟩ := ih hx
      exact ⟨other, List.mem_cons_of_mem y hother, hresult⟩

/-- One function gives results on a list if another does and it gives one wherever
that does; the results are related item by item. -/
theorem exists_mapM {g : α → Except ε γ} {R : γ → β → Prop} (h : xs.mapM f = .ok ys)
    (hitem : ∀ x ∈ xs, ∀ y, f x = .ok y → ∃ z, g x = .ok z ∧ R z y) :
    ∃ zs, xs.mapM g = .ok zs ∧ List.Forall₂ R zs ys := by
  rw [mapM_eq_ok_iff] at h
  induction h with
  | nil => exact ⟨[], rfl, .nil⟩
  | @cons x y rest later hx _ ih =>
    obtain ⟨z, hz, hfirst⟩ := hitem x List.mem_cons_self y hx
    obtain ⟨zs, hzs, hlater⟩ := ih fun other ho => hitem other (List.mem_cons_of_mem x ho)
    refine ⟨z :: zs, ?_, .cons hfirst hlater⟩
    rw [List.mapM_cons, hz, hzs]
    rfl

/-- Where every item has a list for its result, what stands in them all is known from what
stands in each. -/
theorem exists_flatten_mapM {f : α → Except ε (List β)} {P : α → β → Prop}
    (h : ∀ x ∈ xs, ∃ piece, f x = .ok piece ∧ ∀ y, y ∈ piece ↔ P x y) :
    ∃ found, (do return (← xs.mapM f).flatten) = Except.ok (ε := ε) found ∧
      ∀ y, y ∈ found ↔ ∃ x ∈ xs, P x y := by
  have hall : ∃ pieces, xs.mapM f = .ok pieces ∧ ∀ y, y ∈ pieces.flatten ↔ ∃ x ∈ xs, P x y := by
    induction xs with
    | nil => exact ⟨[], rfl, by simp⟩
    | cons x rest ih =>
      obtain ⟨piece, hpiece, hmem⟩ := h x List.mem_cons_self
      obtain ⟨pieces, hpieces, hrest⟩ := ih fun other ho => h other (List.mem_cons_of_mem x ho)
      refine ⟨piece :: pieces, ?_, fun y => ?_⟩
      · rw [List.mapM_cons, hpiece, hpieces]
        rfl
      · rw [List.flatten_cons, List.mem_append, hmem, hrest, List.exists_mem_cons_iff]
  obtain ⟨pieces, hpieces, hmem⟩ := hall
  exact ⟨pieces.flatten, by rw [hpieces]; rfl, hmem⟩

end TargetGen
