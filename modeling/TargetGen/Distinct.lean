/-!
# Distinct — lists without repetitions, in order of first occurrence
-/

namespace TargetGen.Distinct

variable {α β : Type}

/-- The elements whose key is neither in `seen` nor the key of an earlier
element. -/
def byKey [DecidableEq β] (key : α → β) : List β → List α → List α
  | _, [] => []
  | seen, x :: rest =>
    if key x ∈ seen then byKey key seen rest
    else x :: byKey key (key x :: seen) rest

/-- The elements of a list, each at its first place only. -/
def firsts [DecidableEq α] (xs : List α) : List α := byKey id [] xs

/-- `x` at the end of `xs`, unless it is there already. -/
def append [DecidableEq α] (xs : List α) (x : α) : List α :=
  if x ∈ xs then xs else xs ++ [x]

theorem mem_byKey_id [DecidableEq α] {seen xs : List α} {x : α} :
    x ∈ byKey id seen xs ↔ x ∈ xs ∧ x ∉ seen := by
  induction xs generalizing seen with
  | nil => simp [byKey]
  | cons first rest ih =>
    by_cases hfirst : first ∈ seen
    · rw [byKey, id_eq, if_pos hfirst, ih, List.mem_cons]
      constructor
      · exact fun h => ⟨.inr h.1, h.2⟩
      · rintro ⟨rfl | hrest, hseen⟩
        · exact absurd hfirst hseen
        · exact ⟨hrest, hseen⟩
    · rw [byKey, id_eq, if_neg hfirst, List.mem_cons, ih, List.mem_cons, List.mem_cons, not_or]
      constructor
      · rintro (rfl | ⟨hrest, -, hseen⟩)
        · exact ⟨.inl rfl, hfirst⟩
        · exact ⟨.inr hrest, hseen⟩
      · rintro ⟨rfl | hrest, hseen⟩
        · exact .inl rfl
        · by_cases hx : x = first
          · exact .inl hx
          · exact .inr ⟨hrest, hx, hseen⟩

theorem nodup_byKey_id [DecidableEq α] (seen xs : List α) : (byKey id seen xs).Nodup := by
  induction xs generalizing seen with
  | nil => exact List.nodup_nil
  | cons first rest ih =>
    by_cases hfirst : first ∈ seen
    · rw [byKey, id_eq, if_pos hfirst]
      exact ih seen
    · rw [byKey, id_eq, if_neg hfirst, List.nodup_cons, mem_byKey_id]
      exact ⟨fun h => h.2 List.mem_cons_self, ih (first :: seen)⟩

theorem nodup_firsts [DecidableEq α] (xs : List α) : (firsts xs).Nodup := nodup_byKey_id [] xs

@[simp] theorem mem_firsts [DecidableEq α] {xs : List α} {x : α} : x ∈ firsts xs ↔ x ∈ xs := by
  rw [firsts, mem_byKey_id]
  exact and_iff_left (List.not_mem_nil)

@[simp] theorem firsts_eq_nil_iff [DecidableEq α] {xs : List α} : firsts xs = [] ↔ xs = [] := by
  simp only [List.eq_nil_iff_forall_not_mem, mem_firsts]

@[simp] theorem mem_append [DecidableEq α] {xs : List α} {x y : α} :
    y ∈ append xs x ↔ y ∈ xs ∨ y = x := by
  unfold append
  split
  next h => exact ⟨.inl, fun hy => hy.elim id fun e => e ▸ h⟩
  next h => simp

theorem nodup_append [DecidableEq α] {xs : List α} (x : α) (h : xs.Nodup) :
    (append xs x).Nodup := by
  unfold append
  split
  next hx => exact h
  next hx =>
    refine List.nodup_append.mpr ⟨h, by simp, ?_⟩
    intro a ha b hb
    rintro rfl
    exact hx (List.mem_singleton.mp hb ▸ ha)

theorem append_of_mem [DecidableEq α] {xs : List α} {x : α} (h : x ∈ xs) : append xs x = xs :=
  if_pos h

theorem append_of_notMem [DecidableEq α] {xs : List α} {x : α} (h : x ∉ xs) :
    append xs x = xs ++ [x] :=
  if_neg h

/-! ### Additions one after the other -/

theorem foldl_append_eq [DecidableEq α] {seen : List α} (xs : List α) {acc : List α}
    (h : ∀ x, x ∈ seen ↔ x ∈ acc) : xs.foldl append acc = acc ++ byKey id seen xs := by
  induction xs generalizing seen acc with
  | nil => simp [byKey]
  | cons x rest ih =>
    rw [List.foldl_cons]
    by_cases hx : x ∈ acc
    · rw [append_of_mem hx, ih h, byKey, id_eq, if_pos ((h x).mpr hx)]
    · have hseen : ∀ y, y ∈ x :: seen ↔ y ∈ acc ++ [x] := by
        intro y
        rw [List.mem_cons, h, List.mem_append, List.mem_singleton, or_comm]
      rw [append_of_notMem hx, ih hseen, byKey, id_eq, if_neg (mt (h x).mp hx), List.append_assoc]
      rfl

@[simp] theorem foldl_append_nil [DecidableEq α] (xs : List α) :
    xs.foldl append [] = firsts xs := by
  have hnone : ∀ x : α, x ∈ [] ↔ x ∈ [] := fun _ => Iff.rfl
  rw [foldl_append_eq xs hnone, List.nil_append, firsts]

@[simp] theorem mem_foldl_append [DecidableEq α] {x : α} {xs added : List α} :
    x ∈ added.foldl append xs ↔ x ∈ xs ∨ x ∈ added := by
  induction added generalizing xs with
  | nil => simp
  | cons first rest ih => rw [List.foldl_cons, ih, mem_append, List.mem_cons, or_assoc]

theorem foldl_append_byKey [DecidableEq α] (xs : List α) {seen acc : List α}
    (h : ∀ x ∈ seen, x ∈ acc) : (byKey id seen xs).foldl append acc = xs.foldl append acc := by
  induction xs generalizing seen acc with
  | nil => rfl
  | cons x rest ih =>
    rw [byKey, id_eq, List.foldl_cons]
    by_cases hx : x ∈ seen
    · rw [if_pos hx, append_of_mem (h x hx), ih h]
    · rw [if_neg hx, List.foldl_cons]
      apply ih
      intro y hy
      rw [mem_append]
      rcases List.mem_cons.mp hy with rfl | hy
      · exact .inr rfl
      · exact .inl (h y hy)

@[simp] theorem firsts_append_firsts [DecidableEq α] (xs ys : List α) :
    firsts (xs ++ firsts ys) = firsts (xs ++ ys) := by
  have hsame : (firsts ys).foldl append (xs.foldl append []) =
      ys.foldl append (xs.foldl append []) := by
    apply foldl_append_byKey
    intro y hy
    cases hy
  rw [← foldl_append_nil, ← foldl_append_nil (xs ++ ys), List.foldl_append, List.foldl_append,
    hsame]

/-! ### The order of additions -/

theorem append_perm [DecidableEq α] {xs ys : List α} (h : xs.Perm ys) (x : α) :
    (append xs x).Perm (append ys x) := by
  by_cases hx : x ∈ xs
  · rw [append_of_mem hx, append_of_mem (h.subset hx)]
    exact h
  · rw [append_of_notMem hx, append_of_notMem fun hy => hx (h.symm.subset hy)]
    exact h.append_right [x]

theorem append_append_perm [DecidableEq α] (xs : List α) (x y : α) :
    (append (append xs x) y).Perm (append (append xs y) x) := by
  by_cases heq : x = y
  · rw [heq]
  by_cases hx : x ∈ xs
  · rw [append_of_mem hx, append_of_mem (mem_append.mpr (.inl hx))]
  by_cases hy : y ∈ xs
  · rw [append_of_mem hy, append_of_mem (mem_append.mpr (.inl hy))]
  have hxy : x ∉ append xs y := fun h => (mem_append.mp h).elim hx heq
  have hyx : y ∉ append xs x := fun h => (mem_append.mp h).elim hy fun e => heq e.symm
  rw [append_of_notMem hyx, append_of_notMem hxy, append_of_notMem hx, append_of_notMem hy,
    List.append_assoc, List.append_assoc]
  exact (List.Perm.swap y x []).append_left xs

/-- **In which order things are added** makes no difference to what is there. -/
theorem foldl_append_perm [DecidableEq α] {added added' : List α} (h : added.Perm added')
    (xs : List α) : (added.foldl append xs).Perm (added'.foldl append xs) := by
  have hstart : ∀ (added : List α) {xs ys : List α}, xs.Perm ys →
      (added.foldl append xs).Perm (added.foldl append ys) := by
    intro added
    induction added with
    | nil => exact fun h => h
    | cons x rest ih => exact fun h => ih (append_perm h x)
  induction h generalizing xs with
  | nil => exact List.Perm.refl xs
  | cons x _ ih => exact ih (append xs x)
  | swap x y rest => exact hstart rest (append_append_perm xs y x)
  | trans _ _ ih ih' => exact (ih xs).trans (ih' xs)

end TargetGen.Distinct
