import Mathlib.Data.List.Forall2
import Mathlib.Data.List.Induction
import TargetGen.Label.List

/-!
# Selection — the first label of each address that is not excluded

`Label.firsts` says what it is to keep the first label of each address, and
`Label.select` leaves out excluded addresses as well. Selecting from a list of
lists does not depend on more of each list than what is selected from it
(`select_flatMap_congr`), so lists can be compared piece by piece.
-/

namespace TargetGen

namespace Label

variable {a a' b b' labels : List Label} {label : Label} {excluded : List String}

/-- The first label of each address. -/
def firsts : List Label → List Label
  | [] => []
  | label :: rest => label :: (firsts rest).filter fun other => other.address ≠ label.address

/-- The first label of each address that is not excluded. -/
def select (excluded : List String) (labels : List Label) : List Label :=
  firsts (labels.filter fun label => label.address ∉ excluded)

/-! ## First labels -/

theorem mem_of_mem_firsts (h : label ∈ firsts labels) : label ∈ labels := by
  induction labels with
  | nil => cases h
  | cons first rest ih =>
    rcases List.mem_cons.mp h with rfl | h
    · exact List.mem_cons_self
    · exact List.mem_cons_of_mem first (ih (List.mem_filter.mp h).1)

@[simp] theorem mem_addresses_firsts {address : String} :
    address ∈ (firsts labels).map Label.address ↔ address ∈ labels.map Label.address := by
  induction labels with
  | nil => exact Iff.rfl
  | cons first rest ih =>
    rw [firsts, List.map_cons, List.map_cons, List.mem_cons, List.mem_cons]
    by_cases hfirst : address = first.address
    · exact iff_of_true (.inl hfirst) (.inl hfirst)
    · rw [← ih]
      simp only [hfirst, false_or, List.mem_map, List.mem_filter, decide_eq_true_eq]
      constructor
      · rintro ⟨label, ⟨hmem, -⟩, rfl⟩
        exact ⟨label, hmem, rfl⟩
      · rintro ⟨label, hmem, rfl⟩
        exact ⟨label, ⟨hmem, hfirst⟩, rfl⟩

theorem firsts_append (a b : List Label) :
    firsts (a ++ b) = firsts a ++ (firsts b).filter fun label => label.address ∉ a.map Label.address := by
  induction a with
  | nil => simp [firsts]
  | cons first rest ih =>
    rw [List.cons_append, firsts, ih, firsts, List.cons_append, List.filter_append,
      List.filter_filter]
    congr 2
    apply List.filter_congr
    intro label _
    simp [not_or]

theorem firsts_append_congr (ha : firsts a = firsts a') (hb : firsts b = firsts b') :
    firsts (a ++ b) = firsts (a' ++ b') := by
  have hsame : ∀ address, address ∈ a.map Label.address ↔ address ∈ a'.map Label.address := by
    intro address
    rw [← mem_addresses_firsts, ha, mem_addresses_firsts]
  rw [firsts_append, firsts_append, ha, hb]
  refine congrArg (firsts a' ++ ·) (List.filter_congr fun label _ => ?_)
  rw [decide_eq_decide, hsame]

theorem firsts_concat_of_mem (h : label.address ∈ labels.map Label.address) :
    firsts (labels ++ [label]) = firsts labels := by
  have hnone : (firsts [label]).filter (fun other => other.address ∉ labels.map Label.address) = [] := by
    simpa [firsts] using h
  rw [firsts_append, hnone, List.append_nil]

/-- `distinct`, which goes over a list once, keeps the first labels. -/
theorem distinct_eq_firsts (labels : List Label) : distinct labels = firsts labels := by
  have hseen : ∀ seen, Distinct.byKey Label.address seen labels =
      (firsts labels).filter fun label => label.address ∉ seen := by
    induction labels with
    | nil => exact fun _ => rfl
    | cons first rest ih =>
      intro seen
      unfold Distinct.byKey
      by_cases hfirst : first.address ∈ seen
      · rw [if_pos hfirst, ih, firsts, List.filter_cons_of_neg (by simpa using hfirst),
          List.filter_filter]
        apply List.filter_congr
        intro label _
        by_cases hlabel : label.address ∈ seen
        · simp [hlabel]
        · have hne : label.address ≠ first.address := fun h => hlabel (h ▸ hfirst)
          simp [hlabel, hne]
      · rw [if_neg hfirst, ih, firsts, List.filter_cons_of_pos (by simpa using hfirst),
          List.filter_filter]
        congr 1
        apply List.filter_congr
        intro label _
        simp [not_or, Bool.and_comm]
  rw [distinct, hseen]
  exact List.filter_eq_self.mpr fun label _ => by simp

/-! ## Selected labels -/

theorem select_append_congr (ha : select excluded a = select excluded a')
    (hb : select excluded b = select excluded b') :
    select excluded (a ++ b) = select excluded (a' ++ b') := by
  rw [select, select, List.filter_append, List.filter_append]
  exact firsts_append_congr ha hb

theorem select_flatMap_congr {α β : Type} {f : α → List Label} {g : β → List Label}
    {as : List α} {bs : List β}
    (h : List.Forall₂ (fun a b => select excluded (f a) = select excluded (g b)) as bs) :
    select excluded (as.flatMap f) = select excluded (bs.flatMap g) := by
  induction h with
  | nil => rfl
  | cons hfirst _ ih =>
    rw [List.flatMap_cons, List.flatMap_cons]
    exact select_append_congr hfirst ih

theorem select_congr (h : (a.filter fun label => label.address ∉ excluded) =
    b.filter fun label => label.address ∉ excluded) : select excluded a = select excluded b :=
  congrArg firsts h

theorem mem_of_mem_select (h : label ∈ select excluded labels) : label ∈ labels :=
  (List.mem_filter.mp (mem_of_mem_firsts h)).1

theorem mem_select_of_first (hexcluded : label.address ∉ excluded)
    (hfirst : label.address ∉ a.map Label.address) : label ∈ select excluded (a ++ label :: b) := by
  rw [select, List.filter_append, List.filter_cons_of_pos (by simpa using hexcluded), firsts_append]
  refine List.mem_append_right _ (List.mem_filter.mpr ⟨List.mem_cons_self, ?_⟩)
  rw [decide_eq_true_eq]
  intro hmem
  obtain ⟨other, hother, hsame⟩ := List.mem_map.mp hmem
  exact hfirst (List.mem_map.mpr ⟨other, (List.mem_filter.mp hother).1, hsame⟩)

theorem select_concat (h : label.address ∈ excluded ∨ label.address ∈ labels.map Label.address) :
    select excluded (labels ++ [label]) = select excluded labels := by
  rw [select, List.filter_append]
  by_cases hexcluded : label.address ∈ excluded
  · rw [List.filter_cons_of_neg (by simpa using hexcluded), List.filter_nil, List.append_nil]
    rfl
  · rw [List.filter_cons_of_pos (by simpa using hexcluded), List.filter_nil]
    apply firsts_concat_of_mem
    obtain ⟨other, hother, hsame⟩ := List.mem_map.mp (h.resolve_left hexcluded)
    refine List.mem_map.mpr ⟨other, List.mem_filter.mpr ⟨hother, ?_⟩, hsame⟩
    rw [decide_eq_true_eq, hsame]
    exact hexcluded

theorem select_append (excluded : List String) (a b : List Label) :
    select excluded (a ++ b) = select excluded a ++
      (select excluded b).filter fun other => other.address ∉ (select excluded a).map address := by
  rw [select, List.filter_append, firsts_append]
  refine congrArg (select excluded a ++ ·) (List.filter_congr fun other _ => ?_)
  rw [decide_eq_decide, select, mem_addresses_firsts]

/-- **One more label** is selected unless its address is excluded or was selected before,
and from then on no other one of its address is. -/
theorem select_insert (excluded : List String) (a : List Label) (label : Label) (b : List Label) :
    ∃ others, select excluded (a ++ b) = select excluded a ++ others ∧
      select excluded (a ++ label :: b) = select excluded a ++
        (if label.address ∈ excluded ∨ label.address ∈ (select excluded a).map address then []
          else [label]) ++ others.filter fun other => other.address ≠ label.address := by
  refine ⟨_, select_append excluded a b, ?_⟩
  rw [select_append, List.append_assoc]
  congr 1
  by_cases hexcluded : label.address ∈ excluded
  · -- then no other label of its address was selected, either
    have hsame : select excluded (label :: b) = select excluded b :=
      select_congr (List.filter_cons_of_neg (by simpa using hexcluded))
    rw [if_pos (.inl hexcluded), hsame, List.nil_append, eq_comm, List.filter_eq_self]
    intro other hother
    rw [decide_eq_true_eq]
    intro hsame
    have hkept := mem_of_mem_firsts (List.mem_filter.mp hother).1
    rw [List.mem_filter, decide_eq_true_eq, hsame] at hkept
    exact hkept.2 hexcluded
  · have hcons : select excluded (label :: b) =
        label :: (select excluded b).filter fun other => other.address ≠ label.address := by
      rw [select, List.filter_cons_of_pos (by simpa using hexcluded)]
      rfl
    rw [hcons, List.filter_cons, List.filter_filter, List.filter_filter]
    by_cases hbefore : label.address ∈ (select excluded a).map address
    · simp only [hbefore, or_true, if_true, not_true_eq_false, decide_false, Bool.false_eq_true,
        if_false, List.nil_append, Bool.and_comm]
    · simp only [hexcluded, hbefore, or_self, if_false, not_false_eq_true, decide_true, if_true,
        List.singleton_append, Bool.and_comm]

/-- Labels can be left out of which each is excluded or behind one of the same address. -/
theorem select_map_filter {α : Type} {f : α → Label} {p : α → Bool} {items : List α}
    (h : ∀ before item after, items = before ++ item :: after → p item = false →
      (f item).address ∈ excluded ∨ ∃ earlier ∈ before, (f earlier).address = (f item).address) :
    select excluded ((items.filter p).map f) = select excluded (items.map f) := by
  induction items using List.reverseRecOn with
  | nil => rfl
  | append_singleton init last ih =>
    have hinit := ih fun before item after hsplit =>
      h before item (after ++ [last]) (by rw [hsplit, List.append_assoc]; rfl)
    rw [List.filter_append, List.map_append, List.map_append]
    cases hlast : p last with
    | true =>
      rw [List.filter_cons_of_pos hlast]
      exact select_append_congr hinit rfl
    | false =>
      rw [List.filter_cons_of_neg (Bool.eq_false_iff.mp hlast), List.filter_nil, List.map_nil,
        List.append_nil, hinit]
      refine (select_concat ?_).symm
      refine (h init last [] rfl hlast).imp_right ?_
      rintro ⟨earlier, hearlier, hsame⟩
      exact List.mem_map.mpr ⟨f earlier, List.mem_map_of_mem hearlier, hsame⟩

end Label

@[simp] theorem LabelList.includes_subtractExcludes (l : LabelList) :
    l.subtractExcludes.includes = Label.select l.excludedAddresses l.includes := by
  rw [subtractExcludes, resolved, Label.distinct_eq_firsts]
  rfl

end TargetGen
