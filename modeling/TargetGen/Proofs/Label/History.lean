import TargetGen.Proofs.Label

/-!
# Label list histories — when excludes are subtracted makes no difference

To subtract in between throws labels away for good, and later operations do not know of
them any more. But what is thrown away would not count later either: an address that is
excluded stays excluded, and of two labels with one address the first one stays the first.
So a list that was subtracted from and one that was left alone select the same labels,
whatever is excluded in addition (`LabelList.Prunes`). Each operation keeps it that way.

What counts in the end is said by places: a label counts where its address is not excluded
and does not stand at an earlier place (`Label.counted`).
-/

namespace TargetGen

namespace Label

variable {labels : List Label} {label : Label} {excluded : List String}

/-! ## Labels that count -/

/-- The labels that count, in order: those whose address is neither excluded nor that of a
label at an earlier place. -/
def counted (excluded : List String) (labels : List Label) : List Label :=
  (labels.zipIdx.filter fun placed => placed.1.address ∉ excluded ∧
    placed.1.address ∉ (labels.take placed.2).map Label.address).map Prod.fst

theorem select_concat_of_new (hexcluded : label.address ∉ excluded)
    (hnew : label.address ∉ labels.map Label.address) :
    select excluded (labels ++ [label]) = select excluded labels ++ [label] := by
  have hlater : label.address ∉
      (labels.filter fun other => other.address ∉ excluded).map Label.address := by
    intro hmem
    obtain ⟨other, hother, hsame⟩ := List.mem_map.mp hmem
    exact hnew (List.mem_map.mpr ⟨other, (List.mem_filter.mp hother).1, hsame⟩)
  rw [select, List.filter_append, List.filter_cons_of_pos (by simpa using hexcluded),
    List.filter_nil, firsts_append, firsts, firsts, List.filter_nil,
    List.filter_cons_of_pos (by simpa using hlater), List.filter_nil]
  rfl

theorem counted_concat (excluded : List String) (labels : List Label) (label : Label) :
    counted excluded (labels ++ [label]) = counted excluded labels ++
      if label.address ∉ excluded ∧ label.address ∉ labels.map Label.address then [label]
      else [] := by
  have hearlier : ∀ placed ∈ labels.zipIdx,
      (labels ++ [label]).take placed.2 = labels.take placed.2 := by
    intro placed hplaced
    have hlt := (List.mem_zipIdx' hplaced).1
    exact List.take_append_of_le_length (Nat.le_of_lt hlt)
  rw [counted, List.zipIdx_append, List.filter_append, List.map_append]
  congr 1
  · refine congrArg (List.map Prod.fst) (List.filter_congr fun placed hplaced => ?_)
    rw [hearlier placed hplaced]
  · rw [List.zipIdx_singleton, Nat.zero_add]
    by_cases hcounts : label.address ∉ excluded ∧ label.address ∉ labels.map Label.address
    · rw [if_pos hcounts, List.filter_cons_of_pos (by simpa using hcounts)]
      rfl
    · rw [if_neg hcounts, List.filter_cons_of_neg (by simpa using hcounts)]
      rfl

/-- **To select** is to keep what counts. -/
theorem select_eq_counted (excluded : List String) (labels : List Label) :
    select excluded labels = counted excluded labels := by
  induction labels using List.reverseRecOn with
  | nil => rfl
  | append_singleton labels label ih =>
    rw [counted_concat, ← ih]
    by_cases hcounts : label.address ∉ excluded ∧ label.address ∉ labels.map Label.address
    · rw [if_pos hcounts]
      exact select_concat_of_new hcounts.1 hcounts.2
    · rw [if_neg hcounts, List.append_nil]
      rw [not_and_or, not_not, not_not] at hcounts
      exact select_concat hcounts

/-! ## Selecting again -/

theorem firsts_filter (p : String → Bool) (labels : List Label) :
    firsts (labels.filter fun label => p label.address) =
      (firsts labels).filter fun label => p label.address := by
  induction labels with
  | nil => rfl
  | cons first rest ih =>
    by_cases hfirst : p first.address = true
    · rw [List.filter_cons_of_pos (by exact hfirst), firsts, firsts,
        List.filter_cons_of_pos (by exact hfirst), ih, List.filter_filter, List.filter_filter]
      refine congrArg (first :: ·) (List.filter_congr fun label _ => ?_)
      rw [Bool.and_comm]
    · rw [List.filter_cons_of_neg (by exact hfirst), firsts,
        List.filter_cons_of_neg (by exact hfirst), ih, List.filter_filter]
      refine List.filter_congr fun label _ => ?_
      by_cases hsame : label.address = first.address
      · simp [hsame, hfirst]
      · simp [hsame]

@[simp] theorem firsts_firsts (labels : List Label) : firsts (firsts labels) = firsts labels := by
  induction labels with
  | nil => rfl
  | cons first rest ih =>
    rw [firsts, firsts, firsts_filter (fun address => decide (address ≠ first.address)), ih,
      List.filter_filter]
    simp only [Bool.and_self]

/-- **Selecting twice**, with more excluded the second time, is selecting once. -/
theorem select_append_select (excluded more : List String) (labels : List Label) :
    select (excluded ++ more) (select excluded labels) = select (excluded ++ more) labels := by
  have hfilter : (labels.filter fun label => label.address ∉ excluded).filter
      (fun label => label.address ∉ excluded ++ more) =
      labels.filter fun label => label.address ∉ excluded ++ more := by
    rw [List.filter_filter]
    refine List.filter_congr fun label _ => ?_
    by_cases hexcluded : label.address ∈ excluded <;> simp [hexcluded]
  rw [select, select, firsts_filter (fun address => decide (address ∉ excluded ++ more)),
    firsts_firsts, ← firsts_filter (fun address => decide (address ∉ excluded ++ more)), hfilter,
    select]

end Label

namespace LabelList

variable {l full : LabelList}

theorem resolved_eq_select (l : LabelList) :
    l.resolved = Label.select l.excludedAddresses l.includes :=
  l.includes_subtractExcludes

/-! ## Operations -/

/-- What is done with a list. -/
inductive Operation where
  | push (label : Label)
  | exclude (label : Label)
  | subtract
  deriving DecidableEq

def perform (l : LabelList) : Operation → LabelList
  | .push label => l.push label
  | .exclude label => l.exclude label
  | .subtract => l.subtractExcludes

/-- What becomes of a list by some operations, one after the other. -/
def performAll (l : LabelList) (operations : List Operation) : LabelList :=
  operations.foldl perform l

/-- The labels that operations push, in order. -/
def pushedBy (operations : List Operation) : List Label :=
  operations.filterMap fun
    | .push label => some label
    | .exclude _ | .subtract => none

/-- The labels that operations exclude, in order. -/
def excludedBy (operations : List Operation) : List Label :=
  operations.filterMap fun
    | .exclude label => some label
    | .push _ | .subtract => none

/-- The same operations without the subtractions. -/
def unsubtracted (operations : List Operation) : List Operation :=
  operations.filter (· ≠ .subtract)

theorem performAll_unsubtracted (l : LabelList) (operations : List Operation) :
    l.performAll (unsubtracted operations) =
      ⟨l.includes ++ pushedBy operations, l.excludes ++ excludedBy operations⟩ := by
  induction operations generalizing l with
  | nil => simp [performAll, unsubtracted, pushedBy, excludedBy]
  | cons operation rest ih =>
    cases operation with
    | push label =>
      calc l.performAll (unsubtracted (.push label :: rest))
          = (l.push label).performAll (unsubtracted rest) := rfl
        _ = ⟨(l.includes ++ [label]) ++ pushedBy rest, l.excludes ++ excludedBy rest⟩ :=
            ih (l.push label)
        _ = ⟨l.includes ++ pushedBy (.push label :: rest),
              l.excludes ++ excludedBy (.push label :: rest)⟩ := by
            rw [List.append_assoc]
            rfl
    | exclude label =>
      calc l.performAll (unsubtracted (.exclude label :: rest))
          = (l.exclude label).performAll (unsubtracted rest) := rfl
        _ = ⟨l.includes ++ pushedBy rest, (l.excludes ++ [label]) ++ excludedBy rest⟩ :=
            ih (l.exclude label)
        _ = ⟨l.includes ++ pushedBy (.exclude label :: rest),
              l.excludes ++ excludedBy (.exclude label :: rest)⟩ := by
            rw [List.append_assoc]
            rfl
    | subtract => exact ih l

/-! ## Pruned lists -/

/-- One list has the excludes of another one, and the labels that it has left out are never
selected again: neither now nor with more excludes. -/
structure Prunes (l full : LabelList) : Prop where
  excludes : l.excludes = full.excludes
  select : ∀ more, Label.select (full.excludedAddresses ++ more) l.includes =
    Label.select (full.excludedAddresses ++ more) full.includes

theorem Prunes.refl (l : LabelList) : Prunes l l := ⟨rfl, fun _ => rfl⟩

theorem Prunes.push (h : Prunes l full) (label : Label) :
    Prunes (l.push label) (full.push label) where
  excludes := h.excludes
  select more := Label.select_append_congr (h.select more) rfl

theorem Prunes.exclude (h : Prunes l full) (label : Label) :
    Prunes (l.exclude label) (full.exclude label) where
  excludes := congrArg (· ++ [label]) h.excludes
  select more := by
    have hmore : (full.exclude label).excludedAddresses ++ more =
        full.excludedAddresses ++ (label.address :: more) := by
      simp [LabelList.exclude, excludedAddresses]
    rw [hmore]
    exact h.select (label.address :: more)

/-- What a list leaves out when it subtracts, it would never select again. -/
theorem Prunes.subtract (h : Prunes l full) : Prunes l.subtractExcludes full where
  excludes := h.excludes
  select more := by
    have hsame : l.excludedAddresses = full.excludedAddresses :=
      congrArg (List.map Label.address) h.excludes
    rw [includes_subtractExcludes, hsame, Label.select_append_select]
    exact h.select more

theorem Prunes.performAll (h : Prunes l full) (operations : List Operation) :
    Prunes (l.performAll operations) (full.performAll (unsubtracted operations)) := by
  induction operations generalizing l full with
  | nil => exact h
  | cons operation rest ih =>
    cases operation with
    | push label => exact ih (h.push label)
    | exclude label => exact ih (h.exclude label)
    | subtract => exact ih h.subtract

theorem Prunes.resolved_eq (h : Prunes l full) : l.resolved = full.resolved := by
  have hsame : l.excludedAddresses = full.excludedAddresses :=
    congrArg (List.map Label.address) h.excludes
  have hselect := h.select []
  rwa [List.append_nil, ← resolved_eq_select full, ← hsame, ← resolved_eq_select] at hselect

@[simp] theorem subtractExcludes_twice (l : LabelList) :
    l.subtractExcludes.subtractExcludes = l.subtractExcludes := by
  have hresolved := (Prunes.refl l).subtract.resolved_eq
  calc l.subtractExcludes.subtractExcludes
      = ⟨l.subtractExcludes.resolved, l.excludes⟩ := rfl
    _ = ⟨l.resolved, l.excludes⟩ := by rw [hresolved]
    _ = l.subtractExcludes := rfl

/-- **When excludes are subtracted makes no difference.** A list resolves to the same labels,
in the same spellings, if no subtraction had taken place. They are the labels pushed, in their
order, whose address is neither excluded, early or late, nor that of a label pushed before.
What a list holds at the start counts as pushed and excluded first. To subtract twice is to
subtract once, and the excludes stay as they are. -/
theorem resolved_ignores_subtractions (start : LabelList) (operations : List Operation) :
    (start.performAll operations).resolved =
      (start.performAll (unsubtracted operations)).resolved ∧
    (start.performAll operations).resolved =
      Label.counted (start.excludedAddresses ++ (excludedBy operations).map Label.address)
        (start.includes ++ pushedBy operations) ∧
    start.subtractExcludes.subtractExcludes = start.subtractExcludes ∧
    start.subtractExcludes.excludes = start.excludes := by
  have hsame := ((Prunes.refl start).performAll operations).resolved_eq
  refine ⟨hsame, ?_, subtractExcludes_twice start, rfl⟩
  rw [hsame, resolved_eq_select, performAll_unsubtracted, Label.select_eq_counted,
    excludedAddresses, List.map_append]
  rfl

/-- A label that is subtracted early, pushed again, and excluded late by another spelling. -/
example :
    let operations : List Operation :=
      [.push ⟨"a.c", "./a.c"⟩, .push ⟨"b.c", "b.c"⟩, .push ⟨"a.c", "a.c"⟩, .exclude ⟨"b.c", "./b.c"⟩,
        .subtract, .push ⟨"b.c", "b.c"⟩, .push ⟨"c.c", "c.c"⟩, .exclude ⟨"c.c", "x/../c.c"⟩]
    (empty.performAll operations).includes =
        [⟨"a.c", "./a.c"⟩, ⟨"b.c", "b.c"⟩, ⟨"c.c", "c.c"⟩] ∧
      (empty.performAll operations).resolved = [⟨"a.c", "./a.c"⟩] ∧
      (empty.performAll (unsubtracted operations)).resolved = [⟨"a.c", "./a.c"⟩] := by
  decide

end LabelList

end TargetGen
