import Mathlib.Data.List.Basic
import TargetGen.Text

/-!
# Cuts — what comes of cutting a joined text

Cutting takes a separator between two texts for a separator between their
pieces. With `joined_fields` this makes cutting and joining inverse to each
other, as long as no piece holds the separator itself.
-/

namespace TargetGen.Text

variable {sep : Char} {cs a b : List Char} {parts more : List (List Char)}

/-! ## On characters -/

theorem fields_append (sep : Char) (a b : List Char) :
    fields sep (a ++ sep :: b) = fields sep a ++ fields sep b := by
  induction a with
  | nil => simp [fields]
  | cons c rest ih =>
    by_cases hc : c = sep
    · simp [fields, hc, ih]
    · cases hf : fields sep rest with
      | nil => exact absurd hf (fields_ne_nil sep rest)
      | cons piece pieces =>
        rw [hf] at ih
        simp [fields, hc, hf, ih]

theorem fields_of_notMem (h : sep ∉ cs) : fields sep cs = [cs] := by
  induction cs with
  | nil => rfl
  | cons c rest ih =>
    obtain ⟨hc, hrest⟩ := not_or.mp (mt List.mem_cons.mpr h)
    rw [fields, if_neg (Ne.symm hc), ih hrest]

theorem notMem_of_mem_fields {piece : List Char} (h : piece ∈ fields sep cs) : sep ∉ piece := by
  induction cs generalizing piece with
  | nil =>
    obtain rfl := List.mem_singleton.mp h
    exact List.not_mem_nil
  | cons c rest ih =>
    by_cases hc : c = sep
    · rw [fields, if_pos hc] at h
      rcases List.mem_cons.mp h with rfl | h
      · exact List.not_mem_nil
      · exact ih h
    · cases hf : fields sep rest with
      | nil => exact absurd hf (fields_ne_nil sep rest)
      | cons first pieces =>
        rw [fields, if_neg hc, hf] at h
        rw [hf] at ih
        rcases List.mem_cons.mp h with rfl | h
        · have hfirst : sep ∉ first := ih List.mem_cons_self
          simpa [hfirst] using Ne.symm hc
        · exact ih (List.mem_cons_of_mem first h)

theorem joined_cons_of_ne_nil (sep : Char) (piece : List Char) (h : parts ≠ []) :
    joined sep (piece :: parts) = piece ++ sep :: joined sep parts := by
  cases parts with
  | nil => exact absurd rfl h
  | cons next rest => rfl

theorem joined_append (sep : Char) (h : parts ≠ []) (h' : more ≠ []) :
    joined sep (parts ++ more) = joined sep parts ++ sep :: joined sep more := by
  induction parts with
  | nil => exact absurd rfl h
  | cons piece rest ih =>
    by_cases hrest : rest = []
    · subst hrest
      exact joined_cons_of_ne_nil sep piece h'
    · have happend : rest ++ more ≠ [] := List.append_ne_nil_of_left_ne_nil hrest more
      rw [List.cons_append, joined_cons_of_ne_nil sep piece happend, ih hrest,
        joined_cons_of_ne_nil sep piece hrest]
      simp

theorem fields_joined (h : parts ≠ []) (hsep : ∀ piece ∈ parts, sep ∉ piece) :
    fields sep (joined sep parts) = parts := by
  induction parts with
  | nil => exact absurd rfl h
  | cons piece rest ih =>
    have hpiece := fields_of_notMem (hsep piece List.mem_cons_self)
    by_cases hrest : rest = []
    · subst hrest
      exact hpiece
    · rw [joined_cons_of_ne_nil sep piece hrest, fields_append, hpiece,
        ih hrest fun other ho => hsep other (List.mem_cons_of_mem piece ho)]
      rfl

theorem mem_joined {x : Char} (h : x ∈ joined sep parts) :
    x = sep ∨ ∃ piece ∈ parts, x ∈ piece := by
  induction parts with
  | nil => cases h
  | cons piece rest ih =>
    by_cases hrest : rest = []
    · subst hrest
      exact .inr ⟨piece, List.mem_cons_self, h⟩
    · rw [joined_cons_of_ne_nil sep piece hrest, List.mem_append, List.mem_cons] at h
      rcases h with h | h | h
      · exact .inr ⟨piece, List.mem_cons_self, h⟩
      · exact .inl h
      · refine (ih h).imp_right ?_
        rintro ⟨other, hother, hx⟩
        exact ⟨other, List.mem_cons_of_mem piece hother, hx⟩

theorem mem_joined_of_mem {piece : List Char} {x : Char} (hpiece : piece ∈ parts) (hx : x ∈ piece) :
    x ∈ joined sep parts := by
  induction parts with
  | nil => cases hpiece
  | cons first rest ih =>
    by_cases hrest : rest = []
    · subst hrest
      obtain rfl := List.mem_singleton.mp hpiece
      exact hx
    · rw [joined_cons_of_ne_nil sep first hrest, List.mem_append, List.mem_cons]
      rcases List.mem_cons.mp hpiece with rfl | hpiece
      · exact .inl hx
      · exact .inr (.inr (ih hpiece))

theorem mem_of_mem_fields {piece : List Char} {x : Char} (hpiece : piece ∈ fields sep cs)
    (hx : x ∈ piece) : x ∈ cs := by
  rw [← joined_fields sep cs]
  exact mem_joined_of_mem hpiece hx

theorem cutFirst_eq_some_iff {before after : List Char} :
    cutFirst sep cs = some (before, after) ↔ cs = before ++ sep :: after ∧ sep ∉ before := by
  induction cs generalizing before with
  | nil => simp [cutFirst]
  | cons c rest ih =>
    by_cases hc : c = sep
    · cases before with
      | nil => simp [cutFirst, hc]
      | cons first others => simp +contextual [cutFirst, hc]
    · cases before with
      | nil => simp [cutFirst, hc]
      | cons first others =>
        simp only [cutFirst, if_neg hc, Option.map_eq_some_iff, Prod.mk.injEq, List.cons_append,
          List.cons.injEq, List.mem_cons, not_or]
        constructor
        · rintro ⟨⟨before, after'⟩, hcut, ⟨rfl, rfl⟩, rfl⟩
          obtain ⟨hrest, hsep⟩ := ih.mp hcut
          exact ⟨⟨rfl, hrest⟩, Ne.symm hc, hsep⟩
        · rintro ⟨⟨rfl, hrest⟩, -, hsep⟩
          exact ⟨(others, after), ih.mpr ⟨hrest, hsep⟩, ⟨rfl, rfl⟩, rfl⟩

@[simp] theorem cutFirst_eq_none_iff : cutFirst sep cs = none ↔ sep ∉ cs := by
  induction cs with
  | nil => simp [cutFirst]
  | cons c rest ih =>
    by_cases hc : c = sep
    · simp [cutFirst, hc]
    · simp [cutFirst, hc, ih, Ne.symm hc]

@[simp] theorem cutLast_eq_none_iff : cutLast sep cs = none ↔ sep ∉ cs := by
  induction cs with
  | nil => simp [cutLast]
  | cons c rest ih =>
    rw [cutLast, List.mem_cons, not_or, ← ih]
    cases cutLast sep rest with
    | none => simp [eq_comm]
    | some parts => simp

theorem cutLast_eq_some_iff {before after : List Char} :
    cutLast sep cs = some (before, after) ↔ cs = before ++ sep :: after ∧ sep ∉ after := by
  induction cs generalizing before with
  | nil => simp [cutLast]
  | cons c rest ih =>
    constructor
    · intro h
      refine ⟨eq_of_cutLast h, ?_⟩
      unfold cutLast at h
      split at h
      next b a hcut =>
        obtain ⟨rfl, rfl⟩ := Prod.mk.inj (Option.some.inj h)
        exact (ih.mp hcut).2
      next hcut =>
        split at h
        next =>
          obtain ⟨rfl, rfl⟩ := Prod.mk.inj (Option.some.inj h)
          exact cutLast_eq_none_iff.mp hcut
        next => cases h
    · rintro ⟨heq, hsep⟩
      cases before with
      | nil =>
        obtain ⟨rfl, rfl⟩ := List.cons.inj heq
        rw [cutLast, cutLast_eq_none_iff.mpr hsep, if_pos rfl]
      | cons first others =>
        obtain ⟨rfl, hrest⟩ := List.cons.inj heq
        rw [cutLast, ih.mpr ⟨hrest, hsep⟩]

/-! ## On strings -/

theorem map_ofList_eq_some_iff {parts : Option (List Char × List Char)} {before after : String} :
    (parts.map fun (before, after) => (String.ofList before, String.ofList after)) =
        some (before, after) ↔ parts = some (before.toList, after.toList) := by
  rw [Option.map_eq_some_iff]
  constructor
  · rintro ⟨⟨cs, cs'⟩, hcut, heq⟩
    obtain ⟨rfl, rfl⟩ := Prod.mk.inj heq
    rw [String.toList_ofList, String.toList_ofList]
    exact hcut
  · intro hcut
    exact ⟨_, hcut, by simp⟩

theorem splitFirst_eq_some_iff {s before after : String} :
    splitFirst sep s = some (before, after) ↔
      s.toList = before.toList ++ sep :: after.toList ∧ sep ∉ before.toList :=
  map_ofList_eq_some_iff.trans cutFirst_eq_some_iff

theorem splitFirst_colon {before : String} (h : ':' ∉ before.toList) (after : String) :
    splitFirst ':' (before ++ ":" ++ after) = some (before, after) :=
  splitFirst_eq_some_iff.mpr ⟨by simp, h⟩

@[simp] theorem splitFirst_eq_none_iff {s : String} : splitFirst sep s = none ↔ sep ∉ s.toList := by
  rw [splitFirst, Option.map_eq_none_iff, cutFirst_eq_none_iff]

theorem splitLast_eq_some_iff {s before after : String} :
    splitLast sep s = some (before, after) ↔
      s.toList = before.toList ++ sep :: after.toList ∧ sep ∉ after.toList :=
  map_ofList_eq_some_iff.trans cutLast_eq_some_iff

@[simp] theorem splitLast_eq_none_iff {s : String} : splitLast sep s = none ↔ sep ∉ s.toList := by
  rw [splitLast, Option.map_eq_none_iff, cutLast_eq_none_iff]

theorem startsWith_iff {start s : String} :
    startsWith start s = true ↔ ∃ rest, s = start ++ rest := by
  rw [startsWith, List.isPrefixOf_iff_prefix]
  constructor
  · rintro ⟨rest, h⟩
    refine ⟨String.ofList rest, String.toList_injective ?_⟩
    simp [← h]
  · rintro ⟨rest, rfl⟩
    exact ⟨rest.toList, by simp⟩

theorem afterStart_eq_some {start s rest : String} :
    afterStart start s = some rest ↔ s = start ++ rest := by
  rw [afterStart, Option.map_eq_some_iff]
  constructor
  · rintro ⟨after, h, rfl⟩
    have happend := List.append_eq_of_isPrefixOf?_eq_some h
    exact String.toList_injective (by simp [happend])
  · rintro rfl
    exact ⟨rest.toList, List.isPrefixOf?_eq_some_iff_append_eq.mpr (by simp), by simp⟩

theorem afterStart_eq_none {start s : String} :
    afterStart start s = none ↔ startsWith start s = false := by
  rw [Option.eq_none_iff_forall_ne_some, Bool.eq_false_iff, ne_eq, startsWith_iff, not_exists]
  exact forall_congr' fun rest => not_congr afterStart_eq_some

theorem split_ofList (sep : Char) (cs : List Char) :
    split sep (String.ofList cs) = (fields sep cs).map String.ofList := by
  rw [split, String.toList_ofList]

theorem join_map_ofList (sep : Char) (parts : List (List Char)) :
    join sep (parts.map String.ofList) = String.ofList (joined sep parts) := by
  rw [join, List.map_map, String.toList_comp_ofList, List.map_id]

@[simp] theorem join_split (sep : Char) (s : String) : join sep (split sep s) = s := by
  rw [split, join_map_ofList, joined_fields, String.ofList_toList]

theorem split_ne_nil (sep : Char) (s : String) : split sep s ≠ [] := by
  rw [split, ne_eq, List.map_eq_nil_iff]
  exact fields_ne_nil sep s.toList

theorem notMem_of_mem_split {piece s : String} (h : piece ∈ split sep s) : sep ∉ piece.toList := by
  obtain ⟨cs, hcs, rfl⟩ := List.mem_map.mp h
  rw [String.toList_ofList]
  exact notMem_of_mem_fields hcs

theorem split_join {pieces : List String} (h : pieces ≠ [])
    (hsep : ∀ piece ∈ pieces, sep ∉ piece.toList) : split sep (join sep pieces) = pieces := by
  have hne : pieces.map String.toList ≠ [] := by simpa using h
  have hfields : fields sep (joined sep (pieces.map String.toList)) = pieces.map String.toList := by
    refine fields_joined hne ?_
    intro piece hpiece
    obtain ⟨string, hstring, rfl⟩ := List.mem_map.mp hpiece
    exact hsep string hstring
  rw [join, split_ofList, hfields, List.map_map, String.ofList_comp_toList, List.map_id]

@[simp] theorem join_singleton (sep : Char) (piece : String) : join sep [piece] = piece := by
  simp [join, joined]

theorem join_append {pieces more : List String} (h : pieces ≠ []) (h' : more ≠ []) :
    join '/' (pieces ++ more) = join '/' pieces ++ "/" ++ join '/' more := by
  have hne : pieces.map String.toList ≠ [] := by simpa using h
  have hne' : more.map String.toList ≠ [] := by simpa using h'
  apply String.toList_injective
  rw [join, join, join, List.map_append, joined_append '/' hne hne']
  simp

theorem join_cons (piece : String) {pieces : List String} (h : pieces ≠ []) :
    join '/' (piece :: pieces) = piece ++ "/" ++ join '/' pieces := by
  have happend := join_append (List.cons_ne_nil piece []) h
  rwa [join_singleton, List.singleton_append] at happend

theorem join_ne_empty {pieces : List String} (h : ∀ piece ∈ pieces, piece ≠ "")
    (hne : pieces ≠ []) : join '/' pieces ≠ "" := by
  cases pieces with
  | nil => exact absurd rfl hne
  | cons piece rest =>
    have hpiece := h piece List.mem_cons_self
    by_cases hrest : rest = []
    · rw [hrest, join_singleton]
      exact hpiece
    · rw [join_cons piece hrest]
      simp [hpiece]

end TargetGen.Text
