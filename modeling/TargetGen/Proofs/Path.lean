import Mathlib.Data.List.Basic
import TargetGen.Path
import TargetGen.Proofs.Text

/-!
# Normal form — paths as lists of names

A component that normal form keeps is a name: not empty, no `.` and no `..`, and
without `/`. Lists of names and paths in normal form are the same thing seen
from two sides (`components_ofComponents`, `ofComponents_components`). So
whatever is said about paths is said about lists: joining appends, and to lie
below a directory is to have its names as the first ones.
-/

namespace TargetGen.Path

variable {dir path : String} {c : List Char} {kept parts more : List (List Char)}

/-! ## Names -/

/-- A component that stays as it is. -/
structure IsName (c : List Char) : Prop where
  nonempty : c ≠ []
  not_here : c ≠ ['.']
  not_up : c ≠ ['.', '.']
  no_slash : '/' ∉ c

/-- Nothing but names. -/
def Names (parts : List (List Char)) : Prop := ∀ c ∈ parts, IsName c

theorem Names.no_slash (h : Names parts) : ∀ c ∈ parts, '/' ∉ c := fun c hc => (h c hc).no_slash

@[simp] theorem names_append_iff : Names (parts ++ more) ↔ Names parts ∧ Names more :=
  List.forall_mem_append

theorem foldComponents_append (kept a b : List (List Char)) :
    foldComponents kept (a ++ b) = foldComponents (foldComponents kept a) b := by
  induction a generalizing kept with
  | nil => rfl
  | cons c rest ih =>
    rw [List.cons_append, foldComponents, foldComponents.eq_2 kept c rest]
    by_cases hskip : c = [] ∨ c = ['.']
    · rw [if_pos hskip, if_pos hskip]
      exact ih kept
    · rw [if_neg hskip, if_neg hskip]
      by_cases hup : c = ['.', '.']
      · rw [if_pos hup, if_pos hup]
        exact ih kept.tail
      · rw [if_neg hup, if_neg hup]
        exact ih (c :: kept)

theorem foldComponents_names (h : Names parts) (kept : List (List Char)) :
    foldComponents kept parts = parts.reverse ++ kept := by
  induction parts generalizing kept with
  | nil => rfl
  | cons c rest ih =>
    have hc := h c List.mem_cons_self
    have hskip : ¬(c = [] ∨ c = ['.']) := not_or.mpr ⟨hc.nonempty, hc.not_here⟩
    rw [foldComponents, if_neg hskip, if_neg hc.not_up,
      ih (fun other ho => h other (List.mem_cons_of_mem c ho)) (c :: kept)]
    simp

theorem names_foldComponents (hkept : Names kept) (h : ∀ c ∈ parts, '/' ∉ c) :
    Names (foldComponents kept parts) := by
  induction parts generalizing kept with
  | nil => exact hkept
  | cons c rest ih =>
    have hrest := fun other ho => h other (List.mem_cons_of_mem c ho)
    unfold foldComponents
    split
    next => exact ih hkept hrest
    next hskip =>
      split
      next => exact ih (fun other ho => hkept other (List.mem_of_mem_tail ho)) hrest
      next hup =>
        obtain ⟨hempty, hhere⟩ := not_or.mp hskip
        have hname : IsName c := ⟨hempty, hhere, hup, h c List.mem_cons_self⟩
        exact ih (List.forall_mem_cons.mpr ⟨hname, hkept⟩) hrest

/-- **Components are names.** -/
theorem names_components (path : String) : Names (components path) := by
  intro c hc
  have hfields : ∀ c ∈ Text.fields '/' path.toList, '/' ∉ c :=
    fun c hc => Text.notMem_of_mem_fields hc
  have hnames : Names (foldComponents [] (Text.fields '/' path.toList)) :=
    names_foldComponents (List.forall_mem_nil _) hfields
  exact hnames c (List.mem_reverse.mp hc)

/-! ## There and back -/

theorem ofComponents_of_ne_nil (h : parts ≠ []) :
    ofComponents parts = String.ofList (Text.joined '/' parts) := by
  cases parts with
  | nil => exact absurd rfl h
  | cons c rest => rfl

/-- **Names are the components of their path.** -/
theorem components_ofComponents (h : Names parts) : components (ofComponents parts) = parts := by
  by_cases hnil : parts = []
  · subst hnil
    decide
  · rw [ofComponents_of_ne_nil hnil, components, String.toList_ofList,
      Text.fields_joined hnil h.no_slash, foldComponents_names h]
    simp

@[simp] theorem components_clean (path : String) : components (clean path) = components path :=
  components_ofComponents (names_components path)

@[simp] theorem clean_clean (path : String) : clean (clean path) = clean path := by
  rw [clean, components_clean, clean]

theorem ofComponents_components (h : clean path = path) : ofComponents (components path) = path :=
  h

theorem components_eq_nil_iff (h : clean path = path) : components path = [] ↔ path = top := by
  constructor
  · intro hnil
    rw [← h, clean, hnil]
    rfl
  · rintro rfl
    decide

theorem isTop_iff (h : clean dir = dir) : isTop dir = true ↔ components dir = [] := by
  rw [components_eq_nil_iff h, isTop]
  constructor
  · intro htop
    rcases (Bool.or_eq_true _ _).mp htop with hempty | hdot
    · rw [of_decide_eq_true hempty] at h
      exact absurd h (by decide)
    · exact of_decide_eq_true hdot
  · rintro rfl
    decide

theorem toList_clean_of_ne_nil (h : clean path = path) (hne : components path ≠ []) :
    path.toList = Text.joined '/' (components path) := by
  conv_lhs => rw [← h, clean, ofComponents_of_ne_nil hne, String.toList_ofList]

theorem toList_slash (dir path : String) :
    (dir ++ "/" ++ path).toList = dir.toList ++ '/' :: path.toList := by
  rw [String.toList_append, String.toList_append, List.append_assoc]
  rfl

/-! ## Joining -/

/-- The components of a joined path are those of the directory, worked on by
what is joined to it. -/
theorem components_join (dir path : String) :
    components (join dir path) =
      (foldComponents (components dir).reverse (Text.fields '/' path.toList)).reverse := by
  unfold join
  by_cases htop : isTop dir = true
  · have hnil : components dir = [] := by
      rcases (Bool.or_eq_true _ _).mp htop with hempty | hdot
      · rw [of_decide_eq_true hempty]
        decide
      · rw [of_decide_eq_true hdot]
        decide
    rw [if_pos htop, components_clean, hnil, components]
    rfl
  · rw [if_neg htop, components_clean, components, toList_slash, Text.fields_append,
      foldComponents_append, components, List.reverse_reverse]

@[simp] theorem clean_join (dir path : String) : clean (join dir path) = join dir path := by
  unfold join
  split <;> exact clean_clean _

/-- **Joining appends** what is spelled in names only. -/
theorem join_names (dir : String) (hparts : Names parts) (hne : parts ≠ []) :
    join dir (String.ofList (Text.joined '/' parts)) = ofComponents (components dir ++ parts) := by
  rw [← clean_join, clean, components_join, String.toList_ofList,
    Text.fields_joined hne hparts.no_slash, foldComponents_names hparts]
  simp

/-! ## Containment -/

theorem eq_slash {rest : List (List Char)} (hdir : clean dir = dir) (hpath : clean path = path)
    (hne : components dir ≠ []) (hrest : rest ≠ [])
    (hsplit : components path = components dir ++ rest) :
    path = dir ++ "/" ++ String.ofList (Text.joined '/' rest) := by
  have hpathne : components path ≠ [] := by
    rw [hsplit]
    exact List.append_ne_nil_of_left_ne_nil hne rest
  apply String.toList_injective
  rw [toList_slash, String.toList_ofList, toList_clean_of_ne_nil hpath hpathne, hsplit,
    Text.joined_append '/' hne hrest, toList_clean_of_ne_nil hdir hne]

theorem components_of_eq_slash {after : String} (hpath : clean path = path) (hbelow : path ≠ top)
    (h : path = dir ++ "/" ++ after) :
    components path = Text.fields '/' dir.toList ++ Text.fields '/' after.toList := by
  have hne : components path ≠ [] := mt (components_eq_nil_iff hpath).mp hbelow
  have hfields := congrArg (Text.fields '/') (toList_clean_of_ne_nil hpath hne)
  rw [Text.fields_joined hne (names_components path).no_slash] at hfields
  rw [← hfields, h, toList_slash, Text.fields_append]

/-- **To lie below a directory** is to have its names as the first ones. -/
theorem isWithin_iff (hdir : clean dir = dir) (hpath : clean path = path) (hbelow : path ≠ top) :
    isWithin dir path = true ↔
      ∃ rest, rest ≠ [] ∧ components path = components dir ++ rest := by
  have hne : components path ≠ [] := mt (components_eq_nil_iff hpath).mp hbelow
  by_cases htop : isTop dir = true
  · have hnil := (isTop_iff hdir).mp htop
    rw [isWithin, htop, hnil]
    exact iff_of_true rfl ⟨components path, hne, rfl⟩
  · have hdirne : components dir ≠ [] := mt (isTop_iff hdir).mpr htop
    rw [isWithin, Bool.eq_false_iff.mpr htop, Bool.false_or, Text.startsWith_iff]
    constructor
    · rintro ⟨after, h⟩
      refine ⟨Text.fields '/' after.toList, Text.fields_ne_nil '/' after.toList, ?_⟩
      rw [components_of_eq_slash hpath hbelow h, toList_clean_of_ne_nil hdir hdirne,
        Text.fields_joined hdirne (names_components dir).no_slash]
    · rintro ⟨rest, hrest, hsplit⟩
      exact ⟨_, eq_slash hdir hpath hdirne hrest hsplit⟩

theorem relativeTo_eq {rest : List (List Char)} (hdir : clean dir = dir) (hpath : clean path = path)
    (hrest : rest ≠ []) (hsplit : components path = components dir ++ rest) :
    relativeTo dir path = String.ofList (Text.joined '/' rest) := by
  unfold relativeTo
  by_cases htop : isTop dir = true
  · have hall : components path = rest := by
      rw [hsplit, (isTop_iff hdir).mp htop, List.nil_append]
    rw [if_pos htop]
    apply String.toList_injective
    rw [toList_clean_of_ne_nil hpath (hall ▸ hrest), hall, String.toList_ofList]
  · have hne : components dir ≠ [] := mt (isTop_iff hdir).mpr htop
    rw [if_neg htop, Text.afterStart_eq_some.mpr (eq_slash hdir hpath hne hrest hsplit)]
    rfl

/-! ## Patterns -/

theorem mem_of_mem_foldComponents (h : c ∈ foldComponents kept parts) : c ∈ kept ∨ c ∈ parts := by
  induction parts generalizing kept with
  | nil => exact .inl h
  | cons first rest ih =>
    unfold foldComponents at h
    split at h
    next => exact (ih h).imp_right (List.mem_cons_of_mem first)
    next =>
      split at h
      next => exact (ih h).imp List.mem_of_mem_tail (List.mem_cons_of_mem first)
      next =>
        rcases ih h with hkept | hrest
        · rcases List.mem_cons.mp hkept with rfl | hkept
          · exact .inr List.mem_cons_self
          · exact .inl hkept
        · exact .inr (List.mem_cons_of_mem first hrest)

theorem isGlob_clean (h : isGlob path = false) : isGlob (clean path) = false := by
  have hplain : ∀ x ∈ path.toList, isWildcard x = false := by simpa [isGlob] using h
  unfold clean
  by_cases hnil : components path = []
  · rw [hnil]
    decide
  · rw [ofComponents_of_ne_nil hnil, isGlob, String.toList_ofList, List.any_eq_false]
    intro x hx
    rcases Text.mem_joined hx with rfl | ⟨piece, hpiece, hxpiece⟩
    · decide
    · have hfields : piece ∈ Text.fields '/' path.toList :=
        (mem_of_mem_foldComponents (List.mem_reverse.mp hpiece)).resolve_left List.not_mem_nil
      rw [hplain x (Text.mem_of_mem_fields hfields hxpiece)]
      exact Bool.false_ne_true

theorem isGlob_join (hdir : isGlob dir = false) (hpath : isGlob path = false) :
    isGlob (join dir path) = false := by
  unfold join
  split
  next => exact isGlob_clean hpath
  next =>
    apply isGlob_clean
    rw [isGlob] at hdir hpath ⊢
    rw [toList_slash, List.any_append, List.any_cons, hdir, hpath]
    decide

end TargetGen.Path
