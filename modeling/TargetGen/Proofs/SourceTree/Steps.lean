import TargetGen.Proofs.Path
import TargetGen.SourceTree.Disk

/-!
# Steps — paths as the names that lead to them

On a disk a path is followed name by name. A path in normal form has plain steps:
each is the name of some entry, and none stays or leads up. Plain steps and paths
in normal form are the same thing seen from two sides, and a path takes as many
bytes as its steps do, each with the `/` before it.
-/

namespace TargetGen

variable {path dir name : String} {names more : List String}

/-! ## Plain steps -/

namespace Path.IsName

theorem ne_empty (h : IsName name.toList) : name ≠ "" := by
  rintro rfl
  exact h.nonempty rfl

theorem ne_here (h : IsName name.toList) : name ≠ "." := by
  rintro rfl
  exact h.not_here rfl

theorem ne_up (h : IsName name.toList) : name ≠ ".." := by
  rintro rfl
  exact h.not_up rfl

end Path.IsName

namespace Disk

/-- Every step is the name of an entry. -/
def Plain (names : List String) : Prop := ∀ name ∈ names, Path.IsName name.toList

@[simp] theorem plain_append_iff : Plain (names ++ more) ↔ Plain names ∧ Plain more :=
  List.forall_mem_append

@[simp] theorem plain_cons_iff : Plain (name :: names) ↔ Path.IsName name.toList ∧ Plain names :=
  List.forall_mem_cons

theorem Plain.map_toList (h : Plain names) : Path.Names (names.map String.toList) := by
  intro c hc
  obtain ⟨name, hname, rfl⟩ := List.mem_map.mp hc
  exact h name hname

theorem plain_map_ofList {parts : List (List Char)} (h : Path.Names parts) :
    Plain (parts.map String.ofList) := by
  intro name hname
  obtain ⟨c, hc, rfl⟩ := List.mem_map.mp hname
  rw [String.toList_ofList]
  exact h c hc

/-! ## Bytes -/

/-- The bytes of steps, each with the `/` before it. -/
def bytesOf : List String → Nat
  | [] => 0
  | name :: rest => name.utf8ByteSize + 1 + bytesOf rest

theorem bytesOf_cons (name : String) (names : List String) :
    bytesOf (name :: names) = name.utf8ByteSize + 1 + bytesOf names := rfl

@[simp] theorem bytesOf_append (names more : List String) :
    bytesOf (names ++ more) = bytesOf names + bytesOf more := by
  induction names with
  | nil => exact (Nat.zero_add _).symm
  | cons name rest ih =>
    rw [List.cons_append, bytesOf_cons, bytesOf_cons, ih]
    omega

theorem utf8ByteSize_join (h : names ≠ []) :
    (Text.join '/' names).utf8ByteSize + 1 = bytesOf names := by
  induction names with
  | nil => exact absurd rfl h
  | cons name rest ih =>
    rw [bytesOf_cons]
    cases rest with
    | nil => simp [Text.join, Text.joined, bytesOf]
    | cons next later =>
      have hcut : Text.join '/' (name :: next :: later) =
          name ++ "/" ++ Text.join '/' (next :: later) := by
        apply String.toList_injective
        rw [Path.toList_slash, Text.join, Text.join, String.toList_ofList, String.toList_ofList]
        rfl
      have hrest := ih (List.cons_ne_nil next later)
      have hslash : "/".utf8ByteSize = 1 := rfl
      rw [hcut, String.utf8ByteSize_append, String.utf8ByteSize_append, hslash]
      omega

theorem utf8ByteSize_below (shown : String) (h : Plain names) :
    (below shown names).utf8ByteSize = shown.utf8ByteSize + bytesOf names := by
  have hplain : names.filter (· ≠ "") = names := by
    refine List.filter_eq_self.mpr fun name hname => ?_
    exact decide_eq_true (h name hname).ne_empty
  have hlast : names.getLast? ≠ some "" := by
    intro hlast
    exact (h "" (List.mem_of_getLast? hlast)).ne_empty rfl
  have hjoin : ∀ names : List String,
      (String.join (names.map ("/" ++ ·))).utf8ByteSize = bytesOf names := by
    intro names
    induction names with
    | nil => rfl
    | cons name rest ih =>
      have hslash : "/".utf8ByteSize = 1 := rfl
      rw [List.map_cons, String.join_cons, String.utf8ByteSize_append, String.utf8ByteSize_append,
        ih, bytesOf_cons, hslash]
      omega
  rw [below, if_neg hlast, hplain, String.utf8ByteSize_append, hjoin]

theorem bytes_below (d : Disk) (h : Plain names) :
    d.bytes (below d.title names) = d.titleBytes + bytesOf names := by
  rw [bytes, utf8ByteSize_below d.title h, Nat.add_sub_cancel_left]

/-- Below it there is room for what else a path may take, but for the `/` between them. -/
theorem le_room_below (d : Disk) (h : Plain names) :
    pathLimit - (d.titleBytes + bytesOf names + 1) ≤ d.room (below d.title names) := by
  have hextend : (extend (below d.title names) "").utf8ByteSize ≤
      (below d.title names).utf8ByteSize + 1 := by
    have hslash : "/".utf8ByteSize = 1 := rfl
    have hempty : "".utf8ByteSize = 0 := rfl
    have happend : ∀ a b : String, (a ++ b).utf8ByteSize = a.utf8ByteSize + b.utf8ByteSize :=
      fun _ _ => String.utf8ByteSize_append
    unfold extend
    split
    next =>
      have hsize := happend (below d.title names) ""
      omega
    next =>
      have hsize := happend (below d.title names ++ "/") ""
      have hstart := happend (below d.title names) "/"
      omega
  rw [utf8ByteSize_below d.title h] at hextend
  rw [room, bytes]
  omega

end Disk

/-! ## Paths in normal form -/

namespace Mount

open Disk (Plain bytesOf)

theorem isTop_iff (h : Path.clean path = path) : Path.isTop path = true ↔ path = Path.top :=
  (Path.isTop_iff h).trans (Path.components_eq_nil_iff h)

theorem steps_eq (h : Path.clean path = path) :
    steps path = (Path.components path).map String.ofList := by
  unfold steps
  by_cases htop : Path.isTop path = true
  · rw [if_pos htop, (Path.isTop_iff h).mp htop]
    rfl
  · have hne : Path.components path ≠ [] := mt (Path.isTop_iff h).mpr htop
    rw [if_neg htop, Text.split, Path.toList_clean_of_ne_nil h hne,
      Text.fields_joined hne (Path.names_components path).no_slash]

theorem plain_steps (h : Path.clean path = path) : Plain (steps path) := by
  rw [steps_eq h]
  exact Disk.plain_map_ofList (Path.names_components path)

theorem steps_eq_nil_iff (h : Path.clean path = path) : steps path = [] ↔ path = Path.top := by
  rw [steps_eq h, List.map_eq_nil_iff, Path.components_eq_nil_iff h]

theorem steps_inj {other : String} (h : Path.clean path = path) (h' : Path.clean other = other) :
    steps path = steps other ↔ path = other := by
  refine ⟨fun heq => ?_, congrArg steps⟩
  rw [steps_eq h, steps_eq h'] at heq
  have hcomponents := List.map_injective_iff.mpr (fun _ _ h => String.ofList_injective h) heq
  rw [← Path.ofComponents_components h, hcomponents, Path.ofComponents_components h']

theorem steps_of_ne_top (h : Path.clean path = path) (hne : path ≠ Path.top) :
    steps path = Text.split '/' path := by
  have htop : ¬ Path.isTop path = true := mt (isTop_iff h).mp hne
  rw [steps, if_neg htop]

theorem getLast?_ne_slash (h : Path.clean path = path) (hne : path ≠ Path.top) :
    path.toList.getLast? ≠ some '/' := by
  intro hlast
  obtain ⟨before, hsplit⟩ := List.getLast?_eq_some_iff.mp hlast
  have hempty : "" ∈ steps path := by
    rw [steps_of_ne_top h hne, Text.split, hsplit, Text.fields_append, List.map_append]
    exact List.mem_append_right _ (List.mem_singleton.mpr rfl)
  exact (plain_steps h "" hempty).ne_empty rfl

theorem join_steps (h : Path.clean path = path) (hne : path ≠ Path.top) :
    Text.join '/' (steps path) = path := by
  have hcomponents : Path.components path ≠ [] := mt (Path.components_eq_nil_iff h).mp hne
  rw [steps_eq h, Text.join_map_ofList, ← Path.ofComponents_of_ne_nil hcomponents]
  exact Path.ofComponents_components h

theorem steps_join (h : Plain names) : steps (Text.join '/' names) = names := by
  by_cases hnil : names = []
  · subst hnil
    rfl
  · have hjoin : Text.join '/' names = Path.ofComponents (names.map String.toList) :=
      (Path.ofComponents_of_ne_nil (by simpa using hnil)).symm
    have hcomponents := Path.components_ofComponents h.map_toList
    have hclean : Path.clean (Text.join '/' names) = Text.join '/' names := by
      rw [hjoin, Path.clean, hcomponents]
    rw [steps_eq hclean, hjoin, hcomponents, List.map_map, String.ofList_comp_toList, List.map_id]

/-- **To lie below a directory** is to go on from its steps. -/
theorem isWithin_iff_steps (hdir : Path.clean dir = dir) (hpath : Path.clean path = path)
    (hbelow : path ≠ Path.top) :
    Path.isWithin dir path = true ↔ ∃ rest, rest ≠ [] ∧ steps path = steps dir ++ rest := by
  rw [Path.isWithin_iff hdir hpath hbelow, steps_eq hdir, steps_eq hpath]
  constructor
  · rintro ⟨rest, hrest, hsplit⟩
    refine ⟨rest.map String.ofList, ?_, ?_⟩
    · simpa using hrest
    · rw [hsplit, List.map_append]
  · rintro ⟨rest, hrest, hsplit⟩
    have hback := congrArg (List.map String.toList) hsplit
    simp only [List.map_append, List.map_map, String.toList_comp_ofList, List.map_id] at hback
    exact ⟨rest.map String.toList, by simpa using hrest, hback⟩

theorem utf8ByteSize_eq (h : Path.clean path = path) (hne : path ≠ Path.top) :
    path.utf8ByteSize + 1 = bytesOf (steps path) := by
  conv_lhs => rw [← join_steps h hne]
  exact Disk.utf8ByteSize_join (mt (steps_eq_nil_iff h).mp hne)

end Mount

end TargetGen
