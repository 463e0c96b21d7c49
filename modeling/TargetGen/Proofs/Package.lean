import Mathlib.Tactic.Tauto
import TargetGen.Module
import TargetGen.Package
import TargetGen.Proofs.Path

/-!
# Owner — the one package that a path belongs to

The owner of a path is told by a number, `Packages.ownerDepth`: how many of its
names lead to the deepest directory above it that is a package. Two algorithms
find it, one from the top of the tree and one from the directory of a module
down. Both are shown to come to the address with that number of names before the
`:` and the others behind it (`Packages.ownedAddress`); the one that starts from
a module's directory needs that directory to be a package itself, or the top.

What the number means for the text of a path is said by `Packages.IsOwner`.
-/

namespace TargetGen.Packages

open TargetGen.Path

/-! ## The last of some numbers -/

theorem lastUpTo_eq_none {found : Nat → Bool} {n : Nat} :
    lastUpTo found n = none ↔ ∀ k, 1 ≤ k → k ≤ n → found k = false := by
  induction n with
  | zero =>
    apply iff_of_true rfl
    intro k hk hle
    omega
  | succ n ih =>
    unfold lastUpTo
    by_cases hf : found (n + 1) = true
    · rw [if_pos hf]
      apply iff_of_false (Option.some_ne_none _)
      intro h
      rw [h (n + 1) (by omega) (Nat.le_refl _)] at hf
      cases hf
    · rw [if_neg hf, ih]
      constructor
      · intro h k hk hle
        by_cases hlast : k = n + 1
        · rw [hlast]
          exact Bool.eq_false_iff.mpr hf
        · exact h k hk (by omega)
      · intro h k hk hle
        exact h k hk (by omega)

theorem lastUpTo_eq_some {found : Nat → Bool} {n k : Nat} :
    lastUpTo found n = some k ↔
      1 ≤ k ∧ k ≤ n ∧ found k = true ∧ ∀ j, k < j → j ≤ n → found j = false := by
  induction n with
  | zero =>
    apply iff_of_false (Option.some_ne_none k).symm
    intro h
    omega
  | succ n ih =>
    unfold lastUpTo
    by_cases hf : found (n + 1) = true
    · rw [if_pos hf, Option.some_inj]
      constructor
      · rintro rfl
        exact ⟨by omega, (Nat.le_refl _), hf, fun j hj hle => by omega⟩
      · rintro ⟨-, hle, -, hlast⟩
        by_contra hne
        rw [hlast (n + 1) (by omega) (Nat.le_refl _)] at hf
        cases hf
    · rw [if_neg hf, ih]
      constructor
      · rintro ⟨hk, hle, hfound, hlast⟩
        refine ⟨hk, by omega, hfound, fun j hj hle' => ?_⟩
        by_cases hj' : j = n + 1
        · rw [hj']
          exact Bool.eq_false_iff.mpr hf
        · exact hlast j hj (by omega)
      · rintro ⟨hk, hle, hfound, hlast⟩
        have hne : k ≠ n + 1 := by
          rintro rfl
          exact hf hfound
        exact ⟨hk, by omega, hfound, fun j hj hle' => hlast j hj (by omega)⟩

/-! ## The owner in names -/

/-- Whether the directory that the first `n` names of a path lead to is a package. -/
def boundaryAt (p : Packages) (path : String) (n : Nat) : Bool :=
  p.isBoundary (ofComponents ((components path).take n))

/-- How many of its names lead to the owner of a path: none, if that is the package at
the top. -/
def ownerDepth (p : Packages) (path : String) : Nat :=
  (lastUpTo (p.boundaryAt path) ((components path).length - 1)).getD 0

/-- Names with `/` between them; no names are the empty text. -/
def spelled (parts : List (List Char)) : String := String.ofList (Text.joined '/' parts)

/-- The address of a path in the package that its first `n` names lead to. -/
def addressAt (path : String) (n : Nat) : String :=
  "//" ++ spelled ((components path).take n) ++ ":" ++ spelled ((components path).drop n)

/-- The address of a path in the package that owns it. -/
def ownedAddress (p : Packages) (path : String) : String := addressAt path (p.ownerDepth path)

variable {p : Packages} {dir path : String} {n : Nat} {rest : List (List Char)}

theorem ofComponents_eq_spelled {parts : List (List Char)} (h : parts ≠ []) :
    ofComponents parts = spelled parts := ofComponents_of_ne_nil h

theorem take_ne_nil {parts : List (List Char)} (hn : n ≠ 0) (h : parts ≠ []) :
    parts.take n ≠ [] := by
  rw [ne_eq, List.take_eq_nil_iff, not_or]
  exact ⟨hn, h⟩

theorem drop_ne_nil {parts : List (List Char)} (hn : n < parts.length) : parts.drop n ≠ [] := by
  rw [ne_eq, List.drop_eq_nil_iff]
  omega

theorem ownerDepth_eq (hlt : n < (components path).length)
    (hn : n ≠ 0 → p.boundaryAt path n = true)
    (hlast : ∀ k, n < k → k < (components path).length → p.boundaryAt path k = false) :
    p.ownerDepth path = n := by
  unfold ownerDepth
  by_cases hzero : n = 0
  · subst hzero
    have hnone : lastUpTo (p.boundaryAt path) ((components path).length - 1) = none :=
      lastUpTo_eq_none.mpr fun k hk hle => hlast k hk (by omega)
    rw [hnone]
    rfl
  · have hsome : lastUpTo (p.boundaryAt path) ((components path).length - 1) = some n :=
      lastUpTo_eq_some.mpr
        ⟨by omega, by omega, hn hzero, fun k hk hle => hlast k hk (by omega)⟩
    rw [hsome]
    rfl

theorem ownerDepth_spec (hne : components path ≠ []) :
    p.ownerDepth path < (components path).length ∧
      (p.ownerDepth path ≠ 0 → p.boundaryAt path (p.ownerDepth path) = true) ∧
      ∀ k, p.ownerDepth path < k → k < (components path).length →
        p.boundaryAt path k = false := by
  have hpos : 0 < (components path).length := List.length_pos_iff.mpr hne
  unfold ownerDepth
  cases hl : lastUpTo (p.boundaryAt path) ((components path).length - 1) with
  | none =>
    rw [lastUpTo_eq_none] at hl
    exact ⟨hpos, fun h => absurd rfl h, fun k hk hlt => hl k hk (by omega)⟩
  | some n =>
    obtain ⟨hn, hle, hfound, hlast⟩ := lastUpTo_eq_some.mp hl
    show n < _ ∧ (n ≠ 0 → _) ∧ ∀ k, n < k → _
    exact ⟨by omega, fun _ => hfound, fun k hk hlt => hlast k hk (by omega)⟩

/-! ## Seen from the top -/

/-- **From the top** a path is addressed through its owner. -/
theorem address_ownerFromTop (hpath : clean path = path) (hbelow : path ≠ top) :
    (p.ownerFromTop path).address = p.ownedAddress path := by
  have hne : components path ≠ [] := mt (components_eq_nil_iff hpath).mp hbelow
  unfold ownerFromTop ownedAddress ownerDepth
  cases hl : lastUpTo (p.boundaryAt path) ((components path).length - 1) with
  | none =>
    have hfound : lastUpTo (fun n => p.isBoundary (ofComponents ((components path).take n)))
        ((components path).length - 1) = none := hl
    simp only [hfound, Option.getD_none, addressAt, List.take_zero, List.drop_zero]
    rw [clean, ofComponents_eq_spelled hne]
    rfl
  | some n =>
    obtain ⟨hn, hle, -, -⟩ := lastUpTo_eq_some.mp hl
    have hpos : 0 < (components path).length := List.length_pos_iff.mpr hne
    have hfound : lastUpTo (fun n => p.isBoundary (ofComponents ((components path).take n)))
        ((components path).length - 1) = some n := hl
    have htake : (components path).take n ≠ [] := by
      rw [ne_eq, List.take_eq_nil_iff, not_or]
      exact ⟨by omega, hne⟩
    have hdrop : (components path).drop n ≠ [] := by
      rw [ne_eq, List.drop_eq_nil_iff]
      omega
    simp only [hfound, Option.getD_some, addressAt]
    rw [ofComponents_eq_spelled htake, ofComponents_eq_spelled hdrop]

/-! ## Seen from a module -/

/-- An address as it is written outside its package; a path becomes a file of `package`. -/
def absolute (package address : String) : String :=
  if Text.startsWith "//" address then address else "//" ++ package ++ ":" ++ address

theorem absolute_of_absolute {package address : String}
    (h : Text.startsWith "//" address = true) : absolute package address = address := by
  rw [absolute, if_pos h]

theorem resolve_of_absolute {address : String} (h : Text.startsWith "//" address = true) :
    p.resolve dir address = address := by
  rw [resolve, h, Bool.true_or, if_pos rfl]

theorem startsWith_ownedAddress (p : Packages) (path : String) :
    Text.startsWith "//" (p.ownedAddress path) = true := by
  rw [ownedAddress, addressAt, String.append_assoc, String.append_assoc]
  exact Text.startsWith_iff.mpr ⟨_, rfl⟩

theorem toList_spelled (parts : List (List Char)) :
    (spelled parts).toList = Text.joined '/' parts := String.toList_ofList

theorem spelled_append {parts more : List (List Char)} (h : parts ≠ []) (h' : more ≠ []) :
    spelled (parts ++ more) = spelled parts ++ "/" ++ spelled more := by
  apply String.toList_injective
  rw [toList_slash, toList_spelled, toList_spelled, toList_spelled, Text.joined_append '/' h h']

theorem spelled_components (hdir : clean dir = dir) (hne : components dir ≠ []) :
    spelled (components dir) = dir := by
  rw [← ofComponents_eq_spelled hne]
  exact hdir

theorem exists_head_spelled (hnames : Names rest) (hne : rest ≠ []) :
    ∃ first after, (spelled rest).toList = first :: after ∧ first ≠ '/' := by
  obtain ⟨c, more, rfl⟩ := List.exists_cons_of_ne_nil hne
  have hname := hnames c List.mem_cons_self
  obtain ⟨first, later, rfl⟩ := List.exists_cons_of_ne_nil hname.nonempty
  have hslash : first ≠ '/' := fun h => hname.no_slash (h ▸ List.mem_cons_self)
  cases more with
  | nil => exact ⟨first, later, toList_spelled _, hslash⟩
  | cons next others => exact ⟨first, _, toList_spelled _, hslash⟩

theorem not_absolute_spelled (hnames : Names rest) (hne : rest ≠ []) :
    Text.startsWith "//" (spelled rest) = false := by
  obtain ⟨first, after, hhead, hslash⟩ := exists_head_spelled hnames hne
  simp [Text.startsWith, hhead, List.isPrefixOf, Ne.symm hslash]

theorem not_local_spelled (hnames : Names rest) (hne : rest ≠ [])
    (hcolon : ':' ∉ Text.joined '/' rest) : Text.startsWith ":" (spelled rest) = false := by
  obtain ⟨first, after, hhead, -⟩ := exists_head_spelled hnames hne
  rw [← toList_spelled, hhead] at hcolon
  have hfirst : first ≠ ':' := fun h => hcolon (h ▸ List.mem_cons_self)
  simp [Text.startsWith, hhead, List.isPrefixOf, Ne.symm hfirst]

/-- What a step of a path is. -/
structure IsStep (name : String) : Prop where
  nonempty : name ≠ ""
  not_here : name ≠ "."
  no_slash : '/' ∉ name.toList

theorem isStep_of_mem_steps {address name : String} (h : name ∈ steps address) : IsStep name := by
  obtain ⟨hsplit, hkept⟩ := List.mem_filter.mp h
  obtain ⟨c, hc, rfl⟩ := List.mem_map.mp hsplit
  obtain ⟨hempty, hhere⟩ := (Bool.and_eq_true _ _).mp hkept
  have hslash : '/' ∉ (String.ofList c).toList := by
    rw [String.toList_ofList]
    exact Text.notMem_of_mem_fields hc
  exact ⟨of_decide_eq_true hempty, of_decide_eq_true hhere, hslash⟩

theorem steps_join {names : List String} (h : ∀ name ∈ names, IsStep name) (hne : names ≠ []) :
    steps (Text.join '/' names) = names := by
  have hslash : ∀ piece ∈ names.map String.toList, '/' ∉ piece := by
    intro piece hpiece
    obtain ⟨name, hname, rfl⟩ := List.mem_map.mp hpiece
    exact (h name hname).no_slash
  unfold steps Text.join
  rw [Text.split_ofList, Text.fields_joined (by simpa using hne) hslash, List.map_map,
    String.ofList_comp_toList, List.map_id, List.filter_eq_self]
  intro name hname
  simp [(h name hname).nonempty, (h name hname).not_here]

theorem steps_spelled (hnames : Names rest) (hne : rest ≠ []) :
    steps (spelled rest) = rest.map String.ofList := by
  have hsteps : ∀ name ∈ rest.map String.ofList, IsStep name := by
    intro name hname
    obtain ⟨c, hc, rfl⟩ := List.mem_map.mp hname
    refine ⟨fun h => ?_, fun h => ?_, ?_⟩
    · exact (hnames c hc).nonempty (String.ofList_eq_empty_iff.mp h)
    · exact (hnames c hc).not_here (String.ofList_injective h)
    · rw [String.toList_ofList]
      exact (hnames c hc).no_slash
  rw [spelled, ← Text.join_map_ofList]
  exact steps_join hsteps (by simpa using hne)

theorem join_take_steps (n : Nat) (rest : List (List Char)) :
    Text.join '/' ((rest.map String.ofList).take n) = spelled (rest.take n) := by
  rw [← List.map_take, Text.join_map_ofList]
  rfl

theorem join_drop_steps (n : Nat) (rest : List (List Char)) :
    Text.join '/' ((rest.map String.ofList).drop n) = spelled (rest.drop n) := by
  rw [← List.map_drop, Text.join_map_ofList]
  rfl

theorem dirStart_append {parts : List (List Char)} (hdir : clean dir = dir) (h : parts ≠ []) :
    dirStart dir ++ spelled parts = spelled (components dir ++ parts) := by
  unfold dirStart
  by_cases htop : dir = top
  · have hnil := (components_eq_nil_iff hdir).mpr htop
    rw [if_pos htop, hnil, List.nil_append]
    simp
  · have hne : components dir ≠ [] := mt (components_eq_nil_iff hdir).mp htop
    -- in normal form nothing starts with `./`, since `.` is no name
    have hplain : Text.afterStart "./" dir = none := by
      rw [Text.afterStart_eq_none, Bool.eq_false_iff, ne_eq, Text.startsWith_iff]
      rintro ⟨after, h⟩
      have hparts : components dir = Text.fields '/' ".".toList ++ Text.fields '/' after.toList :=
        components_of_eq_slash hdir htop h
      have hname : IsName ['.'] := by
        apply names_components dir _
        rw [hparts]
        exact List.mem_cons_self
      exact hname.not_here rfl
    have hempty : dir ≠ "" := by
      rintro rfl
      exact hne (by decide)
    rw [if_neg htop, hplain, Option.getD_none, if_neg hempty, spelled_append hne h,
      spelled_components hdir hne]

theorem resolve_of_steps {address : String} (habsolute : Text.startsWith "//" address = false)
    (hlocal : Text.startsWith ":" address = false) (hne : steps address ≠ []) :
    p.resolve dir address =
      match lastUpTo (fun n => p.isBoundary
          (Path.join dir (Text.join '/' ((steps address).take n)))) (steps address).length with
      | none => Text.join '/' (steps address)
      | some n =>
        "//" ++ dirStart dir ++ Text.join '/' ((steps address).take n) ++
          (if n = (steps address).length then ""
            else ":" ++ Text.join '/' ((steps address).drop n)) := by
  unfold resolve
  rw [habsolute, hlocal, Bool.or_false, if_neg Bool.false_ne_true]
  cases hsteps : steps address with
  | nil => exact absurd hsteps hne
  | cons first others => rfl

theorem resolve_spelled (hnames : Names rest) (hne : rest ≠ [])
    (hlocal : Text.startsWith ":" (spelled rest) = false) :
    p.resolve dir (spelled rest) =
      match lastUpTo (fun n => p.isBoundary (Path.join dir (spelled (rest.take n)))) rest.length with
      | none => spelled rest
      | some n =>
        "//" ++ dirStart dir ++ spelled (rest.take n) ++
          (if n = rest.length then "" else ":" ++ spelled (rest.drop n)) := by
  have hsteps := steps_spelled hnames hne
  have hjoin : Text.join '/' (rest.map String.ofList) = spelled rest := Text.join_map_ofList '/' rest
  rw [resolve_of_steps (not_absolute_spelled hnames hne) hlocal (by simpa [hsteps] using hne), hsteps]
  simp only [join_take_steps, join_drop_steps, List.length_map, hjoin]

/-- The names of a module's path that lie below its directory, as depths. -/
theorem isBoundary_join_take (hnames : Names rest) (hsplit : components path = components dir ++ rest)
    (hn : 1 ≤ n) (hne : rest ≠ []) :
    p.isBoundary (Path.join dir (spelled (rest.take n))) =
      p.boundaryAt path ((components dir).length + n) := by
  have htake : rest.take n ≠ [] := take_ne_nil (Nat.ne_zero_of_lt hn) hne
  have htakenames : Names (rest.take n) := fun c hc => hnames c (List.mem_of_mem_take hc)
  rw [boundaryAt, hsplit, List.take_length_add_append, spelled, join_names dir htakenames htake]

section

variable (hdir : clean dir = dir) (hpath : clean path = path) (hnames : Names rest) (hne : rest ≠ [])
  (hsplit : components path = components dir ++ rest)

include hnames hne hsplit

theorem boundaryAt_eq_false (hlast : ∀ k, n < k → k ≤ rest.length →
      p.isBoundary (Path.join dir (spelled (rest.take k))) = false) :
    ∀ k, (components dir).length + n < k → k < (components path).length →
      p.boundaryAt path k = false := by
  intro k hk hlt
  rw [hsplit, List.length_append] at hlt
  have hno := hlast (k - (components dir).length) (by omega) (by omega)
  rw [isBoundary_join_take hnames hsplit (by omega) hne] at hno
  rwa [Nat.add_sub_cancel' (by omega)] at hno

include hdir in
theorem ownerDepth_of_none (hpackage : dir = top ∨ p.isBoundary dir = true)
    (hl : lastUpTo (fun n => p.isBoundary (Path.join dir (spelled (rest.take n)))) rest.length =
      none) : p.ownerDepth path = (components dir).length := by
  have hlength : (components path).length = (components dir).length + rest.length := by
    rw [hsplit, List.length_append]
  have hpos : 0 < rest.length := List.length_pos_iff.mpr hne
  have hbelow := boundaryAt_eq_false hnames hne hsplit (lastUpTo_eq_none.mp hl)
  have hown : (components dir).length ≠ 0 → p.boundaryAt path (components dir).length = true := by
    intro hdirne
    rw [boundaryAt, hsplit, List.take_left, ofComponents_components hdir]
    rcases hpackage with rfl | hboundary
    · exact absurd (by decide) hdirne
    · exact hboundary
  exact ownerDepth_eq (by omega) hown hbelow

include hpath in
theorem ownerDepth_of_some (hfile : p.isBoundary path = false)
    (hl : lastUpTo (fun n => p.isBoundary (Path.join dir (spelled (rest.take n)))) rest.length =
      some n) : n ≠ 0 ∧ n ≠ rest.length ∧ p.ownerDepth path = (components dir).length + n := by
  have hlength : (components path).length = (components dir).length + rest.length := by
    rw [hsplit, List.length_append]
  obtain ⟨hn, hle, hfound, hlast⟩ := lastUpTo_eq_some.mp hl
  rw [isBoundary_join_take hnames hsplit hn hne] at hfound
  have hproper : n ≠ rest.length := by
    rintro rfl
    rw [← hlength, boundaryAt, List.take_length, ofComponents_components hpath, hfile] at hfound
    cases hfound
  have hbelow := boundaryAt_eq_false hnames hne hsplit hlast
  refine ⟨Nat.ne_zero_of_lt hn, hproper, ?_⟩
  exact ownerDepth_eq (by omega) (fun _ => hfound) hbelow

end

/-- **From a package of its own** a module addresses what lies below its directory
through the owner as well. -/
theorem absolute_resolve (hdir : clean dir = dir) (hpackage : dir = top ∨ p.isBoundary dir = true)
    (hcolon : ':' ∉ path.toList) (hpath : clean path = path) (hfile : p.isBoundary path = false)
    (hne : rest ≠ []) (hsplit : components path = components dir ++ rest) :
    absolute (spelled (components dir)) (p.resolve dir (spelled rest)) = p.ownedAddress path := by
  have hnames : Names rest := (names_append_iff.mp (hsplit ▸ names_components path)).2
  have hpathne : components path ≠ [] := by
    rw [hsplit]
    exact List.append_ne_nil_of_right_ne_nil _ hne
  have hrest : ':' ∉ Text.joined '/' rest := by
    rw [toList_clean_of_ne_nil hpath hpathne, hsplit] at hcolon
    by_cases hdirne : components dir = []
    · rwa [hdirne] at hcolon
    · rw [Text.joined_append '/' hdirne hne, List.mem_append, List.mem_cons, not_or, not_or]
        at hcolon
      exact hcolon.2.2
  rw [resolve_spelled hnames hne (not_local_spelled hnames hne hrest)]
  cases hl : lastUpTo (fun n => p.isBoundary (Path.join dir (spelled (rest.take n)))) rest.length
    with
  | none =>
    -- the address stays a path, and the module's own package is put before it
    rw [ownedAddress, ownerDepth_of_none hdir hnames hne hsplit hpackage hl, addressAt, hsplit,
      List.take_left, List.drop_left]
    show absolute _ (spelled rest) = _
    rw [absolute, not_absolute_spelled hnames hne, if_neg Bool.false_ne_true]
  | some n =>
    -- the address is absolute already: it starts with the directory and the last package
    obtain ⟨hn, hproper, hdepth⟩ := ownerDepth_of_some hpath hnames hne hsplit hfile hl
    rw [ownedAddress, hdepth, addressAt, hsplit, List.take_length_add_append,
      List.drop_length_add_append]
    show absolute _ ("//" ++ dirStart dir ++ spelled (rest.take n) ++ _) = _
    rw [String.append_assoc, String.append_assoc, absolute_of_absolute, if_neg hproper,
      ← dirStart_append hdir (take_ne_nil hn hne)]
    · simp only [String.append_assoc]
    · exact Text.startsWith_iff.mpr ⟨_, rfl⟩

/-! ## The owner in text -/

/-- `package` is the deepest directory above a path that is a package, and `rest` is
the path as seen from there; the package at the top is the empty one. -/
def IsOwner (p : Packages) (path package rest : String) : Prop :=
  (package = "" ∧ rest = path ∧ ∀ dir after, path = dir ++ "/" ++ after → p.isBoundary dir = false) ∨
  (path = package ++ "/" ++ rest ∧ p.isBoundary package = true ∧
    ∀ dir after, path = dir ++ "/" ++ after → p.isBoundary dir = true →
      dir.length ≤ package.length)

theorem eq_take_of_eq_slash {after : String} (hpath : clean path = path) (hbelow : path ≠ top)
    (h : path = dir ++ "/" ++ after) :
    ∃ k, 1 ≤ k ∧ k < (components path).length ∧ dir = spelled ((components path).take k) := by
  have hfields := components_of_eq_slash hpath hbelow h
  have hpos : 0 < (Text.fields '/' dir.toList).length :=
    List.length_pos_iff.mpr (Text.fields_ne_nil '/' dir.toList)
  have hafter : 0 < (Text.fields '/' after.toList).length :=
    List.length_pos_iff.mpr (Text.fields_ne_nil '/' after.toList)
  refine ⟨(Text.fields '/' dir.toList).length, hpos, ?_, ?_⟩
  · rw [hfields, List.length_append]
    omega
  · apply String.toList_injective
    rw [hfields, List.take_left, toList_spelled, Text.joined_fields]

theorem eq_spelled_take {after : String} (hpath : clean path = path) (hbelow : path ≠ top)
    (h : path = dir ++ "/" ++ after) :
    ∃ k, 1 ≤ k ∧ k < (components path).length ∧ dir = spelled ((components path).take k) ∧
      p.isBoundary dir = p.boundaryAt path k := by
  obtain ⟨k, hk, hlt, hdir⟩ := eq_take_of_eq_slash hpath hbelow h
  have hne : (components path).take k ≠ [] :=
    take_ne_nil (by omega) (mt (components_eq_nil_iff hpath).mp hbelow)
  refine ⟨k, hk, hlt, hdir, ?_⟩
  rw [boundaryAt, ofComponents_eq_spelled hne, ← hdir]

theorem eq_take_slash_drop (hpath : clean path = path) (hn : n ≠ 0)
    (hlt : n < (components path).length) :
    path = spelled ((components path).take n) ++ "/" ++ spelled ((components path).drop n) := by
  have hpathne : components path ≠ [] := by
    rintro hnil
    rw [hnil] at hlt
    exact Nat.not_lt_zero n hlt
  rw [← spelled_append (take_ne_nil hn hpathne) (drop_ne_nil hlt), List.take_append_drop, spelled_components hpath hpathne]

theorem length_spelled_take_le {parts : List (List Char)} {k n : Nat} (hle : k ≤ n) :
    (spelled (parts.take k)).length ≤ (spelled (parts.take n)).length := by
  by_cases hnil : parts.take k = []
  · rw [hnil]
    exact Nat.zero_le _
  · by_cases hmore : (parts.take n).drop k = []
    · have hsame : parts.take n = parts.take k := by
        rw [← List.take_append_drop k (parts.take n), hmore, List.append_nil, List.take_take,
          Nat.min_eq_left hle]
      exact Nat.le_of_eq (congrArg (fun shown => (spelled shown).length) hsame.symm)
    · have hsplit : parts.take n = parts.take k ++ (parts.take n).drop k := by
        conv_lhs => rw [← List.take_append_drop k (parts.take n), List.take_take,
          Nat.min_eq_left hle]
      rw [hsplit, spelled_append hnil hmore, String.length_append, String.length_append]
      omega

/-- **The owned address names the owner.** -/
theorem isOwner_ownerDepth (hpath : clean path = path) (hbelow : path ≠ top) :
    p.IsOwner path (spelled ((components path).take (p.ownerDepth path)))
      (spelled ((components path).drop (p.ownerDepth path))) := by
  have hne : components path ≠ [] := mt (components_eq_nil_iff hpath).mp hbelow
  obtain ⟨hlt, hfound, hlast⟩ := ownerDepth_spec (p := p) hne
  by_cases hzero : p.ownerDepth path = 0
  · left
    rw [hzero, List.take_zero, List.drop_zero, spelled_components hpath hne]
    refine ⟨rfl, rfl, fun dir after h => ?_⟩
    obtain ⟨k, hk, hklt, -, hboundary⟩ := eq_spelled_take (p := p) hpath hbelow h
    rw [hboundary]
    exact hlast k (by omega) hklt
  · right
    have htake : (components path).take (p.ownerDepth path) ≠ [] := take_ne_nil hzero hne
    refine ⟨eq_take_slash_drop hpath hzero hlt, ?_, fun dir after h hdir => ?_⟩
    · rw [← ofComponents_eq_spelled htake]
      exact hfound hzero
    · obtain ⟨k, hk, hklt, hdirk, hboundary⟩ := eq_spelled_take (p := p) hpath hbelow h
      have hle : k ≤ p.ownerDepth path := by
        by_contra hgt
        rw [hboundary, hlast k (by omega) hklt] at hdir
        cases hdir
      rw [hdirk]
      exact length_spelled_take_le hle

/-! ## Lengths -/

theorem length_ownedAddress (hpath : clean path = path) (hbelow : path ≠ top) :
    path.length + 2 ≤ (p.ownedAddress path).length ∧
      (p.ownedAddress path).length ≤ path.length + 3 := by
  have hne : components path ≠ [] := mt (components_eq_nil_iff hpath).mp hbelow
  have hslashes : ("//" : String).length = 2 := by decide
  have hone : (":" : String).length = 1 := by decide
  have hslash : ("/" : String).length = 1 := by decide
  rw [ownedAddress, addressAt, String.length_append, String.length_append, String.length_append,
    hslashes, hone]
  by_cases hzero : p.ownerDepth path = 0
  · rw [hzero, List.take_zero, List.drop_zero, spelled_components hpath hne]
    have hnone : (spelled []).length = 0 := by decide
    omega
  · have hsplit := congrArg String.length
      (eq_take_slash_drop hpath hzero (ownerDepth_spec (p := p) hne).1)
    rw [String.length_append, String.length_append, hslash] at hsplit
    omega

/-- The `/` where names are cut gives way to a `:`, or nothing is cut off. -/
theorem length_spelled_cut (hn : n ≠ 0) (hle : n ≤ rest.length) (hne : rest ≠ []) :
    (spelled rest).length = (spelled (rest.take n)).length +
      (if n = rest.length then "" else ":" ++ spelled (rest.drop n)).length := by
  by_cases hall : n = rest.length
  · rw [if_pos hall, hall, List.take_length]
    rfl
  · have hdrop : rest.drop n ≠ [] := drop_ne_nil (by omega)
    have hsplit : spelled rest = spelled (rest.take n) ++ "/" ++ spelled (rest.drop n) := by
      rw [← spelled_append (take_ne_nil hn hne) hdrop, List.take_append_drop]
    have hslash : ("/" : String).length = 1 := by decide
    have hone : (":" : String).length = 1 := by decide
    rw [if_neg hall, hsplit, String.length_append, String.length_append, String.length_append]
    omega

theorem length_pos_of_ne_nil (hdir : clean dir = dir) (hne : components dir ≠ []) :
    0 < dir.length := by
  rw [Nat.pos_iff_ne_zero]
  intro hzero
  rw [← String.length_toList, List.length_eq_zero_iff, toList_clean_of_ne_nil hdir hne] at hzero
  have hfields := Text.fields_joined hne (names_components dir).no_slash
  rw [hzero] at hfields
  exact (names_components dir [] (hfields ▸ List.mem_singleton_self [])).nonempty rfl

theorem length_resolve (hdir : clean dir = dir) (hinside : dir ≠ top) (hnames : Names rest)
    (hne : rest ≠ []) :
    (p.resolve dir (spelled rest)).length = (spelled rest).length ∨
      (spelled rest).length + 4 ≤ (p.resolve dir (spelled rest)).length := by
  cases hlocal : Text.startsWith ":" (spelled rest) with
  | true =>
    left
    rw [resolve, hlocal, Bool.or_true, if_pos rfl]
  | false =>
    rw [resolve_spelled hnames hne hlocal]
    cases hl : lastUpTo (fun n => p.isBoundary (Path.join dir (spelled (rest.take n)))) rest.length
      with
    | none => exact .inl rfl
    | some n =>
      right
      obtain ⟨hn, hle, -, -⟩ := lastUpTo_eq_some.mp hl
      have hdirne : components dir ≠ [] := mt (components_eq_nil_iff hdir).mp hinside
      have hpos := length_pos_of_ne_nil hdir hdirne
      have hcut := length_spelled_cut (Nat.ne_zero_of_lt hn) hle hne
      -- two slashes, the directory and one more slash stand before the names
      have hstart : ("//" ++ dirStart dir ++ spelled (rest.take n)).length =
          dir.length + (spelled (rest.take n)).length + 3 := by
        have htake : rest.take n ≠ [] := take_ne_nil (Nat.ne_zero_of_lt hn) hne
        rw [String.append_assoc, dirStart_append hdir htake, spelled_append hdirne htake,
          spelled_components hdir hdirne, String.length_append, String.length_append,
          String.length_append]
        have hslashes : ("//" : String).length = 2 := by decide
        have hslash : ("/" : String).length = 1 := by decide
        omega
      show _ ≤ (_ ++ _ : String).length
      rw [String.length_append, hstart]
      omega

end TargetGen.Packages
