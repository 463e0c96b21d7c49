import TargetGen.Package.Scan
import TargetGen.Proofs.Package
import TargetGen.SourceTree.Listing

/-!
# Resolution — what a path of a module is resolved to

Resolving asks for the last directory on the way that is a package. The scan from the
end finds the same one: as long as it met none, what it has is a path, and from the
first package that it meets on, what it has is the inside of that package behind the
names that lead there (`Packages.Stands`).

Which directories are packages is said in plain terms by `Packages.HoldsPackage`: by
what the tree contains there, and by the entries that let a build file stay.

An address that was resolved is a label, or it is made of the very steps that were
resolved. So resolving it again changes nothing.
-/

namespace TargetGen

open TargetGen.Path

variable {p : Packages} {dir address : String} {names : List String} {i k : Nat} {s : Scan}
  {last : Option Nat}

namespace Packages

/-! ## The scan -/

/-- What stands behind the package that the first `k` names lead to. -/
def inside (names : List String) (k : Nat) : String :=
  if k = names.length then "" else ":" ++ Text.join '/' (names.drop k)

/-- What the names from index `i` on are put together to, if `last` is the last
package that is met there. -/
def shown (names : List String) (last : Option Nat) (i : Nat) : String :=
  match last with
  | none => Text.join '/' (names.drop i)
  | some k => Text.join '/' ((names.take k).drop i) ++ inside names k

/-- Whether the first `n` names lead to a package. -/
def meetsAt (p : Packages) (dir : String) (names : List String) (n : Nat) : Bool :=
  p.isBoundary (Path.join dir (Text.join '/' (names.take n)))

/-- How the scan stands when all names from index `i` on are put together. -/
structure Stands (p : Packages) (dir : String) (names : List String) (i : Nat)
    (last : Option Nat) (s : Scan) : Prop where
  /-- Together with what is ahead, it has met the last package there is. -/
  rest : last.or (lastUpTo (p.meetsAt dir names) i) =
    lastUpTo (p.meetsAt dir names) names.length
  behind : ∀ k, last = some k → i < k ∧ k ≤ names.length
  found : s.found = last.isSome
  resolved : s.resolved = shown names last i

theorem join_drop (hi : i < names.length) :
    Text.join '/' (names.drop i) =
      if i + 1 = names.length then names.getD i ""
      else names.getD i "" ++ "/" ++ Text.join '/' (names.drop (i + 1)) := by
  have hdrop : names.drop i = names.getD i "" :: names.drop (i + 1) := by
    rw [List.drop_eq_getElem_cons hi, List.getD_eq_getElem?_getD, List.getElem?_eq_getElem hi,
      Option.getD_some]
  rw [hdrop]
  by_cases hend : i + 1 = names.length
  · rw [if_pos hend, hend, List.drop_length, Text.join_singleton]
  · rw [if_neg hend, Text.join_cons]
    rw [ne_eq, List.drop_eq_nil_iff]
    omega

theorem join_drop_eq_empty (hnames : ∀ name ∈ names, name ≠ "") (hi : i ≤ names.length) :
    Text.join '/' (names.drop i) = "" ↔ i = names.length := by
  constructor
  · intro hempty
    by_contra hne
    refine Text.join_ne_empty ?_ ?_ hempty
    · intro name hname
      exact hnames name (List.mem_of_mem_drop hname)
    · rw [ne_eq, List.drop_eq_nil_iff]
      omega
  · rintro rfl
    rw [List.drop_length]
    rfl

/-- Where a package begins, the `:` stands in place of the `/`. -/
theorem append_inside (hnames : ∀ name ∈ names, name ≠ "") (hi : i < names.length) (name : String) :
    name ++ inside names (i + 1) =
      if shown names none (i + 1) = "" then name
      else name ++ ":" ++ shown names none (i + 1) := by
  have hempty : shown names none (i + 1) = "" ↔ i + 1 = names.length :=
    join_drop_eq_empty hnames hi
  rw [inside]
  by_cases hend : i + 1 = names.length
  · rw [if_pos hend, if_pos (hempty.mpr hend), String.append_empty]
  · rw [if_neg hend, if_neg (mt hempty.mp hend), shown, String.append_assoc]

theorem shown_of_lt (hnames : ∀ name ∈ names, name ≠ "") (hi : i < names.length)
    (hbehind : ∀ k, last = some k → i + 1 < k ∧ k ≤ names.length) :
    shown names last i =
      if shown names last (i + 1) = "" then names.getD i ""
      else names.getD i "" ++ "/" ++ shown names last (i + 1) := by
  cases last with
  | none =>
    have hempty : shown names none (i + 1) = "" ↔ i + 1 = names.length :=
      join_drop_eq_empty hnames hi
    rw [shown, join_drop hi]
    simp only [hempty]
    rfl
  | some k =>
    obtain ⟨hk, hle⟩ := hbehind k rfl
    have hlength : (names.take k).length = k := by
      rw [List.length_take]
      omega
    have hname : (names.take k).getD i "" = names.getD i "" := by
      simp [show i < k by omega]
    have hfirst : ∀ name ∈ names.take k, name ≠ "" := by
      intro name hmem
      exact hnames name (List.mem_of_mem_take hmem)
    have hempty := join_drop_eq_empty (i := i + 1) hfirst (by omega)
    have hne : shown names (some k) (i + 1) ≠ "" := by
      intro h
      have hnone : Text.join '/' ((names.take k).drop (i + 1)) = "" :=
        (String.append_eq_empty_iff.mp h).1
      have hend := hempty.mp hnone
      omega
    rw [if_neg hne, shown, join_drop (by omega), if_neg (by omega), hname, shown,
      ← String.append_assoc]

theorem join_drop_take (hi : i < names.length) :
    Text.join '/' ((names.take (i + 1)).drop i) = names.getD i "" := by
  have hlength : (names.take (i + 1)).length = i + 1 := by
    rw [List.length_take]
    omega
  rw [join_drop (by omega), if_pos hlength.symm]
  simp

theorem prepend_eq (p : Packages) (dir : String) (names : List String) (i : Nat) (s : Scan) :
    p.prepend dir names i s =
      ⟨if s.resolved = "" then names.getD i ""
        else names.getD i "" ++
          (if !s.found && p.meetsAt dir names (i + 1) then ":" else "/") ++ s.resolved,
        s.found || (!s.found && p.meetsAt dir names (i + 1))⟩ := rfl

/-- **One name more.** A package is met here just if none was met before and the names
up to this one lead to it. -/
theorem Stands.prepend (hnames : ∀ name ∈ names, name ≠ "") (hi : i < names.length)
    (h : p.Stands dir names (i + 1) last s) :
    ∃ last, p.Stands dir names i last (p.prepend dir names i s) := by
  obtain ⟨resolved, found⟩ := s
  obtain ⟨hrest, hbehind, hfound, hresolved⟩ := h
  obtain rfl : found = last.isSome := hfound
  obtain rfl : resolved = shown names last (i + 1) := hresolved
  have hahead : lastUpTo (p.meetsAt dir names) (i + 1) =
      if p.meetsAt dir names (i + 1) then some (i + 1)
      else lastUpTo (p.meetsAt dir names) i := rfl
  cases last with
  | some k =>
    obtain ⟨hk, hle⟩ := hbehind k rfl
    refine ⟨some k, hrest, ?_, rfl, (shown_of_lt hnames hi hbehind).symm⟩
    rintro _ ⟨⟩
    exact ⟨by omega, hle⟩
  | none =>
    have hrest : lastUpTo (p.meetsAt dir names) (i + 1) =
        lastUpTo (p.meetsAt dir names) names.length := hrest
    cases hmeets : p.meetsAt dir names (i + 1) with
    | true =>
      rw [hmeets, if_pos rfl] at hahead
      refine ⟨some (i + 1), hahead.symm.trans hrest, ?_, ?_, ?_⟩
      · rintro _ ⟨⟩
        exact ⟨by omega, hi⟩
      · rw [prepend_eq, hmeets]
        rfl
      · have hshown : shown names (some (i + 1)) i = names.getD i "" ++ inside names (i + 1) := by
          rw [shown, join_drop_take hi]
        rw [prepend_eq, hmeets, hshown]
        exact (append_inside hnames hi _).symm
    | false =>
      rw [hmeets, if_neg Bool.false_ne_true] at hahead
      refine ⟨none, hahead.symm.trans hrest, by simp, ?_, ?_⟩
      · rw [prepend_eq, hmeets]
        rfl
      · rw [prepend_eq, hmeets]
        exact (shown_of_lt hnames hi hbehind).symm

theorem Stands.scan (hnames : ∀ name ∈ names, name ≠ "") (hi : i ≤ names.length)
    (h : p.Stands dir names i last s) :
    p.Stands dir names 0 (lastUpTo (p.meetsAt dir names) names.length) (p.scan dir names i s) := by
  induction i generalizing last s with
  | zero =>
    have hlast : last = lastUpTo (p.meetsAt dir names) names.length := by
      rw [← h.rest]
      exact (Option.or_none).symm
    rw [← hlast]
    exact h
  | succ i ih =>
    obtain ⟨last, hnext⟩ := h.prepend hnames hi
    exact ih (by omega) hnext

section

variable (habsolute : Text.startsWith "//" address = false)
  (hlocal : Text.startsWith ":" address = false) (hne : steps address ≠ [])

include habsolute hlocal hne

theorem resolve_of_none
    (hlast : lastUpTo (p.meetsAt dir (steps address)) (steps address).length = none) :
    p.resolve dir address = Text.join '/' (steps address) := by
  rw [resolve_of_steps habsolute hlocal hne]
  change lastUpTo (fun n => p.isBoundary _) _ = _ at hlast
  rw [hlast]

theorem resolve_of_some
    (hlast : lastUpTo (p.meetsAt dir (steps address)) (steps address).length = some k) :
    p.resolve dir address =
      "//" ++ dirStart dir ++ Text.join '/' ((steps address).take k) ++ inside (steps address) k := by
  rw [resolve_of_steps habsolute hlocal hne]
  change lastUpTo (fun n => p.isBoundary _) _ = _ at hlast
  rw [hlast]
  rfl

end

/-- **The scan from the end finds the last package** that the search for it finds. -/
theorem resolveByScan_eq (p : Packages) (dir address : String) :
    p.resolveByScan dir address = p.resolve dir address := by
  unfold resolveByScan
  by_cases hlabel : (Text.startsWith "//" address || Text.startsWith ":" address) = true
  · rw [if_pos hlabel, resolve, if_pos hlabel]
  · obtain ⟨habsolute, hlocal⟩ := Bool.or_eq_false_iff.mp (Bool.eq_false_iff.mpr hlabel)
    rw [if_neg hlabel]
    cases hsteps : steps address with
    | nil => rw [resolve, if_neg hlabel, hsteps]
    | cons first others =>
      have hnames : ∀ name ∈ first :: others, name ≠ "" := by
        intro name hname
        rw [← hsteps] at hname
        exact (isStep_of_mem_steps hname).nonempty
      have hstart : p.Stands dir (first :: others) (first :: others).length none ⟨"", false⟩ := by
        refine ⟨rfl, by simp, rfl, ?_⟩
        rw [shown, List.drop_length]
        rfl
      have hend := hstart.scan hnames (Nat.le_refl _)
      have hne : steps address ≠ [] := by
        rw [hsteps]
        exact List.cons_ne_nil _ _
      show (if (p.scan dir (first :: others) _ _).found then _ else _) = _
      rw [hend.found, hend.resolved]
      cases hlast : lastUpTo (p.meetsAt dir (first :: others)) (first :: others).length with
      | none =>
        rw [← hsteps] at hlast ⊢
        rw [resolve_of_none habsolute hlocal hne hlast]
        rfl
      | some k =>
        rw [← hsteps] at hlast ⊢
        rw [resolve_of_some habsolute hlocal hne hlast]
        exact (String.append_assoc).symm

/-! ## Resolving again -/

theorem resolve_of_local (h : Text.startsWith ":" address = true) :
    p.resolve dir address = address := by
  rw [resolve, h, Bool.or_true, if_pos rfl]

/-- **An address that was resolved stays as it is.** -/
theorem resolve_resolve (p : Packages) (dir address : String) :
    p.resolve dir (p.resolve dir address) = p.resolve dir address := by
  cases habsolute : Text.startsWith "//" address with
  | true => rw [resolve_of_absolute habsolute, resolve_of_absolute habsolute]
  | false =>
    cases hlocal : Text.startsWith ":" address with
    | true => rw [resolve_of_local hlocal, resolve_of_local hlocal]
    | false =>
      by_cases hne : steps address = []
      · have hsame : p.resolve dir address = address := by
          rw [resolve, habsolute, hlocal, hne]
          rfl
        rw [hsame, hsame]
      · cases hlast : lastUpTo (p.meetsAt dir (steps address)) (steps address).length with
        | some k =>
          have hlabel : Text.startsWith "//" (p.resolve dir address) = true := by
            rw [resolve_of_some habsolute hlocal hne hlast, String.append_assoc,
              String.append_assoc, Text.startsWith_iff]
            exact ⟨_, rfl⟩
          exact resolve_of_absolute hlabel
        | none =>
          have hpath := resolve_of_none habsolute hlocal hne hlast
          have hsteps : steps (p.resolve dir address) = steps address := by
            rw [hpath]
            exact steps_join (fun name hname => isStep_of_mem_steps hname) hne
          cases hlabel : Text.startsWith "//" (p.resolve dir address) with
          | true => exact resolve_of_absolute hlabel
          | false =>
            cases hagain : Text.startsWith ":" (p.resolve dir address) with
            | true => exact resolve_of_local hagain
            | false =>
              rw [resolve_of_none hlabel hagain (hsteps ▸ hne) (hsteps ▸ hlast), hsteps, hpath]

end Packages

/-! ## Packages in plain terms -/

/-- A directory keeps its build file by its own entry, or by the entry of a directory above
it that speaks for those below as well. Some of its first names lead to a directory above
it; the top, to which no names lead, is none. -/
def Allowlist.Keeps (a : Allowlist) (dir : String) : Prop :=
  (∃ below, a.kept.get? dir = some below) ∨
    ∃ above rest, above ≠ [] ∧ rest ≠ [] ∧ components dir = above ++ rest ∧
      a.kept.get? (ofComponents above) = some true

theorem Allowlist.keepsBuildFile_iff {a : Allowlist} (hdir : clean dir = dir)
    (hbelow : dir ≠ top) : a.keepsBuildFile dir = true ↔ a.Keeps dir := by
  unfold keepsBuildFile Keeps
  rw [Bool.or_eq_true]
  apply or_congr
  · rw [NameMap.contains, Option.isSome_iff_exists]
  · have hne : components dir ≠ [] := mt (components_eq_nil_iff hdir).mp hbelow
    constructor
    · intro h
      obtain ⟨start, hstart, hprefix⟩ := List.any_eq_true.mp h
      obtain ⟨⟨key, below⟩, hentry, rfl⟩ := List.mem_map.mp hstart
      obtain ⟨hmem, hbelow'⟩ := List.mem_filter.mp hentry
      obtain rfl : below = true := hbelow'
      obtain ⟨after, hafter⟩ := Text.startsWith_iff.mp hprefix
      obtain ⟨k, hk, hlt, rfl⟩ := Packages.eq_take_of_eq_slash hdir hbelow hafter
      have htake : (components dir).take k ≠ [] := Packages.take_ne_nil (by omega) hne
      refine ⟨_, _, htake, Packages.drop_ne_nil hlt, (List.take_append_drop k _).symm, ?_⟩
      rw [Packages.ofComponents_eq_spelled htake]
      exact NameMap.get?_eq_some_iff.mpr hmem
    · rintro ⟨above, rest, habove, hrest, hsplit, hget⟩
      apply List.any_eq_true.mpr
      refine ⟨ofComponents above ++ "/", ?_, ?_⟩
      · apply List.mem_map.mpr
        exact ⟨_, List.mem_filter.mpr ⟨NameMap.get?_eq_some_iff.mp hget, rfl⟩, rfl⟩
      · apply Text.startsWith_iff.mpr
        refine ⟨Packages.spelled rest, ?_⟩
        rw [Packages.ofComponents_eq_spelled habove, ← Packages.spelled_append habove hrest,
          ← hsplit, Packages.spelled_components hdir hne]

namespace Packages

/-- A directory below the top is a package: a native build file is there, or a target
build file is there and may stay. -/
def HoldsPackage (p : Packages) (dir : String) : Prop :=
  p.tree.contains (dir ++ "/" ++ "Android.bp") = true ∨
    (p.tree.isLink dir = true ∨ p.allowlist.Keeps dir) ∧
      (p.tree.contains (dir ++ "/" ++ "BUILD") = true ∨
        p.tree.contains (dir ++ "/" ++ "BUILD.bazel") = true)

theorem join_name {name : String} (hdir : clean dir = dir) (hbelow : dir ≠ top)
    (hname : IsName name.toList) : Path.join dir name = dir ++ "/" ++ name := by
  have hne : components dir ≠ [] := mt (components_eq_nil_iff hdir).mp hbelow
  have hnames : Names [name.toList] := List.forall_mem_singleton.mpr hname
  have hjoin := join_names dir hnames (List.cons_ne_nil _ _)
  rw [ofComponents_eq_spelled (List.append_ne_nil_of_left_ne_nil hne _),
    spelled_append hne (List.cons_ne_nil _ _), spelled_components hdir hne] at hjoin
  have hone : String.ofList (Text.joined '/' [name.toList]) = name := String.ofList_toList
  rwa [spelled, hone] at hjoin

theorem isBoundary_iff (hdir : clean dir = dir) (hbelow : dir ≠ top) :
    p.isBoundary dir = true ↔ p.HoldsPackage dir := by
  have hnative : Path.join dir nativeBuildFile = dir ++ "/" ++ "Android.bp" :=
    join_name hdir hbelow (by constructor <;> decide)
  have hbuild : Path.join dir "BUILD" = dir ++ "/" ++ "BUILD" :=
    join_name hdir hbelow (by constructor <;> decide)
  have hbazel : Path.join dir "BUILD.bazel" = dir ++ "/" ++ "BUILD.bazel" :=
    join_name hdir hbelow (by constructor <;> decide)
  rw [isBoundary, HoldsPackage, hnative, Bool.or_eq_true, Bool.and_eq_true, Bool.or_eq_true,
    Allowlist.keepsBuildFile_iff hdir hbelow, or_comm (a := p.allowlist.Keeps dir)]
  simp [targetBuildFiles, hbuild, hbazel]

/-- Where a path of the module in `dir` leads to, as seen from the top. -/
def under (dir path : String) : String := if dir = top then path else dir ++ "/" ++ path

theorem under_spelled {parts : List (List Char)} (hdir : clean dir = dir) (h : parts ≠ []) :
    under dir (spelled parts) = spelled (components dir ++ parts) := by
  unfold under
  by_cases htop : dir = top
  · rw [if_pos htop, (components_eq_nil_iff hdir).mpr htop, List.nil_append]
  · have hne : components dir ≠ [] := mt (components_eq_nil_iff hdir).mp htop
    rw [if_neg htop, spelled_append hne h, spelled_components hdir hne]

/-- Where the first `k` of some names lead to from the directory `dir`. -/
def reach (dir : String) (names : List String) (k : Nat) : String :=
  under dir (Text.join '/' (names.take k))

section

variable (hdir : clean dir = dir) (hnames : ∀ name ∈ names, IsStep name) (hup : ".." ∉ names)
  (hk : 1 ≤ k) (hle : k ≤ names.length)

include hnames hup hk hle

theorem exists_names_take :
    ∃ parts, Names parts ∧ parts ≠ [] ∧ Text.join '/' (names.take k) = spelled parts := by
  refine ⟨(names.map String.toList).take k, ?_, ?_, ?_⟩
  · intro c hc
    obtain ⟨name, hname, rfl⟩ := List.mem_map.mp (List.mem_of_mem_take hc)
    have hstep := hnames name hname
    refine ⟨?_, ?_, ?_, hstep.no_slash⟩
    · intro hempty
      exact hstep.nonempty (String.toList_injective hempty)
    · intro hhere
      exact hstep.not_here (String.toList_injective hhere)
    · intro hback
      obtain rfl : name = ".." := String.toList_injective hback
      exact hup hname
  · apply take_ne_nil (by omega)
    rw [ne_eq, List.map_eq_nil_iff, ← List.length_eq_zero_iff]
    omega
  · rw [← join_take_steps, List.map_map, String.ofList_comp_toList, List.map_id]

include hdir

/-- **A package on the way** is met just if it is one in plain terms. -/
theorem meetsAt_iff : p.meetsAt dir names k = true ↔ p.HoldsPackage (reach dir names k) := by
  obtain ⟨parts, hparts, hne, hjoin⟩ := exists_names_take hnames hup hk hle
  have hall : Names (components dir ++ parts) :=
    names_append_iff.mpr ⟨names_components dir, hparts⟩
  have hallne : components dir ++ parts ≠ [] := List.append_ne_nil_of_right_ne_nil _ hne
  have hreach : reach dir names k = ofComponents (components dir ++ parts) := by
    rw [reach, hjoin, under_spelled hdir hne, ofComponents_eq_spelled hallne]
  have hcomponents := components_ofComponents hall
  have hclean : clean (reach dir names k) = reach dir names k := by
    rw [hreach, clean, hcomponents]
  have hbelow : reach dir names k ≠ top := by
    intro htop
    rw [← components_eq_nil_iff hclean, hreach, hcomponents] at htop
    exact hallne htop
  rw [← isBoundary_iff hclean hbelow, meetsAt, hjoin, spelled, join_names dir hparts hne, hreach]

theorem absolute_reach :
    "//" ++ dirStart dir ++ Text.join '/' (names.take k) = "//" ++ reach dir names k := by
  obtain ⟨parts, -, hne, hjoin⟩ := exists_names_take hnames hup hk hle
  rw [reach, hjoin, under_spelled hdir hne, String.append_assoc, dirStart_append hdir hne]

end

/-- The first `k` of some names lead to a package, and no more of them do. -/
structure LastPackage (p : Packages) (dir : String) (names : List String) (k : Nat) : Prop where
  pos : 1 ≤ k
  le : k ≤ names.length
  package : p.HoldsPackage (reach dir names k)
  last : ∀ j, k < j → j ≤ names.length → ¬ p.HoldsPackage (reach dir names j)

/-- The address that names below the directory `dir` have. -/
inductive AddressOf (p : Packages) (dir : String) (names : List String) : String → Prop where
  /-- In the package of `dir` itself they are a path. -/
  | path : (∀ k, 1 ≤ k → k ≤ names.length → ¬ p.HoldsPackage (reach dir names k)) →
      AddressOf p dir names (Text.join '/' names)
  /-- In another package they are what is left of them behind its directory. -/
  | file {k : Nat} : p.LastPackage dir names k → k < names.length →
      AddressOf p dir names ("//" ++ reach dir names k ++ ":" ++ Text.join '/' (names.drop k))
  /-- The package itself is known by its directory. -/
  | package : p.LastPackage dir names names.length →
      AddressOf p dir names ("//" ++ reach dir names names.length)

theorem LastPackage.unique {k' : Nat} (h : p.LastPackage dir names k)
    (h' : p.LastPackage dir names k') : k = k' := by
  rcases Nat.lt_trichotomy k k' with hlt | heq | hgt
  · exact absurd h'.package (h.last k' hlt h'.le)
  · exact heq
  · exact absurd h.package (h'.last k hgt h.le)

theorem AddressOf.unique {a b : String} (h : p.AddressOf dir names a)
    (h' : p.AddressOf dir names b) : a = b := by
  cases h with
  | path hnone =>
    cases h' with
    | path _ => rfl
    | file hlast _ => exact absurd hlast.package (hnone _ hlast.pos hlast.le)
    | package hlast => exact absurd hlast.package (hnone _ hlast.pos hlast.le)
  | file hlast hlt =>
    cases h' with
    | path hnone => exact absurd hlast.package (hnone _ hlast.pos hlast.le)
    | file hlast' _ =>
      obtain rfl := hlast.unique hlast'
      rfl
    | package hlast' => exact absurd (hlast.unique hlast') (Nat.ne_of_lt hlt)
  | package hlast =>
    cases h' with
    | path hnone => exact absurd hlast.package (hnone _ hlast.pos hlast.le)
    | file hlast' hlt => exact absurd (hlast'.unique hlast) (Nat.ne_of_lt hlt)
    | package _ => rfl

theorem addressOf_resolve (hdir : clean dir = dir)
    (habsolute : Text.startsWith "//" address = false)
    (hlocal : Text.startsWith ":" address = false) (hne : steps address ≠ [])
    (hup : ".." ∉ steps address) :
    p.AddressOf dir (steps address) (p.resolve dir address) := by
  have hnames : ∀ name ∈ steps address, IsStep name := fun _ => isStep_of_mem_steps
  have hmeets : ∀ j, 1 ≤ j → j ≤ (steps address).length →
      (p.meetsAt dir (steps address) j = false ↔ ¬ p.HoldsPackage (reach dir (steps address) j)) := by
    intro j hj hle
    rw [Bool.eq_false_iff, ne_eq, meetsAt_iff hdir hnames hup hj hle]
  cases hlast : lastUpTo (p.meetsAt dir (steps address)) (steps address).length with
  | none =>
    rw [resolve_of_none habsolute hlocal hne hlast]
    apply AddressOf.path
    intro k hk hle
    exact (hmeets k hk hle).mp (lastUpTo_eq_none.mp hlast k hk hle)
  | some k =>
    obtain ⟨hk, hle, hfound, hlater⟩ := lastUpTo_eq_some.mp hlast
    have hpackage : p.LastPackage dir (steps address) k := by
      refine ⟨hk, hle, (meetsAt_iff hdir hnames hup hk hle).mp hfound, ?_⟩
      intro j hj hjle
      exact (hmeets j (by omega) hjle).mp (hlater j hj hjle)
    rw [resolve_of_some habsolute hlocal hne hlast, absolute_reach hdir hnames hup hk hle, inside]
    by_cases hend : k = (steps address).length
    · rw [if_pos hend, String.append_empty, hend]
      exact .package (hend ▸ hpackage)
    · rw [if_neg hend, ← String.append_assoc]
      exact .file hpackage (by omega)

/-- **A path belongs to the last package on its way.** Labels stay as they are, and so does
what was resolved before. One scan from the end finds the same address. -/
theorem resolve_finds_last_package (p : Packages) :
    (∀ dir address, clean dir = dir → Text.startsWith "//" address = false →
      Text.startsWith ":" address = false → steps address ≠ [] → ".." ∉ steps address →
      ∀ found, p.AddressOf dir (steps address) found ↔ found = p.resolve dir address) ∧
    ∀ dir address,
      p.resolve dir (p.resolve dir address) = p.resolve dir address ∧
      (Text.startsWith "//" address = true → p.resolve dir address = address) ∧
      (Text.startsWith ":" address = true → p.resolve dir address = address) ∧
      p.resolveByScan dir address = p.resolve dir address := by
  constructor
  · intro dir address hdir habsolute hlocal hne hup found
    have haddress := @addressOf_resolve p dir address hdir habsolute hlocal hne hup
    constructor
    · intro hfound
      exact hfound.unique haddress
    · rintro rfl
      exact haddress
  · intro dir address
    exact ⟨resolve_resolve p dir address, resolve_of_absolute, resolve_of_local,
      resolveByScan_eq p dir address⟩

/-- A package with one below it that is kept by an entry for all of `x`, and that one with a
directory of its own which holds no package. -/
def keptBelow : Packages where
  tree := (Listing.ofFiles ["x/Android.bp", "x/y/Android.bp", "x/y/z/BUILD", "x/y/z/w/a.c"]).sourceTree
  allowlist := Allowlist.empty.keepBuildFile "x" true

theorem keptBelow_resolves_to_inner_package :
    keptBelow.AddressOf "x" ["y", "z", "w", "a.c"] "//x/y/z:w/a.c" ∧
      keptBelow.AddressOf "x" ["y", "z"] "//x/y/z" ∧
      keptBelow.resolve "x" "//x/y/z:w/a.c" = "//x/y/z:w/a.c" ∧
      keptBelow.resolveByScan "x" "./y//z/w/a.c" = "//x/y/z:w/a.c" := by
  have hfile : steps "./y//z/w/a.c" = ["y", "z", "w", "a.c"] := by decide +kernel
  have hpackage : steps "y/z" = ["y", "z"] := by decide +kernel
  have hresolve : keptBelow.resolve "x" "./y//z/w/a.c" = "//x/y/z:w/a.c" := by decide +kernel
  obtain ⟨haddress, hagain⟩ := resolve_finds_last_package keptBelow
  have h := haddress "x" "./y//z/w/a.c" (by decide) (by decide) (by decide) (by decide +kernel)
    (by decide +kernel) "//x/y/z:w/a.c"
  have h' := haddress "x" "y/z" (by decide) (by decide) (by decide) (by decide +kernel)
    (by decide +kernel) "//x/y/z"
  rw [hfile, hresolve] at h
  rw [hpackage] at h'
  refine ⟨h.mpr rfl, h'.mpr (by decide +kernel), ?_, ?_⟩
  · exact (hagain "x" "//x/y/z:w/a.c").2.1 (by decide)
  · rw [(hagain "x" "./y//z/w/a.c").2.2.2, hresolve]

end Packages

end TargetGen
