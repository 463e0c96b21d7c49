import TargetGen.Expansion
import TargetGen.Proofs.Package
import TargetGen.Proofs.Reference
import TargetGen.Proofs.SourceTree

/-!
# Files — one file, one address

A module comes to a file by an entry that is its path or by a pattern that
matches it. However it does, and whichever module it is, the address names the
package that owns the file and the file as seen from there. Inside the directory
of the module that is the work of `Packages.resolve`, outside of it that of
`Packages.ownerFromTop`; both come to `Packages.ownedAddress`.
-/

namespace TargetGen

open Packages

namespace Viewpoint

/-- A module comes to `file` and gives it a label that is still to be resolved. -/
inductive ComesTo (v : Viewpoint) (file : String) : Label → Prop where
  /-- By an entry that is its path. -/
  | literal {excludes entry label} : Text.startsWith "//" entry = false →
      v.expandEntry excludes entry = .ok (.literal file label) → ComesTo v file label
  /-- By a pattern that it matches. -/
  | pattern {excludes entry path labels files label} : Text.startsWith "//" entry = false →
      v.expandEntry excludes entry = .ok (.files path labels) →
      v.config.tree.glob path excludes = .ok files → (file, label) ∈ files.zip labels →
      ComesTo v file label

/-- The address that a label comes to, written outside the module's package. -/
def absoluteAddress (v : Viewpoint) (label : Label) : String :=
  absolute v.module.package (v.config.packages.resolveLabel v.module.dir label).address

/-- The module's directory is in normal form, and a package of its own or the top. -/
def InPackage (v : Viewpoint) : Prop :=
  Path.clean v.module.dir = v.module.dir ∧
    (v.module.dir = Path.top ∨ v.config.packages.isBoundary v.module.dir = true)

instance (v : Viewpoint) : Decidable v.InPackage := inferInstanceAs (Decidable (_ ∧ _))

variable {v : Viewpoint} {file entry : String} {label : Label} {excludes : List String}

/-! ## Entries that are no references -/

theorem expandEntry_of_none (h : v.reference? entry = .ok none) :
    v.expandEntry excludes entry =
      if Path.isGlob entry then
        (v.matchLabels entry excludes).map (.files (Path.join v.module.dir entry))
      else .ok (.literal (Path.join v.module.dir entry) (v.literalLabel entry)) := by
  unfold expandEntry
  rw [h]
  show (if Path.isGlob entry then _ else _) = _
  by_cases hg : Path.isGlob entry = true
  · rw [if_pos hg, if_pos hg]
    cases v.matchLabels entry excludes <;> rfl
  · rw [if_neg hg, if_neg hg]
    rfl

theorem expandEntry_eq_literal (h : v.expandEntry excludes entry = .ok (.literal file label)) :
    file = Path.join v.module.dir entry ∧ label = v.literalLabel entry := by
  rw [expandEntry_of_none (reference?_of_expandEntry h)] at h
  by_cases hg : Path.isGlob entry = true
  · rw [if_pos hg] at h
    cases hm : v.matchLabels entry excludes with
    | error e => rw [hm] at h; cases h
    | ok labels => rw [hm] at h; cases h
  · rw [if_neg hg] at h
    obtain ⟨rfl, rfl⟩ := Expanded.literal.inj (Except.ok.inj h)
    exact ⟨rfl, rfl⟩

theorem expandEntry_eq_files {path : String} {labels : List Label} {files : List String}
    (h : v.expandEntry excludes entry = .ok (.files path labels))
    (hfiles : v.config.tree.glob path excludes = .ok files) : labels = files.map v.matchLabel := by
  rw [expandEntry_of_none (reference?_of_expandEntry h)] at h
  by_cases hg : Path.isGlob entry = true
  · rw [if_pos hg] at h
    cases hm : v.matchLabels entry excludes with
    | error e => rw [hm] at h; cases h
    | ok found =>
      rw [hm] at h
      obtain ⟨rfl, rfl⟩ := Expanded.files.inj (Except.ok.inj h)
      rw [matchLabels, hfiles] at hm
      exact (Except.ok.inj hm).symm
  · rw [if_neg hg] at h
    cases h

theorem ComesTo.exists_pathLabel (h : v.ComesTo file label) :
    ∃ spelling, label = v.pathLabel file spelling := by
  cases h with
  | @literal excludes entry _ hrelative hentry =>
    obtain ⟨rfl, rfl⟩ := expandEntry_eq_literal hentry
    refine ⟨entry, ?_⟩
    rw [literalLabel, hrelative]
    rfl
  | @pattern excludes entry path labels files _ _ hentry hfiles hmem =>
    obtain rfl := expandEntry_eq_files hentry hfiles
    rw [← List.map_prod_left_eq_zip, List.mem_map] at hmem
    obtain ⟨file', -, heq⟩ := hmem
    obtain ⟨rfl, rfl⟩ := Prod.mk.inj heq
    exact ⟨_, rfl⟩

theorem ComesTo.clean {l : Listing} (hbuilt : l.Built) (htree : v.config.tree = l.sourceTree)
    (h : v.ComesTo file label) : Path.clean file = file := by
  cases h with
  | literal _ hentry =>
    obtain ⟨rfl, -⟩ := expandEntry_eq_literal hentry
    exact Path.clean_join _ _
  | pattern _ _ hfiles hmem =>
    rw [htree] at hfiles
    exact hbuilt.clean_of_glob hfiles (List.of_mem_zip hmem).1

/-! ## Their addresses -/

theorem package_eq_spelled (hdir : Path.clean v.module.dir = v.module.dir) :
    v.module.package = spelled (Path.components v.module.dir) := by
  unfold Module.package
  by_cases htop : v.module.dir = Path.top
  · rw [if_pos htop, (Path.components_eq_nil_iff hdir).mpr htop]
    rfl
  · rw [if_neg htop, spelled_components hdir (mt (Path.components_eq_nil_iff hdir).mp htop)]

theorem address_pathLabel (v : Viewpoint) (file spelling : String) :
    (v.pathLabel file spelling).address =
      if Path.isWithin v.module.dir file then Path.relativeTo v.module.dir file
      else (v.config.packages.ownerFromTop file).address := by
  unfold pathLabel
  split <;> rfl

theorem absoluteAddress_eq (v : Viewpoint) (label : Label) :
    v.absoluteAddress label =
      absolute v.module.package (v.config.packages.resolve v.module.dir label.address) := rfl

/-- **The address of a file** names its owner, from inside a module's directory and
from outside of it. -/
theorem absoluteAddress_pathLabel (hv : v.InPackage) (hfile : Path.clean file = file)
    (hbelow : file ≠ Path.top) (hcolon : ':' ∉ file.toList)
    (hplain : v.config.packages.isBoundary file = false) (spelling : String) :
    v.absoluteAddress (v.pathLabel file spelling) = v.config.packages.ownedAddress file := by
  obtain ⟨hdir, hpackage⟩ := hv
  rw [absoluteAddress_eq, address_pathLabel]
  by_cases hwithin : Path.isWithin v.module.dir file = true
  · obtain ⟨rest, hrest, hsplit⟩ := (Path.isWithin_iff hdir hfile hbelow).mp hwithin
    rw [if_pos hwithin, package_eq_spelled hdir, Path.relativeTo_eq hdir hfile hrest hsplit]
    exact absolute_resolve hdir hpackage hcolon hfile hplain hrest hsplit
  · rw [if_neg hwithin, address_ownerFromTop hfile hbelow, resolve_of_absolute,
      absolute_of_absolute]
    · exact startsWith_ownedAddress _ _
    · exact startsWith_ownedAddress _ _

/-- The address that a label comes to in the module's own package. -/
def resolvedAddress (v : Viewpoint) (label : Label) : String :=
  (v.config.packages.resolveLabel v.module.dir label).address

/-- A file below a module's directory and one outside of it that are spelled alike
have different addresses: one is too long or too short for the other. -/
theorem address_ne_of_isWithin {other : String} (hdir : Path.clean v.module.dir = v.module.dir)
    (hfile : Path.clean file = file) (hother : Path.clean other = other)
    (hwithin : Path.isWithin v.module.dir file = true)
    (houtside : Path.isWithin v.module.dir other = false)
    (hspelled : Path.relativeTo v.module.dir file = other) (spelling spelling' : String) :
    v.resolvedAddress (v.pathLabel file spelling) ≠ v.resolvedAddress (v.pathLabel other spelling') := by
  have hinside : v.module.dir ≠ Path.top := by
    intro htop
    rw [htop] at houtside
    exact absurd houtside (by simp [Path.isWithin, Path.isTop])
  have hbelow : file ≠ Path.top := by
    rintro rfl
    have hnontop : Path.isTop v.module.dir = false := (Bool.or_eq_false_iff.mp houtside).1
    rw [Path.isWithin, hnontop, Bool.false_or, Text.startsWith_iff] at hwithin
    obtain ⟨after, h⟩ := hwithin
    have hslash : '/' ∈ Path.top.toList := by
      rw [h, Path.toList_slash]
      exact List.mem_append_right _ List.mem_cons_self
    exact absurd hslash (by decide)
  obtain ⟨rest, hrest, hsplit⟩ := (Path.isWithin_iff hdir hfile hbelow).mp hwithin
  have hnames : Path.Names rest :=
    (Path.names_append_iff.mp (hsplit ▸ Path.names_components file)).2
  have hsame : other = spelled rest := by
    rw [← hspelled, Path.relativeTo_eq hdir hfile hrest hsplit]
    rfl
  have hotherbelow : other ≠ Path.top := by
    intro htop
    have hcomponents := Path.components_ofComponents hnames
    rw [ofComponents_eq_spelled hrest, ← hsame, htop] at hcomponents
    exact hrest (hcomponents.symm.trans (by decide))
  -- outside, the address is two or three characters longer than what is spelled;
  -- below the directory it is as long as that, or longer by four at least
  have hlong := length_ownedAddress (p := v.config.packages) hother hotherbelow
  have hshort := length_resolve (p := v.config.packages) hdir hinside hnames hrest
  intro heq
  have hlength := congrArg String.length heq
  unfold resolvedAddress resolveLabel at hlength
  simp only [address_pathLabel, hwithin, houtside, if_true, Bool.false_eq_true, if_false] at hlength
  rw [address_ownerFromTop hother hotherbelow, resolve_of_absolute (startsWith_ownedAddress _ _),
    Path.relativeTo_eq hdir hfile hrest hsplit] at hlength
  rw [hsame] at hlong hlength
  change (resolve _ _ (spelled rest)).length = _ at hlength
  omega

/-- **Different files get different labels**, as long as spelling counts. -/
theorem matchLabel_injective {other : String} (hdir : Path.clean v.module.dir = v.module.dir)
    (hfile : Path.clean file = file) (hother : Path.clean other = other)
    (h : v.config.packages.resolveLabel v.module.dir (v.matchLabel file) =
      v.config.packages.resolveLabel v.module.dir (v.matchLabel other)) : file = other := by
  have haddress : v.resolvedAddress (v.matchLabel file) = v.resolvedAddress (v.matchLabel other) :=
    congrArg Label.address h
  have hspelling : ∀ file, (v.matchLabel file).spelling = Path.relativeTo v.module.dir file := by
    intro file
    unfold matchLabel pathLabel
    split <;> rfl
  have hspelled : Path.relativeTo v.module.dir file = Path.relativeTo v.module.dir other := by
    have hlabels := congrArg Label.spelling h
    rw [← hspelling, ← hspelling]
    exact hlabels
  by_cases htop : Path.isTop v.module.dir = true
  · rwa [Path.relativeTo, Path.relativeTo, if_pos htop, if_pos htop] at hspelled
  -- below the directory a path is what is spelled and the directory before it
  have hwithin : ∀ {path}, Path.isWithin v.module.dir path = true →
      path = v.module.dir ++ "/" ++ Path.relativeTo v.module.dir path := by
    intro path hpath
    rw [Path.isWithin, Bool.eq_false_iff.mpr htop, Bool.false_or, Text.startsWith_iff] at hpath
    obtain ⟨after, rfl⟩ := hpath
    rw [Path.relativeTo, if_neg htop, Text.afterStart_eq_some.mpr rfl]
    rfl
  have houtside : ∀ {path}, Path.isWithin v.module.dir path = false →
      Path.relativeTo v.module.dir path = path := by
    intro path hpath
    have hnone := (Bool.or_eq_false_iff.mp hpath).2
    rw [Path.relativeTo, if_neg htop, Text.afterStart_eq_none.mpr hnone]
    rfl
  cases hin : Path.isWithin v.module.dir file <;> cases hin' : Path.isWithin v.module.dir other
  · rw [← houtside hin, hspelled, houtside hin']
  · rw [houtside hin] at hspelled
    exact absurd haddress.symm (address_ne_of_isWithin hdir hother hfile hin' hin hspelled.symm _ _)
  · rw [houtside hin'] at hspelled
    exact absurd haddress (address_ne_of_isWithin hdir hfile hother hin hin' hspelled _ _)
  · rw [hwithin hin, hspelled, ← hwithin hin']

/-- **One file, one address.** Two modules in packages of their own that come to the
same file give it the same address: the one in the package that owns it. -/
theorem absoluteAddress_unique {v₁ v₂ : Viewpoint} {label₁ label₂ : Label} {l : Listing}
    {allowlist : Allowlist} (hbuilt : l.Built)
    (h₁ : v₁.config.packages = ⟨l.sourceTree, allowlist⟩)
    (h₂ : v₂.config.packages = ⟨l.sourceTree, allowlist⟩)
    (hin₁ : v₁.InPackage) (hin₂ : v₂.InPackage) (hbelow : file ≠ Path.top)
    (hcolon : ':' ∉ file.toList) (hplain : Packages.isBoundary ⟨l.sourceTree, allowlist⟩ file = false)
    (hfile₁ : v₁.ComesTo file label₁) (hfile₂ : v₂.ComesTo file label₂) :
    v₁.absoluteAddress label₁ = v₂.absoluteAddress label₂ ∧
      ∃ package rest, v₁.absoluteAddress label₁ = "//" ++ package ++ ":" ++ rest ∧
        Packages.IsOwner ⟨l.sourceTree, allowlist⟩ file package rest := by
  have hclean : Path.clean file = file :=
    hfile₁.clean hbuilt (congrArg Packages.tree h₁)
  obtain ⟨spelling₁, rfl⟩ := hfile₁.exists_pathLabel
  obtain ⟨spelling₂, rfl⟩ := hfile₂.exists_pathLabel
  have howned₁ := absoluteAddress_pathLabel hin₁ hclean hbelow hcolon (h₁ ▸ hplain) spelling₁
  have howned₂ := absoluteAddress_pathLabel hin₂ hclean hbelow hcolon (h₂ ▸ hplain) spelling₂
  rw [h₁] at howned₁
  rw [h₂] at howned₂
  refine ⟨howned₁.trans howned₂.symm, _, _, howned₁, ?_⟩
  exact isOwner_ownerDepth hclean hbelow

/-! Two packages side by side, and a third one inside the first. -/

def nestedListing : Listing :=
  Listing.ofFiles ["x/Android.bp", "x/sub/Android.bp", "x/sub/a.c", "y/Android.bp"]

def nestedView (id : ModuleId) : Viewpoint where
  graph := ⟨[⟨Module.plain "near" "lib" "x", ProviderStore.empty, []⟩,
    ⟨Module.plain "far" "lib" "y", ProviderStore.empty, []⟩], []⟩
  registry := Registry.empty
  config := Config.ofTree nestedListing.sourceTree
  id := id

theorem nested_absoluteAddress_unique :
    (nestedView 0).absoluteAddress ⟨"sub/a.c", "sub/a.c"⟩ =
      (nestedView 1).absoluteAddress ⟨"//x/sub:a.c", "x/sub/a.c"⟩ := by
  have hnear : (nestedView 0).ComesTo "x/sub/a.c" ⟨"sub/a.c", "sub/a.c"⟩ := by
    have hrelative : Text.startsWith "//" "sub/a.c" = false := by decide +kernel
    have hentry : (nestedView 0).expandEntry [] "sub/a.c" =
        .ok (.literal "x/sub/a.c" ⟨"sub/a.c", "sub/a.c"⟩) := rfl
    exact .literal hrelative hentry
  have hfar : (nestedView 1).ComesTo "x/sub/a.c" ⟨"//x/sub:a.c", "x/sub/a.c"⟩ := by
    have hrelative : Text.startsWith "//" "../x/sub/*.c" = false := by decide +kernel
    have hlabels : (nestedView 1).matchLabels "../x/sub/*.c" [] =
        .ok [⟨"//x/sub:a.c", "x/sub/a.c"⟩] := by decide +kernel
    have hfiles : (nestedView 1).config.tree.glob "x/sub/*.c" [] = .ok ["x/sub/a.c"] := by
      decide +kernel
    have hentry : (nestedView 1).expandEntry [] "../x/sub/*.c" =
        .ok (.files "x/sub/*.c" [⟨"//x/sub:a.c", "x/sub/a.c"⟩]) := by
      rw [expandEntry_of_none rfl, hlabels]
      rfl
    exact .pattern hrelative hentry hfiles List.mem_cons_self
  exact (absoluteAddress_unique (Listing.built_ofFiles _) rfl rfl (by decide +kernel)
    (by decide +kernel) (by decide) (by decide) (by decide +kernel) hnear hfar).1

end Viewpoint

end TargetGen
