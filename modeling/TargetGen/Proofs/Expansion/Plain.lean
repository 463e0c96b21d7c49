import TargetGen.Proofs.Expansion.File
import TargetGen.Proofs.Expansion.Gathering
import TargetGen.Proofs.Label

/-!
# Plain expansion — what excludes are meant to do

Expansion subtracts excludes in three places: labels are dropped as they are
spelled, patterns do not match what excludes name in the tree, and resolved
addresses are subtracted at the end. Only the last of them is meant to count.
`Viewpoint.plainIncludes` is the expansion that does nothing else.

An entry like `//a.c` is an absolute label, but as an exclude it is read as a path
of the module's directory all the same, and no pattern matches the file at that
path any more (`Viewpoint.shadowed`). Apart from these files the early subtractions
change nothing (`Viewpoint.filter_entry`), and so it is known for every list what
expansion comes to and when that is the plain one.
-/

namespace TargetGen

open Packages

namespace Viewpoint

/-! ## The plain definition -/

/-- The labels of an entry. A pattern stands for its matches but those in `dropped`;
nothing is excluded. -/
def entryLabels (v : Viewpoint) (dropped : List String) (entry : String) :
    Except ModuleError (List Label) := do
  match ← v.reference? entry with
  | some reference => return [v.moduleLabel entry reference]
  | none =>
    if Path.isGlob entry then
      match v.config.tree.glob (Path.join v.module.dir entry) [] with
      | .ok files => return (files.filter (· ∉ dropped)).map v.matchLabel
      | .error e => throw (.ofTree e)
    else return [v.literalLabel entry]

def resolvedLabels (v : Viewpoint) (labels : List Label) : List Label :=
  labels.map (v.config.packages.resolveLabel v.module.dir)

/-- The labels of `paths` in order, less those whose resolved address is that of a
label of `excludes`, and the first one only of each address. -/
def includesWithout (v : Viewpoint) (dropped paths excludes : List String) :
    Except ModuleError (List Label) := do
  let included ← paths.mapM (v.entryLabels dropped)
  let excluded ← excludes.mapM (v.entryLabels [])
  return Label.select (excluded.flatten.map v.resolvedAddress)
    (included.flatMap v.resolvedLabels)

/-- Expansion by its plain definition. -/
def plainIncludes (v : Viewpoint) (paths excludes : List String) :
    Except ModuleError (List Label) :=
  v.includesWithout [] paths excludes

/-- Expansion has the includes of the plain definition, where that gives any. -/
def Agrees (v : Viewpoint) (r : ReferenceRecord) (paths excludes : List String) : Prop :=
  ∀ includes, v.plainIncludes paths excludes = .ok includes →
    (v.expand paths excludes r).1.map LabelList.includes = .ok includes

/-! ## Files that an absolute label hides -/

/-- An absolute label that is neither a reference nor a pattern. -/
def isAbsoluteLabel (v : Viewpoint) (entry : String) : Bool :=
  Text.startsWith "//" entry && !Path.isGlob entry &&
    match v.reference? entry with
    | .ok none => true
    | _ => false

/-- The paths at which absolute labels among `excludes` are looked for in the tree. -/
def shadowed (v : Viewpoint) (excludes : List String) : List String :=
  (excludes.filter v.isAbsoluteLabel).map (Path.join v.module.dir)

/-- The plain definition has the same includes without the shadowed files. -/
def Unaffected (v : Viewpoint) (paths excludes : List String) : Prop :=
  ∀ includes, v.plainIncludes paths excludes = .ok includes →
    v.includesWithout (v.shadowed excludes) paths excludes = .ok includes

/-- An entry is safe if no match of it that is shadowed would be missed: its address
is excluded as well, or an earlier match has the same one. -/
def Safe (v : Viewpoint) (excludes : List String) (entry : String) : Prop :=
  v.reference? entry = .ok none → Path.isGlob entry = true →
    ∀ excluded before file after, excludes.mapM (v.entryLabels []) = .ok excluded →
      v.config.tree.glob (Path.join v.module.dir entry) [] = .ok (before ++ file :: after) →
      file ∈ v.shadowed excludes →
        v.resolvedAddress (v.matchLabel file) ∈ excluded.flatten.map v.resolvedAddress ∨
        ∃ earlier ∈ before,
          v.resolvedAddress (v.matchLabel earlier) = v.resolvedAddress (v.matchLabel file)

variable {v : Viewpoint} {dropped excludes paths : List String} {entry : String}
  {labels : List Label} {excluded : List (List Label)} {out : List Expanded}

theorem resolvedLabels_flatMap {α : Type} (f : α → List Label) (items : List α) :
    v.resolvedLabels (items.flatMap f) = items.flatMap fun item => v.resolvedLabels (f item) :=
  List.map_flatMap

/-! ## Entries -/

theorem filter_notMem_nil (files : List String) : files.filter (· ∉ ([] : List String)) = files :=
  List.filter_eq_self.mpr fun file _ => by simp

theorem entryLabels_eq_ok_iff : v.entryLabels dropped entry = .ok labels ↔
    (∃ reference, v.reference? entry = .ok (some reference) ∧
      labels = [v.moduleLabel entry reference]) ∨
    (∃ files, v.reference? entry = .ok none ∧ Path.isGlob entry = true ∧
      v.config.tree.glob (Path.join v.module.dir entry) [] = .ok files ∧
      labels = (files.filter (· ∉ dropped)).map v.matchLabel) ∨
    (v.reference? entry = .ok none ∧ Path.isGlob entry = false ∧
      labels = [v.literalLabel entry]) := by
  constructor
  · intro h
    obtain ⟨reference, hreference, h⟩ := bind_eq_ok h
    cases reference with
    | some reference => exact .inl ⟨reference, hreference, (Except.ok.inj h).symm⟩
    | none =>
      right
      dsimp only at h
      cases hg : Path.isGlob entry with
      | true =>
        rw [hg, if_pos rfl] at h
        split at h
        next files hfiles => exact .inl ⟨files, hreference, rfl, hfiles, (Except.ok.inj h).symm⟩
        next => cases h
      | false =>
        rw [hg, if_neg Bool.false_ne_true] at h
        exact .inr ⟨hreference, rfl, (Except.ok.inj h).symm⟩
  · unfold entryLabels
    rintro (⟨reference, hr, rfl⟩ | ⟨files, hr, hg, hfiles, rfl⟩ | ⟨hr, hg, rfl⟩)
    · rw [hr]
      rfl
    · rw [hr, hg, hfiles]
      rfl
    · rw [hr, hg]
      rfl

theorem exists_entryLabels (h : v.entryLabels [] entry = .ok labels) (dropped : List String) :
    ∃ kept, v.entryLabels dropped entry = .ok kept := by
  rcases entryLabels_eq_ok_iff.mp h with ⟨reference, hr, -⟩ | ⟨files, hr, hg, hfiles, -⟩ | ⟨hr, hg, -⟩
  · exact ⟨_, entryLabels_eq_ok_iff.mpr (.inl ⟨reference, hr, rfl⟩)⟩
  · exact ⟨_, entryLabels_eq_ok_iff.mpr (.inr (.inl ⟨files, hr, hg, hfiles, rfl⟩))⟩
  · exact ⟨_, entryLabels_eq_ok_iff.mpr (.inr (.inr ⟨hr, hg, rfl⟩))⟩

theorem expandEntry_of_some {reference : Reference}
    (h : v.reference? entry = .ok (some reference)) (excludes : List String) :
    v.expandEntry excludes entry = .ok (.named reference (v.moduleLabel entry reference)) := by
  unfold expandEntry
  rw [h]
  rfl

theorem expandEntry_of_literal (h : v.reference? entry = .ok none)
    (hg : Path.isGlob entry = false) (excludes : List String) :
    v.expandEntry excludes entry =
      .ok (.literal (Path.join v.module.dir entry) (v.literalLabel entry)) := by
  rw [expandEntry_of_none h, hg, if_neg Bool.false_ne_true]

theorem expandEntry_of_glob {files : List String} (h : v.reference? entry = .ok none)
    (hg : Path.isGlob entry = true)
    (hfiles : v.config.tree.glob (Path.join v.module.dir entry) excludes = .ok files) :
    v.expandEntry excludes entry =
      .ok (.files (Path.join v.module.dir entry) (files.map v.matchLabel)) := by
  rw [expandEntry_of_none h, hg, if_pos rfl, matchLabels, hfiles]
  rfl

theorem exists_expandEntry (h : v.entryLabels [] entry = .ok labels) :
    ∃ e, v.expandEntry [] entry = .ok e ∧ e.labels = labels := by
  rcases entryLabels_eq_ok_iff.mp h with ⟨reference, hr, rfl⟩ | ⟨files, hr, hg, hfiles, rfl⟩ | ⟨hr, hg, rfl⟩
  · exact ⟨_, expandEntry_of_some hr [], rfl⟩
  · refine ⟨_, expandEntry_of_glob hr hg hfiles, ?_⟩
    show files.map v.matchLabel = _
    rw [filter_notMem_nil]
  · exact ⟨_, expandEntry_of_literal hr hg [], rfl⟩

theorem includesWithout_eq_ok_iff {includes : List Label} :
    v.includesWithout dropped paths excludes = .ok includes ↔
      ∃ included excluded, paths.mapM (v.entryLabels dropped) = .ok included ∧
        excludes.mapM (v.entryLabels []) = .ok excluded ∧
        includes = Label.select (excluded.flatten.map v.resolvedAddress)
          (included.flatMap v.resolvedLabels) := by
  constructor
  · intro h
    obtain ⟨included, hincluded, h⟩ := bind_eq_ok h
    obtain ⟨excluded, hexcluded, h⟩ := bind_eq_ok h
    exact ⟨included, excluded, hincluded, hexcluded, (Except.ok.inj h).symm⟩
  · rintro ⟨included, excluded, hincluded, hexcluded, rfl⟩
    rw [includesWithout, hincluded, hexcluded]
    rfl

theorem exists_expandEntries (h : excludes.mapM (v.entryLabels []) = .ok excluded) :
    ∃ out, excludes.mapM (v.expandEntry []) = .ok out ∧ out.map Expanded.labels = excluded := by
  obtain ⟨out, hout, hlabels⟩ := exists_mapM h fun _ _ _ hentry => exists_expandEntry hentry
  refine ⟨out, hout, ?_⟩
  rwa [← List.forall₂_eq_eq_eq, List.forall₂_map_left_iff]

/-! ## What excludes name in the tree -/

theorem exists_entry_of_path {q : String} (hout : excludes.mapM (v.expandEntry []) = .ok out)
    (hq : q ∈ out.filterMap Expanded.path?) :
    ∃ entry ∈ excludes, ∃ e ∈ out, v.reference? entry = .ok none ∧
      v.expandEntry [] entry = .ok e ∧ q = Path.join v.module.dir entry := by
  obtain ⟨e, he, hpath⟩ := List.mem_filterMap.mp hq
  obtain ⟨entry, hentry, hexpand⟩ := exists_item_of_mapM hout he
  have hno : e.reference? = none := by
    cases e with
    | named => cases hpath
    | files => rfl
    | literal => rfl
  have hr := reference?_of_expandEntry hexpand
  rw [hno] at hr
  refine ⟨entry, hentry, e, he, hr, hexpand, ?_⟩
  rw [expandEntry_of_none hr] at hexpand
  split at hexpand
  next =>
    obtain ⟨labels, -, rfl⟩ := map_eq_ok hexpand
    exact (Option.some.inj hpath).symm
  next =>
    obtain rfl := Except.ok.inj hexpand
    exact (Option.some.inj hpath).symm

theorem path_mem {entry : String} (hout : excludes.mapM (v.expandEntry []) = .ok out)
    (hentry : entry ∈ excludes) (hr : v.reference? entry = .ok none) :
    Path.join v.module.dir entry ∈ out.filterMap Expanded.path? := by
  obtain ⟨e, he, hexpand⟩ := exists_result_of_mapM hout hentry
  refine List.mem_filterMap.mpr ⟨e, he, ?_⟩
  rw [expandEntry_of_none hr] at hexpand
  split at hexpand
  next =>
    obtain ⟨labels, -, rfl⟩ := map_eq_ok hexpand
    rfl
  next =>
    obtain rfl := Except.ok.inj hexpand
    rfl

theorem glob_of_expandEntry {e : Expanded} (hr : v.reference? entry = .ok none)
    (hg : Path.isGlob entry = true) (h : v.expandEntry [] entry = .ok e) :
    ∃ files, v.config.tree.glob (Path.join v.module.dir entry) [] = .ok files ∧
      e.labels = files.map v.matchLabel := by
  rw [expandEntry_of_none hr, hg, if_pos rfl] at h
  obtain ⟨labels, hlabels, rfl⟩ := map_eq_ok h
  unfold matchLabels at hlabels
  split at hlabels
  next files hfiles => exact ⟨files, hfiles, (Except.ok.inj hlabels).symm⟩
  next => cases hlabels

section

variable (hregular : v.config.tree.Regular) (hdir : Path.isGlob v.module.dir = false)
  (hout : excludes.mapM (v.expandEntry []) = .ok out)

include hregular hdir hout

theorem readable_paths :
    ∀ q ∈ out.filterMap Expanded.path?, ∃ g, Glob.compile q = .ok g := by
  intro q hq
  obtain ⟨entry, -, e, -, hr, hexpand, rfl⟩ := exists_entry_of_path hout hq
  cases hg : Path.isGlob entry with
  | true =>
    obtain ⟨files, hfiles, -⟩ := glob_of_expandEntry hr hg hexpand
    exact hregular.readable hfiles
  | false => exact ⟨_, Glob.compile_literal (Path.isGlob_join hdir hg)⟩

/-- **A file that is named by excludes** is excluded by its address, or it is shadowed. -/
theorem excluded_or_shadowed {pattern file : String} {found : List String}
    (hfound : v.config.tree.glob pattern [] = .ok found) (hfile : file ∈ found)
    (hmatch : (out.filterMap Expanded.path?).any (Glob.matchesPath · file) = true) :
    v.resolvedAddress (v.matchLabel file) ∈ (out.flatMap Expanded.labels).map v.resolvedAddress ∨
      file ∈ v.shadowed excludes := by
  obtain ⟨q, hq, hmatch⟩ := List.any_eq_true.mp hmatch
  obtain ⟨entry, hentry, e, he, hr, hexpand, rfl⟩ := exists_entry_of_path hout hq
  cases hg : Path.isGlob entry with
  | true =>
    obtain ⟨files, hfiles, hlabels⟩ := glob_of_expandEntry hr hg hexpand
    -- the exclude finds the file by itself, so it has the file's label
    have hmem : file ∈ files := hregular.complete hfound hfile hfiles hmatch
    refine .inl (List.mem_map.mpr ⟨v.matchLabel file, List.mem_flatMap.mpr ⟨e, he, ?_⟩, rfl⟩)
    rw [hlabels]
    exact List.mem_map_of_mem hmem
  | false =>
    -- a literal matches itself only; its label is that of the file, unless it is absolute
    have hsame := (Glob.matchesPath_literal (Path.isGlob_join hdir hg)).mp hmatch
    rw [expandEntry_of_literal hr hg] at hexpand
    obtain rfl := Except.ok.inj hexpand
    cases habsolute : Text.startsWith "//" entry with
    | true =>
      refine .inr (List.mem_map.mpr ⟨entry, List.mem_filter.mpr ⟨hentry, ?_⟩, hsame.symm⟩)
      rw [isAbsoluteLabel, habsolute, hg, hr]
      rfl
    | false =>
      refine .inl (List.mem_map.mpr
        ⟨v.literalLabel entry, List.mem_flatMap.mpr ⟨_, he, List.mem_singleton_self _⟩, ?_⟩)
      unfold resolvedAddress resolveLabel
      rw [literalLabel, habsolute, if_neg Bool.false_ne_true, matchLabel, address_pathLabel,
        address_pathLabel, hsame]

omit hregular in
theorem matches_of_shadowed {file : String} (h : file ∈ v.shadowed excludes) :
    (out.filterMap Expanded.path?).any (Glob.matchesPath · file) = true := by
  obtain ⟨entry, hentry, rfl⟩ := List.mem_map.mp h
  obtain ⟨hmem, hlabel⟩ := List.mem_filter.mp hentry
  rw [isAbsoluteLabel, Bool.and_eq_true, Bool.and_eq_true, Bool.not_eq_true'] at hlabel
  obtain ⟨⟨-, hg⟩, hreference⟩ := hlabel
  have hr : v.reference? entry = .ok none := by
    split at hreference
    next hr => exact hr
    next => cases hreference
  exact List.any_eq_true.mpr ⟨_, path_mem hout hmem hr,
    (Glob.matchesPath_literal (Path.isGlob_join hdir hg)).mpr rfl⟩

/-- **The early subtractions of an entry** drop what is excluded by its address and
what is shadowed, and nothing else. -/
theorem filter_entry (h : v.entryLabels (v.shadowed excludes) entry = .ok labels) :
    ∃ e, v.expandEntry (out.filterMap Expanded.path?) entry = .ok e ∧
      ((e.keptLabels ((out.flatMap Expanded.labels).map Label.address)).filter fun label =>
        v.resolvedAddress label ∉ (out.flatMap Expanded.labels).map v.resolvedAddress) =
      labels.filter fun label =>
        v.resolvedAddress label ∉ (out.flatMap Expanded.labels).map v.resolvedAddress := by
  -- one label is dropped only if its address is excluded even before it is resolved
  have hone : ∀ label : Label,
      ((if label.address ∈ (out.flatMap Expanded.labels).map Label.address then [] else [label]).filter
        fun label => v.resolvedAddress label ∉ (out.flatMap Expanded.labels).map v.resolvedAddress) =
      [label].filter fun label =>
        v.resolvedAddress label ∉ (out.flatMap Expanded.labels).map v.resolvedAddress := by
    intro label
    split
    next hmem =>
      obtain ⟨other, hother, hsame⟩ := List.mem_map.mp hmem
      have hresolved : v.resolvedAddress label ∈
          (out.flatMap Expanded.labels).map v.resolvedAddress := by
        refine List.mem_map.mpr ⟨other, hother, ?_⟩
        unfold resolvedAddress resolveLabel
        rw [hsame]
      simp only [List.filter_cons, List.filter_nil, hresolved, not_true_eq_false, decide_false,
        Bool.false_eq_true, if_false]
    next => rfl
  rcases entryLabels_eq_ok_iff.mp h with ⟨reference, hr, rfl⟩ | ⟨files, hr, hg, hfiles, rfl⟩ | ⟨hr, hg, rfl⟩
  · exact ⟨_, expandEntry_of_some hr _, hone _⟩
  · refine ⟨_, expandEntry_of_glob hr hg
      (hregular.without hfiles (readable_paths hregular hdir hout)), ?_⟩
    show (List.map v.matchLabel _).filter _ = _
    rw [List.filter_map, List.filter_map, List.filter_filter, List.filter_filter]
    refine congrArg (List.map v.matchLabel) (List.filter_congr fun file hfile => ?_)
    cases hmatch : (out.filterMap Expanded.path?).any (Glob.matchesPath · file) with
    | false =>
      have hno : file ∉ v.shadowed excludes := fun hshadowed => by
        rw [matches_of_shadowed hdir hout hshadowed] at hmatch
        cases hmatch
      simp [hno]
    | true =>
      rcases excluded_or_shadowed hregular hdir hout hfiles hfile hmatch with hin | hshadowed
      · simp only [Function.comp_apply, hin, not_true_eq_false, decide_false, Bool.false_and]
      · simp [hshadowed]
  · exact ⟨_, expandEntry_of_literal hr hg _, hone _⟩

/-- All entries together: what is selected of them does not show the early subtractions. -/
theorem select_entries {included : List (List Label)}
    (h : paths.mapM (v.entryLabels (v.shadowed excludes)) = .ok included) :
    ∃ found, paths.mapM (v.expandEntry (out.filterMap Expanded.path?)) = .ok found ∧
      Label.select ((out.flatMap Expanded.labels).map v.resolvedAddress)
        (v.resolvedLabels
          (found.flatMap (·.keptLabels ((out.flatMap Expanded.labels).map Label.address)))) =
      Label.select ((out.flatMap Expanded.labels).map v.resolvedAddress)
        (included.flatMap v.resolvedLabels) := by
  obtain ⟨found, hfound, hfilter⟩ := exists_mapM h fun _ _ _ hentry =>
    filter_entry hregular hdir hout hentry
  refine ⟨found, hfound, ?_⟩
  rw [resolvedLabels_flatMap]
  refine Label.select_flatMap_congr (hfilter.imp fun _ _ hsame => Label.select_congr ?_)
  rw [resolvedLabels, resolvedLabels, List.filter_map, List.filter_map]
  exact congrArg (List.map _) hsame

end

theorem includes_gathered (v : Viewpoint) (found out : List Expanded) :
    (v.gathered found out).includes =
      Label.select ((out.flatMap Expanded.labels).map v.resolvedAddress)
        (v.resolvedLabels
          (found.flatMap (·.keptLabels ((out.flatMap Expanded.labels).map Label.address)))) := by
  rw [gathered, LabelList.includes_subtractExcludes]
  unfold LabelList.excludedAddresses Packages.resolveList
  rw [List.map_map]
  rfl

theorem excludedAddresses_gathered (v : Viewpoint) (found out : List Expanded) :
    (v.gathered found out).excludedAddresses =
      (out.flatMap Expanded.labels).map v.resolvedAddress := by
  show ((out.flatMap Expanded.labels).map _).map Label.address = _
  rw [List.map_map]
  rfl

/-- **What expansion comes to.** It is the plain definition, but patterns do not match
the shadowed files. -/
theorem expand_eq_includesWithout (hregular : v.config.tree.Regular)
    (hdir : Path.isGlob v.module.dir = false) (r : ReferenceRecord) {includes : List Label}
    (h : v.includesWithout (v.shadowed excludes) paths excludes = .ok includes) :
    (v.expand paths excludes r).1.map LabelList.includes = .ok includes := by
  obtain ⟨included, excluded, hincluded, hexcluded, rfl⟩ := includesWithout_eq_ok_iff.mp h
  obtain ⟨out, hout, rfl⟩ := exists_expandEntries hexcluded
  obtain ⟨found, hfound, hselect⟩ := select_entries hregular hdir hout hincluded
  have hexpand := (expand_eq_ok_iff (r := r)).mpr
    ⟨out, found, collect_eq_iff_mapM.mpr hout, collect_eq_iff_mapM.mpr hfound, rfl⟩
  rw [hexpand]
  refine congrArg Except.ok ?_
  rw [includes_gathered, ← List.flatMap_def, ← hselect]

/-! ## When it is the plain one -/

theorem Safe.select_eq (hsafe : v.Safe excludes entry)
    (hexcluded : excludes.mapM (v.entryLabels []) = .ok excluded)
    (h : v.entryLabels [] entry = .ok labels) :
    ∃ kept, v.entryLabels (v.shadowed excludes) entry = .ok kept ∧
      Label.select (excluded.flatten.map v.resolvedAddress) (v.resolvedLabels kept) =
      Label.select (excluded.flatten.map v.resolvedAddress) (v.resolvedLabels labels) := by
  rcases entryLabels_eq_ok_iff.mp h with ⟨reference, hr, rfl⟩ | ⟨files, hr, hg, hfiles, rfl⟩ | ⟨hr, hg, rfl⟩
  · exact ⟨_, entryLabels_eq_ok_iff.mpr (.inl ⟨reference, hr, rfl⟩), rfl⟩
  · refine ⟨_, entryLabels_eq_ok_iff.mpr (.inr (.inl ⟨files, hr, hg, hfiles, rfl⟩)), ?_⟩
    rw [filter_notMem_nil, resolvedLabels, resolvedLabels, List.map_map, List.map_map]
    apply Label.select_map_filter
    intro before file after hsplit hdropped
    have hshadowed : file ∈ v.shadowed excludes := by
      simpa using hdropped
    exact hsafe hr hg excluded before file after hexcluded (hsplit ▸ hfiles) hshadowed
  · exact ⟨_, entryLabels_eq_ok_iff.mpr (.inr (.inr ⟨hr, hg, rfl⟩)), rfl⟩

theorem unaffected_of_safe (hsafe : ∀ entry ∈ paths, v.Safe excludes entry) :
    v.Unaffected paths excludes := by
  intro includes h
  obtain ⟨included, excluded, hincluded, hexcluded, rfl⟩ := includesWithout_eq_ok_iff.mp h
  obtain ⟨kept, hkept, hsame⟩ := exists_mapM hincluded fun entry hentry _ hlabels =>
    (hsafe entry hentry).select_eq hexcluded hlabels
  refine includesWithout_eq_ok_iff.mpr ⟨kept, excluded, hkept, hexcluded, ?_⟩
  exact (Label.select_flatMap_congr hsame).symm

/-- An entry that is not safe has a match that is missed: no other one has its label. -/
theorem safe_of_unaffected (hregular : v.config.tree.Regular)
    (hdir : Path.clean v.module.dir = v.module.dir) (h : v.Unaffected [entry] excludes) :
    v.Safe excludes entry := by
  intro hr hg excluded before file after hexcluded hfiles hshadowed
  by_contra hmissed
  obtain ⟨hkept, hfirst⟩ := not_or.mp hmissed
  have hentry : ∀ dropped, [entry].mapM (v.entryLabels dropped) =
      .ok [((before ++ file :: after).filter (· ∉ dropped)).map v.matchLabel] := by
    intro dropped
    rw [mapM_eq_ok_iff]
    exact .cons (entryLabels_eq_ok_iff.mpr (.inr (.inl ⟨_, hr, hg, hfiles, rfl⟩))) .nil
  have hplain := h _ (includesWithout_eq_ok_iff.mpr ⟨_, excluded, hentry [], hexcluded, rfl⟩)
  obtain ⟨included, excluded', hincluded, hexcluded', hsame⟩ := includesWithout_eq_ok_iff.mp hplain
  rw [hentry] at hincluded
  rw [hexcluded] at hexcluded'
  obtain rfl := Except.ok.inj hincluded
  obtain rfl := Except.ok.inj hexcluded'
  rw [List.flatMap_singleton, List.flatMap_singleton, filter_notMem_nil, List.map_append,
    List.map_cons, resolvedLabels, List.map_append, List.map_cons] at hsame
  have hnone : v.resolvedAddress (v.matchLabel file) ∉
      ((before.map v.matchLabel).map (v.config.packages.resolveLabel v.module.dir)).map
        Label.address := by
    intro hmem
    rw [List.map_map, List.map_map] at hmem
    exact hfirst (List.mem_map.mp hmem)
  -- the match is among the plain includes, and only a file that is not shadowed can put it there
  have hmem := hsame ▸ Label.mem_select_of_first hkept hnone
    (b := (after.map v.matchLabel).map (v.config.packages.resolveLabel v.module.dir))
  obtain ⟨label, hlabel, heq⟩ := List.mem_map.mp (Label.mem_of_mem_select hmem)
  obtain ⟨other, hother, rfl⟩ := List.mem_map.mp hlabel
  obtain ⟨hfound, hlit⟩ := List.mem_filter.mp hother
  have hfile := hregular.clean hfiles (List.mem_append_right before List.mem_cons_self)
  obtain rfl := matchLabel_injective hdir (hregular.clean hfiles hfound) hfile heq
  exact absurd hshadowed (of_decide_eq_true hlit)

theorem exists_includesWithout {includes : List Label}
    (h : v.plainIncludes paths excludes = .ok includes) (dropped : List String) :
    ∃ actual, v.includesWithout dropped paths excludes = .ok actual := by
  obtain ⟨included, excluded, hincluded, hexcluded, -⟩ := includesWithout_eq_ok_iff.mp h
  obtain ⟨kept, hkept, -⟩ := exists_mapM (R := fun _ _ => True) hincluded fun _ _ _ hlabels =>
    (exists_entryLabels hlabels dropped).imp fun _ hkept => ⟨hkept, trivial⟩
  exact ⟨_, includesWithout_eq_ok_iff.mpr ⟨kept, excluded, hkept, hexcluded, rfl⟩⟩

theorem agrees_iff_unaffected (hregular : v.config.tree.Regular)
    (hdir : Path.isGlob v.module.dir = false) (r : ReferenceRecord) :
    v.Agrees r paths excludes ↔ v.Unaffected paths excludes := by
  constructor
  · intro h includes hplain
    obtain ⟨actual, hactual⟩ := exists_includesWithout hplain (v.shadowed excludes)
    have hexpand := expand_eq_includesWithout hregular hdir r hactual
    rw [h includes hplain] at hexpand
    rw [hactual, Except.ok.inj hexpand]
  · intro h includes hplain
    exact expand_eq_includesWithout hregular hdir r (h includes hplain)

/-- **Expansion is the plain one** exactly if no shadowed file is missed. An entry by
itself misses none if it is safe and only then, and safe entries miss none together. -/
theorem agrees_iff (hregular : v.config.tree.Regular)
    (hclean : Path.clean v.module.dir = v.module.dir) (hdir : Path.isGlob v.module.dir = false)
    (r : ReferenceRecord) (excludes : List String) :
    (∀ paths, v.Agrees r paths excludes ↔ v.Unaffected paths excludes) ∧
    (∀ entry, v.Agrees r [entry] excludes ↔ v.Safe excludes entry) ∧
    ∀ paths, (∀ entry ∈ paths, v.Safe excludes entry) → v.Agrees r paths excludes := by
  refine ⟨fun paths => agrees_iff_unaffected hregular hdir r, fun entry => ?_, fun paths hsafe => ?_⟩
  · rw [agrees_iff_unaffected hregular hdir r]
    constructor
    · exact safe_of_unaffected hregular hclean
    · intro hsafe
      apply unaffected_of_safe
      intro other hother
      rw [List.mem_singleton.mp hother]
      exact hsafe
  · rw [agrees_iff_unaffected hregular hdir r]
    exact unaffected_of_safe hsafe

/-- Nothing is missed where no exclude is an absolute label. -/
theorem agrees_of_not_absolute (hregular : v.config.tree.Regular)
    (hdir : Path.isGlob v.module.dir = false) (r : ReferenceRecord)
    (h : ∀ entry ∈ excludes, v.isAbsoluteLabel entry = false) : v.Agrees r paths excludes := by
  rw [agrees_iff_unaffected hregular hdir r]
  apply unaffected_of_safe
  intro entry _ _ _ _ _ _ _ _ _ hshadowed
  obtain ⟨label, hlabel, -⟩ := List.mem_map.mp hshadowed
  obtain ⟨hmem, habsolute⟩ := List.mem_filter.mp hlabel
  rw [h label hmem] at habsolute
  cases habsolute

/-! Two files beside each other, and a pattern for both. -/

def pairView : Viewpoint where
  graph := ⟨[⟨Module.plain "pair" "lib" "x", ProviderStore.empty, []⟩], []⟩
  registry := Registry.empty
  config := Config.ofTree (Listing.ofFiles ["x/Android.bp", "x/a.c", "x/b.c"]).sourceTree
  id := 0

/-- The file that `//a.c` hides is excluded by its address as well. -/
theorem pair_agrees_twice_excluded :
    pairView.Agrees ReferenceRecord.empty ["*.c"] ["//a.c", "a.c"] ∧
      pairView.Safe ["//a.c", "a.c"] "*.c" := by
  have hregular : pairView.config.tree.Regular := (Listing.built_ofFiles _).regular
  have hplain : pairView.plainIncludes ["*.c"] ["//a.c", "a.c"] = .ok [⟨"b.c", "b.c"⟩] := by
    decide +kernel
  have hwithout : pairView.includesWithout (pairView.shadowed ["//a.c", "a.c"]) ["*.c"]
      ["//a.c", "a.c"] = .ok [⟨"b.c", "b.c"⟩] := by
    decide +kernel
  have hunaffected : pairView.Unaffected ["*.c"] ["//a.c", "a.c"] := by
    intro includes h
    rw [← h, hplain, hwithout]
  obtain ⟨hlists, hentries, -⟩ := agrees_iff hregular (by decide +kernel) (by decide +kernel)
    ReferenceRecord.empty ["//a.c", "a.c"]
  have hagrees := (hlists ["*.c"]).mpr hunaffected
  exact ⟨hagrees, (hentries "*.c").mp hagrees⟩

/-- The file that `//a.c` hides is missed, although `//a.c` is not its address. -/
theorem pair_misses_file :
    pairView.config.tree.Regular ∧ Path.clean pairView.module.dir = pairView.module.dir ∧
      Path.isGlob pairView.module.dir = false ∧
      pairView.plainIncludes ["*.c"] ["//a.c"] = .ok [⟨"a.c", "a.c"⟩, ⟨"b.c", "b.c"⟩] ∧
      (pairView.expand ["*.c"] ["//a.c"] ReferenceRecord.empty).1.map LabelList.includes =
        .ok [⟨"b.c", "b.c"⟩] ∧
      ¬ pairView.Agrees ReferenceRecord.empty ["*.c"] ["//a.c"] := by
  have hplain : pairView.plainIncludes ["*.c"] ["//a.c"] = .ok [⟨"a.c", "a.c"⟩, ⟨"b.c", "b.c"⟩] := by
    decide +kernel
  have hexpand : (pairView.expand ["*.c"] ["//a.c"] ReferenceRecord.empty).1.map
      LabelList.includes = .ok [⟨"b.c", "b.c"⟩] := by
    decide +kernel
  refine ⟨(Listing.built_ofFiles _).regular, by decide +kernel, by decide +kernel, hplain,
    hexpand, fun h => ?_⟩
  have hsame := h _ hplain
  rw [hexpand] at hsame
  exact absurd (Except.ok.inj hsame) (by decide)

end Viewpoint

end TargetGen
