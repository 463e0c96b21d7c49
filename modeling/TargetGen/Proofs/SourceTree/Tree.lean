import Mathlib.Data.List.Induction
import TargetGen.Proofs.Result
import TargetGen.Proofs.SourceTree.Disk

/-!
# Trees of files — what a walk finds

A disk made of files has directories just above the files (`Disk.holds_ofFiles`).
Plain steps can be followed on it just where a file or directory is, and a walk that
has room for the longest path finds each file below its directory, by the steps that
are left (`Holds.walkFrom_ofFiles`).
-/

namespace TargetGen.Disk

variable {d : Disk} {here place names rest : List String} {name path : String} {entry entry' : Entry}
  {last : Bool} {links : Nat} {paths : List String} {title : String} {titleBytes : Nat}

/-! ## The tree of some files -/

/-- A file is spelled by the steps to a place. -/
def FileAt (paths : List String) (place : List String) : Prop :=
  ∃ path ∈ paths, Mount.steps path = place

/-- A file lies below a place other than the top. -/
def FolderAt (paths : List String) (place : List String) : Prop :=
  place ≠ [] ∧ ∃ rest, rest ≠ [] ∧ FileAt paths (place ++ rest)

theorem fileAt_concat :
    FileAt (paths ++ [path]) place ↔ FileAt paths place ∨ place = Mount.steps path := by
  constructor
  · rintro ⟨other, hother, rfl⟩
    rcases List.mem_append.mp hother with hother | hother
    · exact .inl ⟨other, hother, rfl⟩
    · exact .inr (congrArg Mount.steps (List.mem_singleton.mp hother))
  · rintro (⟨other, hother, rfl⟩ | rfl)
    · exact ⟨other, List.mem_append_left [path] hother, rfl⟩
    · exact ⟨path, List.mem_append_right paths List.mem_cons_self, rfl⟩

theorem exists_append_iff_prefix_dropLast (hne : names ≠ []) :
    (∃ rest, rest ≠ [] ∧ place ++ rest = names) ↔ place <+: names.dropLast := by
  constructor
  · rintro ⟨rest, hrest, rfl⟩
    rw [List.dropLast_append_of_ne_nil hrest]
    exact List.prefix_append place rest.dropLast
  · rintro ⟨rest, hrest⟩
    refine ⟨rest ++ [names.getLast hne], by simp, ?_⟩
    rw [← List.append_assoc, hrest, List.dropLast_append_getLast]

theorem folderAt_concat (hne : Mount.steps path ≠ []) :
    FolderAt (paths ++ [path]) place ↔
      FolderAt paths place ∨ place ≠ [] ∧ place <+: (Mount.steps path).dropLast := by
  rw [← exists_append_iff_prefix_dropLast hne]
  simp only [FolderAt, fileAt_concat, and_or_left, exists_or]

/-- The files of a tree: paths in normal form below the top, and none of them lies below
another. -/
structure IsTree (paths : List String) : Prop where
  clean : ∀ path ∈ paths, Path.clean path = path
  below_top : ∀ path ∈ paths, path ≠ Path.top
  apart : ∀ path ∈ paths, ∀ other ∈ paths, Path.isWithin path other = false

/-- A disk can take the names of the files and of the directories above them. -/
def NamesFit (paths : List String) : Prop :=
  ∀ path ∈ paths, ∀ name ∈ Mount.steps path, name.utf8ByteSize ≤ nameLimit

theorem IsTree.not_fileAt_append (h : IsTree paths) (hplace : FileAt paths place)
    (hrest : rest ≠ []) : ¬ FileAt paths (place ++ rest) := by
  obtain ⟨path, hpath, rfl⟩ := hplace
  rintro ⟨other, hother, hsplit⟩
  have hwithin : Path.isWithin path other = true :=
    (Mount.isWithin_iff_steps (h.clean path hpath) (h.clean other hother)
      (h.below_top other hother)).mpr ⟨rest, hrest, hsplit⟩
  rw [h.apart path hpath other hother] at hwithin
  cases hwithin

/-- **A disk made of files** has these files and the directories above them. -/
theorem holds_ofFiles (htree : IsTree paths) (hfit : NamesFit paths) :
    (ofFiles title titleBytes paths []).Holds (FileAt paths) (FolderAt paths) := by
  induction paths using List.reverseRecOn with
  | nil =>
    refine ⟨fun place entry => ?_, ?_⟩
    · constructor
      · intro hentry
        cases hentry
      · rintro (⟨-, path, hpath, -⟩ | ⟨-, -, rest, -, path, hpath, -⟩)
        · cases hpath
        · cases hpath
    · rintro place ⟨path, hpath, -⟩
      cases hpath
  | append_singleton init path ih =>
    have hmem : path ∈ init ++ [path] := List.mem_append_right init List.mem_cons_self
    have hinit : ∀ other ∈ init, other ∈ init ++ [path] := fun _ => List.mem_append_left [path]
    have hbefore := ih
      ⟨fun other ho => htree.clean other (hinit other ho),
        fun other ho => htree.below_top other (hinit other ho),
        fun one hone other ho => htree.apart one (hinit one hone) other (hinit other ho)⟩
      fun other ho => hfit other (hinit other ho)
    have hclean := htree.clean path hmem
    have hne : Mount.steps path ≠ [] :=
      mt (Mount.steps_eq_nil_iff hclean).mp (htree.below_top path hmem)
    have hself : FileAt (init ++ [path]) (Mount.steps path) := ⟨path, hmem, rfl⟩
    rw [ofFiles, List.foldl_nil, List.foldl_append]
    refine (hbefore.addFile hclean (htree.below_top path hmem) ?_ ?_ ?_).congr
      (fun place => fileAt_concat) fun place => folderAt_concat hne
    · intro name hname
      exact ⟨Mount.plain_steps hclean name hname, hfit path hmem name hname⟩
    · -- no file stands where a directory has to be
      intro place _ hprefix hfile
      obtain ⟨rest, hrest, hsplit⟩ := (exists_append_iff_prefix_dropLast hne).mpr hprefix
      rw [← hsplit] at hself
      exact htree.not_fileAt_append (fileAt_concat.mpr (.inl hfile)) hrest hself
    · rintro ⟨-, rest, hrest, hfile⟩
      exact htree.not_fileAt_append hself hrest (fileAt_concat.mpr (.inl hfile))

theorem sameTop_ofFiles (title : String) (titleBytes : Nat) (paths : List String) :
    SameTop ⟨title, titleBytes, []⟩ (ofFiles title titleBytes paths []) := by
  induction paths using List.reverseRecOn with
  | nil => exact ⟨rfl, rfl⟩
  | append_singleton init path ih =>
    rw [ofFiles, List.foldl_nil, List.foldl_append]
    exact ih.trans (sameTop_addFile _ path)

/-! ## Above a file -/

theorem FileAt.fits (h : FileAt paths place) (htree : IsTree paths) (hfit : NamesFit paths) :
    ∀ name ∈ place, Fits name := by
  obtain ⟨path, hpath, rfl⟩ := h
  intro name hname
  exact ⟨Mount.plain_steps (htree.clean path hpath) name hname, hfit path hpath name hname⟩

theorem FileAt.top_or_folder (h : FileAt paths (place ++ rest)) (hrest : rest ≠ []) :
    place = [] ∨ FolderAt paths place := by
  by_cases hnil : place = []
  · exact .inl hnil
  · exact .inr ⟨hnil, rest, hrest, h⟩

theorem FileAt.there (h : FileAt paths (place ++ rest)) (hplace : place ≠ []) :
    FileAt paths place ∨ FolderAt paths place := by
  by_cases hnil : rest = []
  · subst hnil
    rw [List.append_nil] at h
    exact .inl h
  · exact .inr ⟨hplace, rest, hnil, h⟩

/-- **The steps to a file can be followed**, and so can those to a directory above it. -/
theorem Holds.followFrom_of_fileAt (h : d.Holds (FileAt paths) (FolderAt paths))
    (htree : IsTree paths) (hfit : NamesFit paths) (hfile : FileAt paths (here ++ names ++ rest)) :
    d.followFrom last links (.inside here) names = .ok (.inside (here ++ names), links) := by
  induction names generalizing here with
  | nil => rw [followFrom, List.append_nil]
  | cons name later ih =>
    rw [List.append_assoc] at hfile
    have hhere := hfile.top_or_folder (List.cons_ne_nil name (later ++ rest))
    have hname : Fits name := hfile.fits htree hfit name (by simp)
    rw [List.cons_append, List.append_cons] at hfile
    rw [h.followFrom_there hhere hname (hfile.there (by simp)),
      List.append_cons here name later]
    apply ih
    rw [List.append_assoc]
    exact hfile

/-! ## Walking -/

/-- An entry of the disk as one of a directory, if it stands one step below it. -/
def childOf (place : List String) (entry : List String × Entry) : Option (String × Entry) :=
  entry.1.getLast?.bind fun name =>
    if entry.1.dropLast = place then some (name, entry.2) else none

theorem childOf_eq_some_iff :
    childOf place (names, entry) = some (name, entry') ↔
      names = place ++ [name] ∧ entry = entry' := by
  rcases List.eq_nil_or_concat' names with rfl | ⟨folder, last, rfl⟩
  · simp [childOf]
  · simp only [childOf, List.getLast?_concat, List.dropLast_concat, Option.bind_some]
    split
    next heq => simp [heq]
    next hne =>
      simp only [reduceCtorEq, false_iff, List.append_singleton_inj, not_and]
      rintro ⟨heq, -⟩
      exact absurd heq hne

theorem children_eq (d : Disk) (place : List String) :
    d.children place = (NameMap.ofList (d.entries.filterMap (childOf place))).entries := by
  refine congrArg (fun xs => (NameMap.ofList xs).entries) (List.filterMap_congr ?_)
  rintro ⟨names, entry⟩ -
  dsimp only [childOf]
  cases hlast : names.getLast? with
  | none => rfl
  | some name => rfl

theorem Holds.mem_children {files folders : List String → Prop} (h : d.Holds files folders) :
    (name, entry) ∈ d.children place ↔ (place ++ [name], entry) ∈ d.entries := by
  have hmem : ∀ {name entry}, (name, entry) ∈ d.entries.filterMap (childOf place) ↔
      (place ++ [name], entry) ∈ d.entries := by
    intro name entry
    rw [List.mem_filterMap]
    constructor
    · rintro ⟨⟨names, entry'⟩, hentry, hsome⟩
      obtain ⟨rfl, rfl⟩ := childOf_eq_some_iff.mp hsome
      exact hentry
    · intro hentry
      exact ⟨_, hentry, childOf_eq_some_iff.mpr ⟨rfl, rfl⟩⟩
  rw [children_eq]
  refine (Ordered.mem_ofList_iff_of_unique ?_).trans hmem
  rintro ⟨name, entry⟩ hentry ⟨name', entry'⟩ hentry' heq
  obtain rfl : name = name' := Std.LawfulEqCmp.eq_of_compare heq
  rw [h.unique (hmem.mp hentry) (hmem.mp hentry')]

/-- Some steps are spelled from the root of a walk, and lead from there through a directory
and an entry of it to a file. -/
def FoundBelow (paths spelling folder : List String) (name : String) (names : List String) : Prop :=
  ∃ rest, names = spelling ++ name :: rest ∧ FileAt paths (folder ++ name :: rest)

theorem foundBelow_file {spelling folder : List String} (htree : IsTree paths)
    (hfile : FileAt paths (folder ++ [name])) :
    FoundBelow paths spelling folder name names ↔ names = spelling ++ [name] := by
  constructor
  · rintro ⟨rest, rfl, hrest⟩
    by_cases hnil : rest = []
    · rw [hnil]
    · rw [List.append_cons] at hrest
      exact absurd hrest (htree.not_fileAt_append hfile hnil)
  · rintro rfl
    exact ⟨[], rfl, hfile⟩

theorem foundBelow_folder {spelling folder : List String} (htree : IsTree paths)
    (hfolder : FolderAt paths (folder ++ [name])) :
    FoundBelow paths spelling folder name names ↔
      ∃ rest, rest ≠ [] ∧ names = spelling ++ [name] ++ rest ∧
        FileAt paths (folder ++ [name] ++ rest) := by
  obtain ⟨-, next, hnext, hfile⟩ := hfolder
  constructor
  · rintro ⟨rest, rfl, hrest⟩
    rw [List.append_cons] at hrest
    refine ⟨rest, ?_, List.append_cons spelling name rest, hrest⟩
    rintro rfl
    rw [List.append_nil] at hrest
    exact htree.not_fileAt_append hrest hnext hfile
  · rintro ⟨rest, -, rfl, hrest⟩
    rw [← List.append_cons] at hrest
    exact ⟨rest, (List.append_cons spelling name rest).symm, hrest⟩

theorem Holds.exists_child_foundBelow {spelling : List String}
    (h : d.Holds (FileAt paths) (FolderAt paths)) :
    (∃ child ∈ d.children place, FoundBelow paths spelling place child.1 names) ↔
      ∃ rest, rest ≠ [] ∧ names = spelling ++ rest ∧ FileAt paths (place ++ rest) := by
  constructor
  · rintro ⟨⟨name, entry⟩, -, rest, rfl, hfile⟩
    exact ⟨name :: rest, List.cons_ne_nil name rest, rfl, hfile⟩
  · rintro ⟨rest, hrest, rfl, hfile⟩
    cases rest with
    | nil => exact absurd rfl hrest
    | cons name rest =>
      have hchild : ∃ entry, (name, entry) ∈ d.children place := by
        rw [List.append_cons] at hfile
        rcases hfile.there (by simp) with hthere | hthere
        · exact ⟨.file, h.mem_children.mpr ((h.entries _ _).mpr (.inl ⟨rfl, hthere⟩))⟩
        · exact ⟨.directory, h.mem_children.mpr ((h.entries _ _).mpr (.inr ⟨rfl, hthere⟩))⟩
      obtain ⟨entry, hentry⟩ := hchild
      exact ⟨(name, entry), hentry, rest, rfl, hfile⟩

/-- **A walk finds the files below a directory**, if it has room for the names that lead to
them. -/
theorem Holds.walkFrom_ofFiles (h : d.Holds (FileAt paths) (FolderAt paths))
    (htree : IsTree paths) (room links : Nat) (spelling : List String) (o : Open)
    (outer : List Open)
    (hroom : ∀ rest, rest ≠ [] → FileAt paths (o.folder ++ rest) →
      (Text.join '/' rest).utf8ByteSize < room) :
    ∃ found, d.walkFrom room links spelling o outer = .ok found ∧ ∀ names, names ∈ found ↔
      ∃ rest, rest ≠ [] ∧ names = spelling ++ rest ∧ FileAt paths (o.folder ++ rest) := by
  induction room using Nat.strongRecOn generalizing spelling o outer with
  | ind room ih =>
    simp only [← h.exists_child_foundBelow]
    rw [Disk.walkFrom]
    apply exists_flatten_mapM
    rintro ⟨name, entry⟩ hchild
    rcases (h.entries _ _).mp (h.mem_children.mp hchild) with ⟨rfl, hfile⟩ | ⟨rfl, hfolder⟩
    · refine ⟨[spelling ++ [name]], if_pos rfl, fun names => ?_⟩
      rw [List.mem_singleton, foundBelow_file htree hfile]
    · -- the name of the directory takes of the room for what lies below it
      have hleft : ∀ rest, rest ≠ [] → FileAt paths (o.folder ++ [name] ++ rest) →
          name.utf8ByteSize < room ∧
            (Text.join '/' rest).utf8ByteSize < room - (name.utf8ByteSize + 1) := by
        intro rest hne hrest
        rw [← List.append_cons] at hrest
        have hwhole := hroom (name :: rest) (List.cons_ne_nil name rest) hrest
        have hbytes := utf8ByteSize_join (List.cons_ne_nil name rest)
        rw [bytesOf_cons, ← utf8ByteSize_join hne] at hbytes
        omega
      have hfits : name.utf8ByteSize < room := by
        obtain ⟨-, next, hnext, hfile⟩ := hfolder
        exact (hleft next hnext hfile).1
      obtain ⟨found, hfound, hmem⟩ := ih (room - (name.utf8ByteSize + 1)) (by omega)
        (spelling ++ [name]) ⟨o.folder ++ [name], extend o.shown name⟩ (o :: outer)
        fun rest hne hrest => (hleft rest hne hrest).2
      refine ⟨found, ?_, fun names => (hmem names).trans (foundBelow_folder htree hfolder).symm⟩
      show (if Entry.directory = Entry.file then _ else _) = _
      rw [if_neg (by decide), dif_pos hfits]
      exact hfound

end TargetGen.Disk
