import Mathlib.Data.List.TakeWhile
import TargetGen.Proofs.SourceTree
import TargetGen.Proofs.SourceTree.Tree

/-!
# Agreement — a disk of files and their listing

One source tree filters a sorted set of paths, the other goes down a disk from where
the pattern has its first wildcard. Whatever a pattern matches begins as the pattern
does, so it lies below that directory (`Mount.below_literalStart`) and a walk from
there finds it. If there is no such directory, no file matches. What is there is the
same on both sides as well: files, the directories above them and the top.
-/

namespace TargetGen

open Disk (Plain bytesOf FileAt FolderAt IsTree NamesFit)

variable {pattern path title : String} {names rest excludes paths : List String}
  {titleBytes : Nat}

/-! ## Where a pattern begins -/

theorem Path.plain_of_split {start : List String} (h : clean pattern = pattern)
    (hsplit : Text.split '/' pattern = start ++ rest) (hrest : rest ≠ []) : Plain start := by
  by_cases htop : pattern = top
  · -- the top is one component, and nothing stands before it
    have hlength := congrArg List.length hsplit
    have hone : (Text.split '/' top).length = 1 := by decide
    rw [htop, hone, List.length_append] at hlength
    have hpos := List.length_pos_iff.mpr hrest
    have hnil : start = [] := List.length_eq_zero_iff.mp (by omega)
    rw [hnil]
    exact List.forall_mem_nil _
  · have hsteps := Mount.plain_steps h
    rw [Mount.steps_of_ne_top h htop, hsplit] at hsteps
    exact (Disk.plain_append_iff.mp hsteps).1

/-- A pattern is cut in two: steps without a wildcard, below which the walk starts, and at
least one more component. -/
theorem Path.literalStart_split (h : clean pattern = pattern) :
    ∃ start rest, Plain start ∧ (∀ name ∈ start, isGlob name = false) ∧ rest ≠ [] ∧
      literalStart pattern = Text.join '/' start ∧ Text.split '/' pattern = start ++ rest := by
  have hne : Text.split '/' pattern ≠ [] := by
    simpa [Text.split] using Text.fields_ne_nil '/' pattern.toList
  unfold literalStart
  dsimp only
  split
  next hall =>
    -- no component holds a wildcard, and the last one is left off
    have hsame := (List.takeWhile_prefix _).eq_of_length hall
    have hsplit : Text.split '/' pattern =
        (Text.split '/' pattern).dropLast ++ [(Text.split '/' pattern).getLast hne] :=
      (List.dropLast_append_getLast hne).symm
    refine ⟨_, _, plain_of_split h hsplit (List.cons_ne_nil _ []), ?_, List.cons_ne_nil _ [], ?_,
      hsplit⟩
    · intro name hname
      have hmem := (List.dropLast_sublist _).subset hname
      rw [← hsame] at hmem
      simpa using List.mem_takeWhile_imp hmem
    · rw [hsame]
  next hsome =>
    have hsplit := (List.takeWhile_append_dropWhile
      (p := fun part => !isGlob part) (l := Text.split '/' pattern)).symm
    have hrest : (Text.split '/' pattern).dropWhile (fun part => !isGlob part) ≠ [] := by
      intro hnil
      rw [hnil, List.append_nil] at hsplit
      exact hsome (congrArg List.length hsplit.symm)
    refine ⟨_, _, plain_of_split h hsplit hrest, ?_, hrest, rfl, hsplit⟩
    intro name hname
    simpa using List.mem_takeWhile_imp hname

theorem Mount.steps_literalStart (h : Path.clean pattern = pattern) :
    Plain (steps (Path.literalStart pattern)) ∧
      (∀ name ∈ steps (Path.literalStart pattern), Path.isGlob name = false) ∧
      ∃ rest, rest ≠ [] ∧ Text.split '/' pattern = steps (Path.literalStart pattern) ++ rest := by
  obtain ⟨start, rest, hplain, hliteral, hrest, hstart, hsplit⟩ := Path.literalStart_split h
  rw [hstart, steps_join hplain]
  exact ⟨hplain, hliteral, rest, hrest, hsplit⟩

/-- **Whatever a pattern matches lies below the directory where its walk starts.** -/
theorem Mount.below_literalStart {g : Glob} (hpattern : Path.clean pattern = pattern)
    (hpath : Path.clean path = path) (hne : path ≠ Path.top) (hg : Glob.compile pattern = .ok g)
    (hmatch : g.isMatch path = true) :
    ∃ rest, rest ≠ [] ∧ steps path = steps (Path.literalStart pattern) ++ rest := by
  obtain ⟨hplain, hliteral, rest, hrest, hsplit⟩ := steps_literalStart hpattern
  generalize steps (Path.literalStart pattern) = start at hplain hliteral hsplit ⊢
  by_cases hnil : start = []
  · subst hnil
    exact ⟨steps path, mt (steps_eq_nil_iff hpath).mp hne, rfl⟩
  · have hfields : Text.fields '/' pattern.toList =
        start.map String.toList ++ rest.map String.toList := by
      have hback := congrArg (List.map String.toList) hsplit
      rw [Text.split, List.map_map, String.toList_comp_ofList, List.map_id, List.map_append] at hback
      exact hback
    have hcs : pattern.toList = (Text.joined '/' (start.map String.toList) ++ ['/']) ++
        Text.joined '/' (rest.map String.toList) := by
      rw [← Text.joined_fields '/' pattern.toList, hfields,
        Text.joined_append '/' (by simpa using hnil) (by simpa using hrest), List.append_assoc]
      rfl
    have hplainChars : ∀ c ∈ Text.joined '/' (start.map String.toList) ++ ['/'],
        Path.isWildcard c = false := by
      intro c hc
      rcases List.mem_append.mp hc with hc | hc
      · rcases Text.mem_joined hc with rfl | ⟨piece, hpiece, hcpiece⟩
        · decide
        · obtain ⟨name, hname, rfl⟩ := List.mem_map.mp hpiece
          have hnone := hliteral name hname
          rw [Path.isGlob, List.any_eq_false] at hnone
          simpa using hnone c hcpiece
      · rw [List.mem_singleton.mp hc]
        decide
    obtain ⟨later, hlater⟩ := Glob.isMatch_literal_append hplainChars hcs hg hmatch
    refine ⟨(Text.fields '/' later).map String.ofList, ?_, ?_⟩
    · simpa using Text.fields_ne_nil '/' later
    · rw [List.append_assoc, List.singleton_append] at hlater
      rw [steps_of_ne_top hpath hne, Text.split, hlater, Text.fields_append,
        Text.fields_joined (by simpa using hnil) hplain.map_toList.no_slash, List.map_append,
        List.map_map, String.ofList_comp_toList, List.map_id]

theorem Mount.below_of_keeps {filter : Glob.Filter} (hpattern : Path.clean pattern = pattern)
    (hfilter : Glob.Filter.compile pattern excludes = .ok filter) (hpath : Path.clean path = path)
    (hne : path ≠ Path.top) (hkeeps : filter.keeps path = true) :
    ∃ rest, rest ≠ [] ∧ steps path = steps (Path.literalStart pattern) ++ rest := by
  obtain ⟨g, hg, hrest⟩ := bind_eq_ok hfilter
  obtain ⟨gs, -, heq⟩ := bind_eq_ok hrest
  obtain rfl := Except.ok.inj heq
  exact below_literalStart hpattern hpath hne hg ((Bool.and_eq_true _ _).mp hkeeps).1

/-! ## The listing of a tree -/

namespace Listing

theorem mem_files_ofFiles {file : String} :
    file ∈ (ofFiles paths).files.names ↔ ∃ path ∈ paths, Path.clean path = file := by
  induction paths using List.reverseRecOn with
  | nil => simp [ofFiles, empty, NameSet.empty]
  | append_singleton init path ih =>
    rw [ofFiles, List.foldl_append]
    show file ∈ Ordered.insert compareNames (Path.clean path) (ofFiles init).files.names ↔ _
    rw [Ordered.mem_insert_iff, ih]
    constructor
    · rintro (rfl | ⟨other, hother, rfl⟩)
      · exact ⟨path, List.mem_append_right init List.mem_cons_self, rfl⟩
      · exact ⟨other, List.mem_append_left [path] hother, rfl⟩
    · rintro ⟨other, hother, rfl⟩
      rcases List.mem_append.mp hother with hother | hother
      · exact .inr ⟨other, hother, rfl⟩
      · exact .inl (congrArg Path.clean (List.mem_singleton.mp hother))

theorem links_ofFiles (paths : List String) : (ofFiles paths).links = NameSet.empty := by
  induction paths using List.reverseRecOn with
  | nil => rfl
  | append_singleton init path ih =>
    rw [ofFiles, List.foldl_append]
    exact ih

theorem mem_files_of_isTree (h : IsTree paths) {file : String} :
    file ∈ (ofFiles paths).files.names ↔ file ∈ paths := by
  rw [mem_files_ofFiles]
  constructor
  · rintro ⟨path, hpath, rfl⟩
    rw [h.clean path hpath]
    exact hpath
  · intro hfile
    exact ⟨file, hfile, h.clean file hfile⟩

theorem contains_iff (h : IsTree paths) (hpath : Path.clean path = path) :
    (ofFiles paths).contains path = true ↔
      path = Path.top ∨ FileAt paths (Mount.steps path) ∨ FolderAt paths (Mount.steps path) := by
  have hfile : (ofFiles paths).files.contains path = true ↔ FileAt paths (Mount.steps path) := by
    rw [NameSet.contains, List.contains_iff_mem, mem_files_of_isTree h]
    constructor
    · intro hmem
      exact ⟨path, hmem, rfl⟩
    · rintro ⟨other, hother, heq⟩
      rw [← (Mount.steps_inj (h.clean other hother) hpath).mp heq]
      exact hother
  have hfolder (hne : path ≠ Path.top) :
      Text.anyStartsWith (path ++ "/") (ofFiles paths).files.names = true ↔
        FolderAt paths (Mount.steps path) := by
    have hwithin : ∀ file, Path.isWithin path file = Text.startsWith (path ++ "/") file := by
      intro file
      rw [Path.isWithin, Bool.eq_false_iff.mpr (mt (Mount.isTop_iff hpath).mp hne), Bool.false_or]
    have hsteps : Mount.steps path ≠ [] := mt (Mount.steps_eq_nil_iff hpath).mp hne
    show ((ofFiles paths).files.names.any fun file => Text.startsWith (path ++ "/") file) = true ↔ _
    rw [List.any_eq_true]
    constructor
    · rintro ⟨file, hmem, hstarts⟩
      have hmem := (mem_files_of_isTree h).mp hmem
      rw [← hwithin, Mount.isWithin_iff_steps hpath (h.clean file hmem) (h.below_top file hmem)]
        at hstarts
      obtain ⟨rest, hrest, hsplit⟩ := hstarts
      exact ⟨hsteps, rest, hrest, file, hmem, hsplit⟩
    · rintro ⟨-, rest, hrest, file, hmem, hsplit⟩
      refine ⟨file, (mem_files_of_isTree h).mpr hmem, ?_⟩
      rw [← hwithin, Mount.isWithin_iff_steps hpath (h.clean file hmem) (h.below_top file hmem)]
      exact ⟨rest, hrest, hsplit⟩
  have hlinks : (ofFiles paths).links.contains path = false := by
    rw [links_ofFiles]
    rfl
  rw [contains, hpath]
  show ((ofFiles paths).files.contains path || (decide (path = Path.top) ||
    Text.anyStartsWith (path ++ "/") (ofFiles paths).files.names ||
    (ofFiles paths).links.contains path)) = true ↔ _
  rw [hlinks, Bool.or_false, Bool.or_eq_true, Bool.or_eq_true, decide_eq_true_eq, hfile]
  by_cases htop : path = Path.top
  · simp [htop]
  · rw [hfolder htop]
    simp [htop]

/-- Where all files that a filter keeps lie below one directory, it is enough to look there. -/
theorem filter_files {found : List String} {keeps : String → Bool} (h : IsTree paths)
    (hkept : ∀ path ∈ paths, keeps path = true →
      ∃ rest, rest ≠ [] ∧ Mount.steps path = names ++ rest)
    (hfound : ∀ path, path ∈ found ↔
      path ∈ paths ∧ ∃ rest, rest ≠ [] ∧ Mount.steps path = names ++ rest) :
    Ordered.ofList compareNames (found.filter keeps) =
      (ofFiles paths).files.names.filter keeps := by
  refine (Ordered.increasing_ofList _).eq_of_mem_iff
    ((ofFiles paths).files.increasing.filter _) fun path => ?_
  rw [Ordered.mem_ofList_iff, List.mem_filter, List.mem_filter, hfound, mem_files_of_isTree h]
  constructor
  · rintro ⟨⟨hpath, -⟩, hkeeps⟩
    exact ⟨hpath, hkeeps⟩
  · rintro ⟨hpath, hkeeps⟩
    exact ⟨⟨hpath, hkept path hpath hkeeps⟩, hkeeps⟩

end Listing

/-! ## The disk of a tree -/

/-- The disk can take all names of a tree, and a path to each of its files. -/
structure Disk.Takes (titleBytes : Nat) (paths : List String) : Prop where
  names : NamesFit paths
  top : titleBytes < pathLimit
  whole : ∀ path ∈ paths, titleBytes + 1 + path.utf8ByteSize < pathLimit

/-- The directory at the top of a disk of files. -/
def Mount.ofFiles (title : String) (titleBytes : Nat) (paths : List String) : Mount :=
  ⟨Disk.ofFiles title titleBytes paths [], .inside []⟩

namespace Mount

open Disk (Takes)

theorem ofPath_top (d : Disk) : ofPath d "" = .ok ⟨d, .inside []⟩ := by
  have hsplit : Text.split '/' "" = [""] := by decide
  have hzero : ¬ "".toList.contains '\x00' = true := by decide
  have hfollow : d.follow (.inside []) [""] = .ok (.inside [], Disk.linkLimit) := by
    have hdirectory : d.entry? (.inside []) = some .directory := rfl
    rw [Disk.follow, Disk.followFrom, if_neg (not_not.mpr hdirectory), if_pos (.inl rfl),
      Disk.followFrom]
  rw [ofPath, if_neg hzero, hsplit, hfollow]

theorem shown_ofFiles (title : String) (titleBytes : Nat) (paths : List String) :
    (ofFiles title titleBytes paths).shown = (ofFiles title titleBytes paths).disk.title := by
  show Disk.below _ [] = _
  simp [Disk.below]

theorem follow_eq {last : Bool} (hplain : Plain names)
    (hbytes : titleBytes + bytesOf names < Disk.pathLimit) :
    (ofFiles title titleBytes paths).follow last names =
      (ofFiles title titleBytes paths).disk.followFrom last Disk.linkLimit (.inside []) names := by
  have htop := Disk.sameTop_ofFiles title titleBytes paths
  rw [follow, shown_ofFiles, Disk.bytes_below _ hplain]
  show (if (Disk.ofFiles title titleBytes paths []).titleBytes + _ < _ then _ else _) = _
  rw [htop.bytes, if_pos hbytes]
  rfl

section

variable (htree : IsTree paths) (htakes : Takes titleBytes paths)
include htree htakes

theorem holds_disk : (ofFiles title titleBytes paths).disk.Holds (FileAt paths) (FolderAt paths) :=
  Disk.holds_ofFiles htree htakes.names

theorem follow_of_fileAt {last : Bool} (hfile : FileAt paths (names ++ rest)) :
    (ofFiles title titleBytes paths).follow last names = .ok (.inside names, Disk.linkLimit) := by
  have hplain : Plain names := fun name hname =>
    (hfile.fits htree htakes.names name (List.mem_append_left rest hname)).plain
  have hbytes : titleBytes + bytesOf names < Disk.pathLimit := by
    obtain ⟨path, hpath, hsteps⟩ := hfile
    have hwhole := htakes.whole path hpath
    have hsize := utf8ByteSize_eq (htree.clean path hpath) (htree.below_top path hpath)
    rw [hsteps, Disk.bytesOf_append] at hsize
    omega
  rw [follow_eq hplain hbytes]
  exact (holds_disk htree htakes).followFrom_of_fileAt htree htakes.names hfile

theorem of_follow {last : Bool} {found : Disk.Location} {links : Nat} (hplain : Plain names)
    (hok : (ofFiles title titleBytes paths).follow last names = .ok (found, links)) :
    found = .inside names ∧ (names = [] ∨ FileAt paths names ∨ FolderAt paths names) := by
  unfold follow at hok
  split at hok
  next =>
    obtain ⟨rfl, -, hthere⟩ := (holds_disk htree htakes).of_followFrom hplain hok
    exact ⟨rfl, hthere⟩
  next => cases hok

theorem contains_iff (hpath : Path.clean path = path) :
    (ofFiles title titleBytes paths).contains path = true ↔
      path = Path.top ∨ FileAt paths (steps path) ∨ FolderAt paths (steps path) := by
  rw [contains, ← steps_eq_nil_iff hpath]
  constructor
  · intro hok
    cases hfollow : (ofFiles title titleBytes paths).follow true (steps path) with
    | error e =>
      rw [hfollow] at hok
      cases hok
    | ok found => exact (of_follow htree htakes (plain_steps hpath) hfollow).2
  · rintro (hnil | hfile | ⟨-, rest, -, hfile⟩)
    · rw [hnil, follow_eq (List.forall_mem_nil _) htakes.top, Disk.followFrom]
      rfl
    · rw [← List.append_nil (steps path)] at hfile
      rw [follow_of_fileAt htree htakes hfile]
      rfl
    · rw [follow_of_fileAt htree htakes hfile]
      rfl

theorem isLink_eq_false (hpath : Path.clean path = path) :
    (ofFiles title titleBytes paths).isLink path = false := by
  unfold isLink
  split
  next found links hok =>
    obtain ⟨rfl, -⟩ := of_follow htree htakes (plain_steps hpath) hok
    split
    next target hlink => exact absurd hlink ((holds_disk htree htakes).entry?_ne_link target)
    next => rfl
  next => rfl

/-- **A walk from a directory finds the files below it**, as they are listed. -/
theorem walk_eq (title : String) (links : Nat) (hplain : Plain names) :
    ∃ found, (ofFiles title titleBytes paths).disk.walkFrom
        ((ofFiles title titleBytes paths).disk.room
          (Disk.below (ofFiles title titleBytes paths).shown names)) links names
        ⟨names, Disk.below (ofFiles title titleBytes paths).shown names⟩ [] = .ok found ∧
      ∀ path, path ∈ found.map (Text.join '/') ↔
        path ∈ paths ∧ ∃ rest, rest ≠ [] ∧ steps path = names ++ rest := by
  have htop := Disk.sameTop_ofFiles title titleBytes paths
  have hroom := Disk.le_room_below (ofFiles title titleBytes paths).disk hplain
  rw [shown_ofFiles]
  obtain ⟨found, hfound, hmem⟩ := (holds_disk htree htakes).walkFrom_ofFiles htree
    ((ofFiles title titleBytes paths).disk.room
      (Disk.below (ofFiles title titleBytes paths).disk.title names)) links names
    ⟨names, Disk.below (ofFiles title titleBytes paths).disk.title names⟩ [] <| by
    rintro rest hrest ⟨path, hpath, hsteps : steps path = names ++ rest⟩
    have hwhole := htakes.whole path hpath
    have hsize := utf8ByteSize_eq (htree.clean path hpath) (htree.below_top path hpath)
    have hjoin := Disk.utf8ByteSize_join hrest
    have hbytes : (ofFiles title titleBytes paths).disk.titleBytes = titleBytes := htop.bytes
    rw [hsteps, Disk.bytesOf_append] at hsize
    rw [hbytes] at hroom
    omega
  refine ⟨found, hfound, fun path => ?_⟩
  rw [List.mem_map]
  constructor
  · rintro ⟨place, hplace, rfl⟩
    obtain ⟨rest, hrest, rfl, other, hother, hsteps⟩ := (hmem place).mp hplace
    rw [← hsteps, join_steps (htree.clean other hother) (htree.below_top other hother)]
    exact ⟨hother, rest, hrest, hsteps⟩
  · rintro ⟨hpath, rest, hrest, hsteps⟩
    refine ⟨steps path, (hmem _).mpr ⟨rest, hrest, hsteps, path, hpath, hsteps⟩, ?_⟩
    exact join_steps (htree.clean path hpath) (htree.below_top path hpath)

/-- **A disk of files finds what their listing finds**, and finds the same fault in patterns
that cannot be read. -/
theorem glob_eq (hpattern : Path.clean pattern = pattern) :
    (ofFiles title titleBytes paths).glob pattern excludes =
      (Listing.ofFiles paths).glob pattern excludes := by
  unfold glob Listing.glob
  cases hfilter : Glob.Filter.compile pattern excludes with
  | error e => rfl
  | ok filter =>
    have hkept : ∀ path ∈ paths, filter.keeps path = true →
        ∃ rest, rest ≠ [] ∧ steps path = steps (Path.literalStart pattern) ++ rest := by
      intro path hpath hkeeps
      exact below_of_keeps hpattern hfilter (htree.clean path hpath) (htree.below_top path hpath)
        hkeeps
    have hplain := (steps_literalStart hpattern).1
    generalize steps (Path.literalStart pattern) = start at hkept hplain
    have hnone (hno : ∀ rest, rest ≠ [] → ¬ FileAt paths (start ++ rest)) :
        (Listing.ofFiles paths).files.names.filter filter.keeps = [] := by
      have hnothing : ∀ path, path ∈ ([] : List String) ↔
          path ∈ paths ∧ ∃ rest, rest ≠ [] ∧ steps path = start ++ rest := by
        intro path
        refine iff_of_false List.not_mem_nil ?_
        rintro ⟨hpath, rest, hrest, hsplit⟩
        exact hno rest hrest ⟨path, hpath, hsplit⟩
      exact (Listing.filter_files htree hkept hnothing).symm
    simp only [bind, Except.bind, pure, Except.pure]
    cases hfollow : (ofFiles title titleBytes paths).follow true start with
    | error e =>
      refine congrArg Except.ok (hnone fun rest _ hfile => ?_).symm
      rw [follow_of_fileAt htree htakes hfile] at hfollow
      cases hfollow
    | ok found =>
      obtain ⟨place, links⟩ := found
      obtain ⟨rfl, -⟩ := of_follow htree htakes hplain hfollow
      dsimp only
      by_cases hdirectory : (ofFiles title titleBytes paths).disk.entry? (.inside start) =
          some .directory
      · have hspelling : (start.filter fun name => name ≠ "" && name ≠ ".") = start := by
          refine List.filter_eq_self.mpr fun name hname => ?_
          have hname := hplain name hname
          exact (Bool.and_eq_true _ _).mpr
            ⟨decide_eq_true hname.ne_empty, decide_eq_true hname.ne_here⟩
        obtain ⟨found, hfound, hmem⟩ := walk_eq htree htakes title links hplain
        rw [if_pos hdirectory, hspelling, hfound]
        exact congrArg Except.ok (Listing.filter_files htree hkept hmem)
      · rw [if_neg hdirectory]
        refine congrArg Except.ok (hnone fun rest hrest hfile => hdirectory ?_).symm
        exact (holds_disk htree htakes).entry?_folder (hfile.top_or_folder hrest)

end

end Mount

/-! ## Both trees -/

/-- Two source trees answer alike what is asked of them in normal form: what is there, what
is a link, and which files match, or which pattern is at fault. -/
structure SourceTree.Agree (t t' : SourceTree) : Prop where
  contains : ∀ path, Path.clean path = path → t.contains path = t'.contains path
  isLink : ∀ path, Path.clean path = path → t.isLink path = t'.isLink path
  glob : ∀ pattern excludes, Path.clean pattern = pattern →
    t.glob pattern excludes = t'.glob pattern excludes

/-- **A disk of files and their listing agree**, and no match is lost by starting the walk
where the pattern has its first wildcard. The files are those of a tree that the disk can
take; no directory is empty and there are no links. -/
theorem disk_agrees_with_listing (title : String) (htree : IsTree paths)
    (htakes : Disk.Takes titleBytes paths) :
    ∃ m, Mount.ofPath (Disk.ofFiles title titleBytes paths []) "" = .ok m ∧
      m.sourceTree.Agree (Listing.ofFiles paths).sourceTree ∧
      ∀ pattern path, Path.clean pattern = pattern → path ∈ paths →
        Glob.matchesPath pattern path = true → ∃ rest, rest ≠ [] ∧
          Mount.steps path = Mount.steps (Path.literalStart pattern) ++ rest := by
  refine ⟨Mount.ofFiles title titleBytes paths, Mount.ofPath_top _, ⟨?_, ?_, ?_⟩, ?_⟩
  · intro path hpath
    rw [Bool.eq_iff_iff]
    exact (Mount.contains_iff htree htakes hpath).trans (Listing.contains_iff htree hpath).symm
  · intro path hpath
    show (Mount.ofFiles title titleBytes paths).isLink path =
      (Listing.ofFiles paths).links.contains (Path.clean path)
    rw [Mount.isLink_eq_false htree htakes hpath, Listing.links_ofFiles]
    rfl
  · intro pattern excludes hpattern
    exact Mount.glob_eq htree htakes hpattern
  · intro pattern path hpattern hpath hmatch
    unfold Glob.matchesPath at hmatch
    split at hmatch
    next g hg =>
      exact Mount.below_literalStart hpattern (htree.clean path hpath) (htree.below_top path hpath)
        hg hmatch
    next => cases hmatch

/-- Two sources of a library, one of them in a directory of its own, and a program. -/
def libraryAndProgram : List String := ["lib/a.c", "lib/sub/b.c", "app/main.c"]

theorem disk_finds_library_source :
    IsTree libraryAndProgram ∧ Disk.Takes 15 libraryAndProgram ∧
      Path.clean "lib/**/*.c" = "lib/**/*.c" ∧ Glob.matchesPath "lib/**/*.c" "lib/sub/b.c" = true ∧
      ∃ m, Mount.ofPath (Disk.ofFiles "<ROOT>" 15 libraryAndProgram []) "" = .ok m ∧
        m.glob "lib/**/*.c" ["lib/a.c"] = .ok ["lib/sub/b.c"] ∧
        m.contains "lib/sub" = true ∧ m.isLink "lib" = false := by
  have htree : IsTree libraryAndProgram :=
    ⟨by decide +kernel, by decide +kernel, by decide +kernel⟩
  have htakes : Disk.Takes 15 libraryAndProgram :=
    ⟨by unfold NamesFit; decide +kernel, by decide, by decide +kernel⟩
  obtain ⟨m, hm, hagree, -⟩ := disk_agrees_with_listing "<ROOT>" htree htakes
  refine ⟨htree, htakes, by decide +kernel, by decide +kernel, m, hm, ?_, ?_, ?_⟩
  · exact (hagree.glob "lib/**/*.c" ["lib/a.c"] (by decide +kernel)).trans (by decide +kernel)
  · exact (hagree.contains "lib/sub" (by decide +kernel)).trans (by decide +kernel)
  · exact (hagree.isLink "lib" (by decide +kernel)).trans (by decide +kernel)

end TargetGen
