import Mathlib.Data.List.Basic
import TargetGen.Proofs.SourceTree.Steps

/-!
# Disks of files — what stands where

Where no links are, all that a disk holds is files and directories
(`Disk.Holds`). Following plain steps leads to the place that they spell, if anything
is there. So adding a file goes down its steps, makes the directories that are missing,
and puts the file below the last of them: afterwards the disk holds one file more and
a directory at each place above it (`Disk.Holds.addFile`).
-/

namespace TargetGen.Disk

variable {d : Disk} {files folders files' folders' : List String → Prop}
  {here place names rest : List String} {name : String} {entry : Entry} {last : Bool}
  {links : Nat}

/-! ## Contents -/

/-- Files stand at some places and directories at others, and nothing else is on a disk. -/
structure Holds (d : Disk) (files folders : List String → Prop) : Prop where
  entries : ∀ place entry, (place, entry) ∈ d.entries ↔
    entry = .file ∧ files place ∨ entry = .directory ∧ folders place
  apart : ∀ place, files place → ¬ folders place

namespace Holds

theorem congr (h : d.Holds files folders) (hfiles : ∀ place, files' place ↔ files place)
    (hfolders : ∀ place, folders' place ↔ folders place) : d.Holds files' folders' where
  entries place entry := by rw [hfiles, hfolders, h.entries]
  apart place := by
    rw [hfiles, hfolders]
    exact h.apart place

theorem unique (h : d.Holds files folders) {entry entry' : Entry}
    (hentry : (place, entry) ∈ d.entries) (hentry' : (place, entry') ∈ d.entries) :
    entry = entry' := by
  rcases (h.entries place entry).mp hentry with ⟨rfl, hfile⟩ | ⟨rfl, hfolder⟩
  · rcases (h.entries place entry').mp hentry' with ⟨rfl, -⟩ | ⟨-, hfolder⟩
    · rfl
    · exact absurd hfolder (h.apart place hfile)
  · rcases (h.entries place entry').mp hentry' with ⟨-, hfile⟩ | ⟨rfl, -⟩
    · exact absurd hfolder (h.apart place hfile)
    · rfl

theorem entry?_eq_some_iff (h : d.Holds files folders) (hne : place ≠ []) :
    d.entry? (.inside place) = some entry ↔
      entry = .file ∧ files place ∨ entry = .directory ∧ folders place := by
  have hlookup : d.entry? (.inside place) = d.entries.lookup place := by
    cases place with
    | nil => exact absurd rfl hne
    | cons name rest => rfl
  have hmem : ∀ {entry}, d.entries.lookup place = some entry → (place, entry) ∈ d.entries := by
    intro entry hfound
    obtain ⟨before, after, hsplit, -⟩ := List.lookup_eq_some_iff.mp hfound
    rw [hsplit]
    exact List.mem_append_right before List.mem_cons_self
  rw [hlookup, ← h.entries]
  refine ⟨hmem, fun hentry => ?_⟩
  cases hfound : d.entries.lookup place with
  | none =>
    have hno := List.lookup_eq_none_iff.mp hfound _ hentry
    exact absurd hno (by simp)
  | some entry' => rw [h.unique (hmem hfound) hentry]

theorem entry?_eq_none_iff (h : d.Holds files folders) (hne : place ≠ []) :
    d.entry? (.inside place) = none ↔ ¬ files place ∧ ¬ folders place := by
  rw [Option.eq_none_iff_forall_ne_some]
  simp only [ne_eq, h.entry?_eq_some_iff hne]
  constructor
  · intro hno
    exact ⟨fun hfile => hno .file (.inl ⟨rfl, hfile⟩),
      fun hfolder => hno .directory (.inr ⟨rfl, hfolder⟩)⟩
  · rintro ⟨hfile, hfolder⟩ entry (⟨-, h⟩ | ⟨-, h⟩)
    · exact hfile h
    · exact hfolder h

theorem entry?_folder (h : d.Holds files folders) (hplace : place = [] ∨ folders place) :
    d.entry? (.inside place) = some .directory := by
  by_cases hnil : place = []
  · subst hnil
    rfl
  · exact (h.entry?_eq_some_iff hnil).mpr (.inr ⟨rfl, hplace.resolve_left hnil⟩)

theorem entry?_ne_link (h : d.Holds files folders) (target : List String) :
    d.entry? (.inside place) ≠ some (.link target) := by
  intro hlink
  by_cases hnil : place = []
  · subst hnil
    cases hlink
  · rcases (h.entry?_eq_some_iff hnil).mp hlink with ⟨hfile, -⟩ | ⟨hfolder, -⟩
    · cases hfile
    · cases hfolder

/-! ## Putting -/

theorem put_folder (h : d.Holds files folders) (hne : place ≠ []) (hfile : ¬ files place) :
    (d.put (.inside place) .directory).Holds files fun other => folders other ∨ other = place := by
  unfold put
  dsimp only
  cases hentry : d.entry? (.inside place) with
  | some entry =>
    -- a directory is there already
    rcases (h.entry?_eq_some_iff hne).mp hentry with ⟨-, hthere⟩ | ⟨-, hthere⟩
    · exact absurd hthere hfile
    · rw [Option.isSome_some, if_pos rfl]
      refine h.congr (fun _ => Iff.rfl) fun other => ⟨?_, .inl⟩
      rintro (hother | rfl)
      · exact hother
      · exact hthere
  | none =>
    rw [Option.isSome_none, if_neg Bool.false_ne_true]
    refine ⟨fun other entry => ?_, ?_⟩
    · simp only [List.mem_append, List.mem_singleton, Prod.mk.injEq, h.entries, and_or_left,
        or_assoc, and_comm]
    · rintro other hother (hfolder | rfl)
      · exact h.apart other hother hfolder
      · exact hfile hother

theorem put_file (h : d.Holds files folders) (hne : place ≠ []) (hfolder : ¬ folders place) :
    (d.put (.inside place) .file).Holds (fun other => files other ∨ other = place) folders := by
  unfold put
  dsimp only
  cases hentry : d.entry? (.inside place) with
  | some entry =>
    rcases (h.entry?_eq_some_iff hne).mp hentry with ⟨-, hthere⟩ | ⟨-, hthere⟩
    · rw [Option.isSome_some, if_pos rfl]
      refine h.congr (fun other => ⟨?_, .inl⟩) fun _ => Iff.rfl
      rintro (hother | rfl)
      · exact hother
      · exact hthere
    · exact absurd hthere hfolder
  | none =>
    rw [Option.isSome_none, if_neg Bool.false_ne_true]
    refine ⟨fun other entry => ?_, ?_⟩
    · simp only [List.mem_append, List.mem_singleton, Prod.mk.injEq, h.entries, and_or_left]
      tauto
    · rintro other (hother | rfl)
      · exact h.apart other hother
      · exact hfolder

end Holds

/-! ## Following -/

/-- A step that stays within what may be on a disk. -/
structure Fits (name : String) : Prop where
  plain : Path.IsName name.toList
  short : name.utf8ByteSize ≤ nameLimit

theorem followFrom_cons (hhere : d.entry? (.inside here) = some .directory) (hname : Fits name) :
    d.followFrom last links (.inside here) (name :: rest) =
      match d.entry? (.inside (here ++ [name])) with
      | none => .error .noEntry
      | some (.link target) =>
        if rest = [] ∧ last = false then .ok (.inside (here ++ [name]), links)
        else
          match links with
          | 0 => .error .tooManyLinks
          | n + 1 => d.followFrom last n (.inside []) (target ++ rest)
      | some _ => d.followFrom last links (.inside (here ++ [name])) rest := by
  have hstay : ¬(name = "" ∨ name = ".") := not_or.mpr ⟨hname.plain.ne_empty, hname.plain.ne_here⟩
  rw [followFrom, if_neg (not_not.mpr hhere), if_neg hstay, if_neg hname.plain.ne_up,
    if_neg (Nat.not_lt.mpr hname.short)]
  rfl

theorem followFrom_cons_of_long (hhere : d.entry? (.inside here) = some .directory)
    (hname : Path.IsName name.toList) (hlong : nameLimit < name.utf8ByteSize) :
    d.followFrom last links (.inside here) (name :: rest) = .error .nameTooLong := by
  have hstay : ¬(name = "" ∨ name = ".") := not_or.mpr ⟨hname.ne_empty, hname.ne_here⟩
  rw [followFrom, if_neg (not_not.mpr hhere), if_neg hstay, if_neg hname.ne_up, if_pos hlong]

namespace Holds

theorem followFrom_there (h : d.Holds files folders) (hhere : here = [] ∨ folders here)
    (hname : Fits name) (hthere : files (here ++ [name]) ∨ folders (here ++ [name])) :
    d.followFrom last links (.inside here) (name :: rest) =
      d.followFrom last links (.inside (here ++ [name])) rest := by
  have hne : here ++ [name] ≠ [] := by simp
  rw [followFrom_cons (h.entry?_folder hhere) hname]
  rcases hthere with hfile | hfolder
  · rw [(h.entry?_eq_some_iff hne).mpr (.inl ⟨rfl, hfile⟩)]
  · rw [(h.entry?_eq_some_iff hne).mpr (.inr ⟨rfl, hfolder⟩)]

theorem followFrom_missing (h : d.Holds files folders) (hhere : here = [] ∨ folders here)
    (hname : Fits name) (hfile : ¬ files (here ++ [name])) (hfolder : ¬ folders (here ++ [name])) :
    d.followFrom last links (.inside here) (name :: rest) = .error .noEntry := by
  have hne : here ++ [name] ≠ [] := by simp
  rw [followFrom_cons (h.entry?_folder hhere) hname, (h.entry?_eq_none_iff hne).mpr ⟨hfile, hfolder⟩]

theorem of_followFrom {found : Location} {left : Nat} (h : d.Holds files folders)
    (hplain : Plain names)
    (hok : d.followFrom last links (.inside here) names = .ok (found, left)) :
    found = .inside (here ++ names) ∧ left = links ∧
      (names = [] ∨ files (here ++ names) ∨ folders (here ++ names)) := by
  induction names generalizing here with
  | nil =>
    rw [followFrom] at hok
    obtain ⟨rfl, rfl⟩ := Prod.mk.inj (Except.ok.inj hok)
    exact ⟨by rw [List.append_nil], rfl, .inl rfl⟩
  | cons name rest ih =>
    obtain ⟨hname, hrest⟩ := plain_cons_iff.mp hplain
    have hne : here ++ [name] ≠ [] := by simp
    by_cases hhere : d.entry? (.inside here) = some .directory
    · by_cases hshort : name.utf8ByteSize ≤ nameLimit
      · rw [followFrom_cons hhere ⟨hname, hshort⟩] at hok
        cases hentry : d.entry? (.inside (here ++ [name])) with
        | none =>
          rw [hentry] at hok
          cases hok
        | some entry =>
          have hthere := (h.entry?_eq_some_iff hne).mp hentry
          have hon : d.followFrom last links (.inside (here ++ [name])) rest = .ok (found, left) := by
            rcases hthere with ⟨rfl, -⟩ | ⟨rfl, -⟩
            · rw [hentry] at hok
              exact hok
            · rw [hentry] at hok
              exact hok
          obtain ⟨rfl, rfl, hend⟩ := ih hrest hon
          rw [List.append_assoc, List.singleton_append] at hend ⊢
          refine ⟨rfl, rfl, .inr ?_⟩
          rcases hend with rfl | hend
          · exact hthere.imp And.right And.right
          · exact hend
      · rw [followFrom_cons_of_long hhere hname (Nat.lt_of_not_le hshort)] at hok
        cases hok
    · rw [followFrom, if_pos hhere] at hok
      cases hok

end Holds

/-! ## Adding a file -/

namespace Holds

theorem enter (h : d.Holds files folders) (hhere : here = [] ∨ folders here) (hname : Fits name)
    (hfile : ¬ files (here ++ [name])) :
    (d.enter (.inside here) name).2 = .inside (here ++ [name]) ∧
      (d.enter (.inside here) name).1.Holds files
        fun place => folders place ∨ place = here ++ [name] := by
  unfold Disk.enter follow
  by_cases hfolder : folders (here ++ [name])
  · rw [h.followFrom_there hhere hname (.inr hfolder), followFrom]
    refine ⟨rfl, h.congr (fun _ => Iff.rfl) fun place => ⟨?_, .inl⟩⟩
    rintro (hplace | rfl)
    · exact hplace
    · exact hfolder
  · rw [h.followFrom_missing hhere hname hfile hfolder]
    exact ⟨rfl, h.put_folder (by simp) hfile⟩

theorem enterAll (h : d.Holds files folders) (hhere : here = [] ∨ folders here)
    (hfits : ∀ name ∈ names, Fits name)
    (hfree : ∀ a, a ≠ [] → a <+: names → ¬ files (here ++ a)) :
    (d.enterAll (.inside here) names).2 = .inside (here ++ names) ∧
      (d.enterAll (.inside here) names).1.Holds files fun place =>
        folders place ∨ ∃ a, a ≠ [] ∧ a <+: names ∧ place = here ++ a := by
  induction names generalizing d here folders with
  | nil =>
    refine ⟨by rw [List.append_nil]; rfl, h.congr (fun _ => Iff.rfl) fun place => ⟨?_, .inl⟩⟩
    rintro (hplace | ⟨a, hne, ha, -⟩)
    · exact hplace
    · exact absurd (List.prefix_nil.mp ha) hne
  | cons name rest ih =>
    have hfirst : [name] <+: name :: rest := ⟨rest, rfl⟩
    obtain ⟨hplace, hholds⟩ := h.enter hhere (hfits name List.mem_cons_self)
      (hfree [name] (List.cons_ne_nil name []) hfirst)
    have hfree' : ∀ a, a ≠ [] → a <+: rest → ¬ files (here ++ [name] ++ a) := by
      intro a _ ha
      rw [List.append_assoc]
      exact hfree (name :: a) (List.cons_ne_nil name a) ((List.prefix_cons_inj name).mpr ha)
    obtain ⟨hend, hall⟩ := ih hholds (.inr (.inr rfl))
      (fun other ho => hfits other (List.mem_cons_of_mem name ho)) hfree'
    show ((d.enter (.inside here) name).1.enterAll (d.enter (.inside here) name).2 rest).2 = _ ∧
      ((d.enter (.inside here) name).1.enterAll (d.enter (.inside here) name).2 rest).1.Holds _ _
    rw [hplace, hend]
    refine ⟨by rw [List.append_assoc]; rfl, hall.congr (fun _ => Iff.rfl) fun place => ?_⟩
    constructor
    · rintro (hthere | ⟨a, hne, ha, rfl⟩)
      · exact .inl (.inl hthere)
      · rcases List.prefix_cons_iff.mp ha with rfl | ⟨later, rfl, hlater⟩
        · exact absurd rfl hne
        · by_cases hnil : later = []
          · subst hnil
            exact .inl (.inr rfl)
          · exact .inr ⟨later, hnil, hlater, by rw [List.append_assoc]; rfl⟩
    · rintro ((hthere | rfl) | ⟨a, hne, ha, rfl⟩)
      · exact .inl hthere
      · exact .inr ⟨[name], List.cons_ne_nil name [], hfirst, rfl⟩
      · exact .inr ⟨name :: a, List.cons_ne_nil name a, (List.prefix_cons_inj name).mpr ha,
          by rw [List.append_assoc]; rfl⟩

end Holds

namespace Holds

/-- **A file is put below the directories on its way.** -/
theorem addFile {path : String} (h : d.Holds files folders) (hclean : Path.clean path = path)
    (hbelow : path ≠ Path.top) (hfits : ∀ name ∈ Mount.steps path, Fits name)
    (hfree : ∀ a, a ≠ [] → a <+: (Mount.steps path).dropLast → ¬ files a)
    (hfolder : ¬ folders (Mount.steps path)) :
    (d.addFile path).Holds (fun place => files place ∨ place = Mount.steps path)
      fun place => folders place ∨ place ≠ [] ∧ place <+: (Mount.steps path).dropLast := by
  have hplain := Mount.plain_steps hclean
  have hparts : (Text.split '/' path).filter (· ≠ "") = Mount.steps path := by
    rw [← Mount.steps_of_ne_top hclean hbelow]
    refine List.filter_eq_self.mpr fun name hname => ?_
    exact decide_eq_true (hplain name hname).ne_empty
  rw [Disk.addFile, if_neg (Mount.getLast?_ne_slash hclean hbelow), putAt, hparts]
  rcases List.eq_nil_or_concat' (Mount.steps path) with hnil | ⟨folder, name, hsteps⟩
  · exact absurd ((Mount.steps_eq_nil_iff hclean).mp hnil) hbelow
  · rw [hsteps] at hfits hfree hfolder ⊢
    rw [List.dropLast_concat] at hfree ⊢
    rw [List.getLast?_concat]
    obtain ⟨hplace, hholds⟩ := h.enterAll (.inl rfl)
      (fun other ho => hfits other (List.mem_append_left [name] ho)) hfree
    show (((d.enterAll (.inside []) folder).1).put
      ((d.enterAll (.inside []) folder).2.child name) .file).Holds _ _
    rw [hplace]
    have hmissing : ¬(folders (folder ++ [name]) ∨
        ∃ a, a ≠ [] ∧ a <+: folder ∧ folder ++ [name] = [] ++ a) := by
      rintro (hthere | ⟨a, -, ha, heq⟩)
      · exact hfolder hthere
      · have hlength := ha.length_le
        rw [List.nil_append] at heq
        rw [← heq, List.length_append, List.length_singleton] at hlength
        omega
    refine (hholds.put_file (by simp) hmissing).congr (fun _ => Iff.rfl) fun place => ?_
    refine or_congr_right ⟨?_, ?_⟩
    · rintro ⟨hne, hprefix⟩
      exact ⟨place, hne, hprefix, rfl⟩
    · rintro ⟨a, hne, hprefix, rfl⟩
      exact ⟨hne, hprefix⟩

end Holds

/-- Disks with the same top: it is printed alike and takes as many bytes. -/
structure SameTop (d d' : Disk) : Prop where
  title : d'.title = d.title
  bytes : d'.titleBytes = d.titleBytes

theorem SameTop.trans {d' d'' : Disk} (h : SameTop d d') (h' : SameTop d' d'') :
    SameTop d d'' where
  title := h'.title.trans h.title
  bytes := h'.bytes.trans h.bytes

theorem sameTop_put (d : Disk) (place : Location) (entry : Entry) :
    SameTop d (d.put place entry) := by
  unfold put
  split
  next => exact ⟨rfl, rfl⟩
  next => split <;> exact ⟨rfl, rfl⟩

theorem sameTop_enterAll (d : Disk) (here : Location) (names : List String) :
    SameTop d (d.enterAll here names).1 := by
  induction names generalizing d here with
  | nil => exact ⟨rfl, rfl⟩
  | cons name rest ih =>
    refine SameTop.trans ?_ (ih (d.enter here name).1 (d.enter here name).2)
    unfold enter
    split
    next => exact ⟨rfl, rfl⟩
    next => exact sameTop_put d _ _

theorem sameTop_addFile (d : Disk) (path : String) : SameTop d (d.addFile path) := by
  unfold addFile
  split
  next => exact sameTop_enterAll d _ _
  next =>
    unfold putAt
    dsimp only
    split
    next => exact (sameTop_enterAll d _ _).trans (sameTop_put _ _ _)
    next => exact sameTop_enterAll d _ _

end TargetGen.Disk
