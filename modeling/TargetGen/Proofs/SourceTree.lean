import TargetGen.Proofs.Glob
import TargetGen.Proofs.Path
import TargetGen.Proofs.Result
import TargetGen.SourceTree.Listing

/-!
# Source trees — what may be expected of them

`SourceTree.Regular` says how questions about patterns hang together: excluding
patterns takes away the files that match them, and a pattern asked for by itself
has all files that match it. A listing is regular, since it was made by adding
files and links in normal form.
-/

namespace TargetGen

/-- Patterns are answered by one set of files, in normal form. -/
structure SourceTree.Regular (t : SourceTree) : Prop where
  /-- Only patterns that can be read are answered. -/
  readable : ∀ {pattern found}, t.glob pattern [] = .ok found → ∃ g, Glob.compile pattern = .ok g
  /-- Excluded patterns take away the files that match them. -/
  without : ∀ {pattern excludes found}, t.glob pattern [] = .ok found →
    (∀ q ∈ excludes, ∃ g, Glob.compile q = .ok g) →
    t.glob pattern excludes = .ok (found.filter fun file => !excludes.any (Glob.matchesPath · file))
  /-- A file that some pattern finds is found by every pattern that it matches. -/
  complete : ∀ {pattern found other others file}, t.glob pattern [] = .ok found → file ∈ found →
    t.glob other [] = .ok others → Glob.matchesPath other file = true → file ∈ others
  /-- Files are given by paths in normal form. -/
  clean : ∀ {pattern found file}, t.glob pattern [] = .ok found → file ∈ found →
    Path.clean file = file

namespace Listing

/-- Made by adding files and links, in whatever order. -/
inductive Built : Listing → Prop where
  | empty : Built empty
  | addFile {l : Listing} (path : String) : Built l → Built (l.addFile path)
  | addLink {l : Listing} (path : String) : Built l → Built (l.addLink path)

variable {l : Listing} {file pattern : String} {excludes found : List String}

theorem built_ofFiles (paths : List String) : (ofFiles paths).Built := by
  have grow : ∀ (paths : List String) (l : Listing), l.Built → (paths.foldl addFile l).Built := by
    intro paths
    induction paths with
    | nil => exact fun l hl => hl
    | cons path rest ih => exact fun l hl => ih (l.addFile path) (hl.addFile path)
  exact grow paths empty .empty

theorem Built.clean_file (h : l.Built) (hfile : file ∈ l.files.names) : Path.clean file = file := by
  induction h with
  | empty => cases hfile
  | addFile path _ ih =>
    rcases Ordered.mem_of_mem_insert hfile with rfl | hfile
    · exact Path.clean_clean path
    · exact ih hfile
  | addLink path _ ih => exact ih hfile

theorem compile_filter {g : Glob} (hg : Glob.compile pattern = .ok g)
    (h : ∀ q ∈ excludes, ∃ g, Glob.compile q = .ok g) :
    ∃ filter, Glob.Filter.compile pattern excludes = .ok filter ∧ ∀ file,
      filter.keeps file = (Glob.matchesPath pattern file && !excludes.any (Glob.matchesPath · file)) := by
  have hall : ∃ gs, excludes.mapM Glob.compile = .ok gs ∧
      ∀ file, gs.any (·.isMatch file) = excludes.any (Glob.matchesPath · file) := by
    induction excludes with
    | nil => exact ⟨[], rfl, fun _ => rfl⟩
    | cons q rest ih =>
      obtain ⟨g', hg'⟩ := h q List.mem_cons_self
      obtain ⟨gs, hgs, hany⟩ := ih fun other ho => h other (List.mem_cons_of_mem q ho)
      refine ⟨g' :: gs, ?_, fun file => ?_⟩
      · rw [List.mapM_cons, hg', hgs]
        rfl
      · rw [List.any_cons, List.any_cons, hany, Glob.matchesPath, hg']
  obtain ⟨gs, hgs, hany⟩ := hall
  refine ⟨⟨g, gs⟩, ?_, fun file => ?_⟩
  · rw [Glob.Filter.compile, hg, hgs]
    rfl
  · rw [Glob.Filter.keeps, hany, Glob.matchesPath, hg]

theorem glob_eq_ok (h : l.glob pattern excludes = .ok found) :
    ∃ filter, Glob.Filter.compile pattern excludes = .ok filter ∧
      found = l.files.names.filter filter.keeps := by
  obtain ⟨filter, hfilter, h⟩ := bind_eq_ok h
  exact ⟨filter, hfilter, (Except.ok.inj h).symm⟩

theorem Built.clean_of_glob (h : l.Built) (hglob : l.sourceTree.glob pattern excludes = .ok found)
    (hfile : file ∈ found) : Path.clean file = file := by
  obtain ⟨filter, -, rfl⟩ := glob_eq_ok hglob
  exact h.clean_file (List.mem_filter.mp hfile).1

theorem glob_alone (h : l.sourceTree.glob pattern [] = .ok found) :
    ∃ g, Glob.compile pattern = .ok g ∧
      found = l.files.names.filter (Glob.matchesPath pattern) := by
  obtain ⟨filter, hfilter, rfl⟩ := glob_eq_ok h
  obtain ⟨g, hg, -⟩ := bind_eq_ok hfilter
  have hnone : ∀ q ∈ ([] : List String), ∃ g, Glob.compile q = .ok g := by
    intro q hq
    cases hq
  obtain ⟨filter', hfilter', hkeeps⟩ := compile_filter hg hnone
  rw [hfilter] at hfilter'
  obtain rfl := Except.ok.inj hfilter'
  refine ⟨g, hg, List.filter_congr fun file _ => ?_⟩
  rw [hkeeps, List.any_nil, Bool.not_false, Bool.and_true]

/-- **Listings are regular.** -/
theorem Built.regular (h : l.Built) : l.sourceTree.Regular where
  readable hfound := by
    obtain ⟨g, hg, -⟩ := glob_alone hfound
    exact ⟨g, hg⟩
  without {pattern excludes found} hfound hreadable := by
    obtain ⟨g, hg, rfl⟩ := glob_alone hfound
    obtain ⟨filter, hfilter, hkeeps⟩ := compile_filter hg hreadable
    show l.glob pattern excludes = _
    rw [glob, hfilter]
    show Except.ok (l.files.names.filter filter.keeps) = _
    rw [List.filter_filter]
    refine congrArg Except.ok (List.filter_congr fun file _ => ?_)
    rw [hkeeps, Bool.and_comm]
  complete hfound hfile hothers hmatch := by
    obtain ⟨-, -, rfl⟩ := glob_alone hfound
    obtain ⟨-, -, rfl⟩ := glob_alone hothers
    exact List.mem_filter.mpr ⟨(List.mem_filter.mp hfile).1, hmatch⟩
  clean hfound hfile := h.clean_of_glob hfound hfile

end Listing

end TargetGen
