import TargetGen.Expansion
import TargetGen.Proofs.Text
import TargetGen.SourceTree.Listing

/-!
# Addresses — what the label of another module denotes

An absolute address names a package and a target. Written out it holds both; the short
form leaves the target out, which is then called like the last component of its package.
Seen from that package, what is left of either is the target alone.

To ask for an output of a target its tag is put behind the address, and only then is
the address taken apart. Behind an address that is written out stands the target, so
this makes an output of it. Behind the short form stands the package: with a tag the
address denotes a target of some other package, and never the output that was asked for
(`Viewpoint.moduleLabel_denotes_iff`).
-/

namespace TargetGen

variable {home address package target tag : String}

namespace Label

/-! ## What addresses denote -/

/-- The package and the target that an absolute address names. -/
inductive Absolute : String → String → String → Prop where
  | full {package target : String} : ':' ∉ package.toList →
      Absolute ("//" ++ package ++ ":" ++ target) package target
  /-- The target is what follows the last `/`. -/
  | short {package parent target : String} : ':' ∉ package.toList → '/' ∉ target.toList →
      "//" ++ package = parent ++ "/" ++ target → Absolute ("//" ++ package) package target

/-- What an address denotes in the package `home`. -/
inductive Denotes (home : String) : String → String → String → Prop where
  | near {target : String} : Denotes home (":" ++ target) home target
  | absolute {address package target : String} : Absolute address package target →
      Denotes home address package target

/-- The target of the short form is what the last `/` cuts off. -/
theorem splitLast_slash {parent : String} (haddress : address = parent ++ "/" ++ target)
    (htarget : '/' ∉ target.toList) : Text.splitLast '/' address = some (parent, target) := by
  rw [Text.splitLast_eq_some_iff, haddress]
  exact ⟨by simp, htarget⟩

theorem Absolute.colon_notMem (h : Absolute address package target) : ':' ∉ package.toList := by
  cases h with
  | full hpackage => exact hpackage
  | short hpackage _ _ => exact hpackage

theorem Absolute.package? (h : Absolute address package target) :
    (ofAddress address).package? = some package := by
  cases h with
  | full hpackage =>
    have hrest : Text.afterStart "//" ("//" ++ package ++ ":" ++ target) =
        some (package ++ ":" ++ target) := by
      rw [Text.afterStart_eq_some]
      simp only [String.append_assoc]
    simp only [Label.package?, ofAddress, hrest, Option.map_some,
      Text.splitFirst_colon hpackage target]
  | short hpackage _ _ =>
    have hrest : Text.afterStart "//" ("//" ++ package) = some package :=
      Text.afterStart_eq_some.mpr rfl
    simp only [Label.package?, ofAddress, hrest, Option.map_some,
      Text.splitFirst_eq_none_iff.mpr hpackage]

theorem Absolute.targetName (h : Absolute address package target) (hcolon : ':' ∉ target.toList) :
    (ofAddress address).targetName = target := by
  cases h with
  | full hpackage =>
    have hsplit : Text.splitLast ':' ("//" ++ package ++ ":" ++ target) =
        some ("//" ++ package, target) := by
      rw [Text.splitLast_eq_some_iff]
      exact ⟨by simp, hcolon⟩
    simp only [Label.targetName, ofAddress, hsplit]
  | short hpackage htarget haddress =>
    have hnone : Text.splitLast ':' ("//" ++ package) = none := by
      rw [Text.splitLast_eq_none_iff]
      simpa using hpackage
    simp only [Label.targetName, ofAddress, hnone, splitLast_slash haddress htarget]

theorem full_ne_short (package target : String) :
    "//" ++ package ++ ":" ++ target ≠ "//" ++ package := by
  intro h
  have hlength := congrArg String.length h
  simp only [String.length_append] at hlength
  have hcolon : ":".length = 1 := rfl
  omega

/-- **An absolute address names one target.** -/
theorem Absolute.unique {package' target' : String} (h : Absolute address package target)
    (h' : Absolute address package' target') : package = package' ∧ target = target' := by
  obtain rfl : package = package' := Option.some.inj (h.package?.symm.trans h'.package?)
  refine ⟨rfl, ?_⟩
  cases h with
  | full _ =>
    generalize hfull : "//" ++ package ++ ":" ++ target = address at h'
    cases h' with
    | full _ => exact (String.append_right_inj _).mp hfull
    | short _ _ _ => exact absurd hfull (full_ne_short package target)
  | short _ htarget haddress =>
    generalize hshort : "//" ++ package = address at h'
    cases h' with
    | full _ => exact absurd hshort.symm (full_ne_short package target')
    | short _ htarget' haddress' =>
      have hcuts := (splitLast_slash haddress htarget).symm.trans (splitLast_slash haddress' htarget')
      exact (Prod.mk.inj (Option.some.inj hcuts)).2

theorem Absolute.startsWith (h : Absolute address package target) :
    Text.startsWith ":" address = false := by
  cases h <;> simp [Text.startsWith, List.isPrefixOf]

/-- **An address denotes one target.** -/
theorem Denotes.unique {package' target' : String} (h : Denotes home address package target)
    (h' : Denotes home address package' target') : package = package' ∧ target = target' := by
  cases h with
  | near =>
    generalize hnear : ":" ++ target = address at h'
    cases h' with
    | near => exact ⟨rfl, (String.append_right_inj _).mp hnear⟩
    | absolute hother =>
      have hstart := hother.startsWith
      rw [Text.startsWith_iff.mpr ⟨target, hnear.symm⟩] at hstart
      cases hstart
  | absolute habsolute =>
    cases h' with
    | near =>
      have hstart := habsolute.startsWith
      rw [Text.startsWith_iff.mpr ⟨target', rfl⟩] at hstart
      cases hstart
    | absolute hother => exact habsolute.unique hother

/-! ## Addresses from a package -/

/-- An address as it is written in a package: without the package, if it is that one. -/
def seenFrom (home address : String) : String :=
  let label := ofAddress address
  if label.package? = some home then ":" ++ label.targetName else address

/-- An address points at a target from a package: that target and no other is what it
denotes there, and it leaves out the package if and only if it is that one. -/
structure PointsAt (home address package target : String) : Prop where
  denotes_iff : ∀ {package' target' : String},
    Denotes home address package' target' ↔ package' = package ∧ target' = target
  near_iff : Text.startsWith ":" address = true ↔ package = home

theorem Denotes.iff_eq (h : Denotes home address package target) {package' target' : String} :
    Denotes home address package' target' ↔ package' = package ∧ target' = target := by
  constructor
  · exact fun h' => h'.unique h
  · rintro ⟨rfl, rfl⟩
    exact h

/-- **Leaving out the package** changes nothing in what an address denotes. -/
theorem Absolute.pointsAt (h : Absolute address package target) (hcolon : ':' ∉ target.toList)
    (home : String) : PointsAt home (seenFrom home address) package target := by
  unfold seenFrom
  dsimp only
  rw [h.package?, h.targetName hcolon]
  by_cases hhome : package = home
  · subst hhome
    rw [if_pos rfl]
    exact ⟨Denotes.near.iff_eq, iff_of_true (Text.startsWith_iff.mpr ⟨target, rfl⟩) rfl⟩
  · rw [if_neg fun heq => hhome (Option.some.inj heq)]
    exact ⟨(Denotes.absolute h).iff_eq, iff_of_false (by rw [h.startsWith]; decide) hhome⟩

/-! ## Addresses with a tag -/

/-- A tag behind a target that is written out belongs to the target. -/
theorem Absolute.append (h : Absolute address package target) (hfull : address ≠ "//" ++ package)
    (tag : String) : Absolute (address ++ tag) package (target ++ tag) := by
  cases h with
  | full hpackage =>
    rw [String.append_assoc]
    exact .full hpackage
  | short _ _ _ => exact absurd rfl hfull

/-- A tag behind the short form belongs to the package. -/
theorem exists_absolute_append (hpackage : ':' ∉ package.toList) (htag : ':' ∉ tag.toList) :
    ∃ target, ':' ∉ target.toList ∧ Absolute ("//" ++ package ++ tag) (package ++ tag) target := by
  have hcolon : ':' ∉ ("//" ++ package ++ tag).toList := by simp [hpackage, htag]
  have hslash : Text.splitLast '/' ("//" ++ package ++ tag) ≠ none := by
    rw [ne_eq, Text.splitLast_eq_none_iff]
    simp
  obtain ⟨⟨parent, target⟩, hsplit⟩ := Option.ne_none_iff_exists'.mp hslash
  obtain ⟨haddress, htarget⟩ := Text.splitLast_eq_some_iff.mp hsplit
  refine ⟨target, fun hmem => hcolon ?_, ?_⟩
  · rw [haddress]
    exact List.mem_append_right _ (List.mem_cons_of_mem _ hmem)
  · have hparent : "//" ++ (package ++ tag) = parent ++ "/" ++ target := by
      apply String.toList_injective
      rw [← String.append_assoc, haddress]
      simp
    rw [String.append_assoc]
    exact .short (by simp [hpackage, htag]) htarget hparent

end Label

/-! ## Labels of modules -/

namespace Viewpoint

variable {v : Viewpoint} {entry : String} {reference : Reference} {id : ModuleId}

/-- A tag that is not empty asks for an output of a module, if the converter of its type
has such an output. -/
def AsksOutput (v : Viewpoint) (id : ModuleId) (tag : String) : Prop :=
  tag ≠ "" ∧ ∃ type converter, v.registry.get? (v.graph.module id).moduleType = some type ∧
    type.ability.converter? = some converter ∧ converter.taggedOutput tag = true

theorem asksOutput_iff :
    v.AsksOutput id tag ↔ tag ≠ "" ∧ v.hasTaggedOutput (v.graph.module id) tag = true := by
  refine and_congr_right fun _ => ?_
  unfold hasTaggedOutput Registry.converter?
  cases htype : v.registry.get? (v.graph.module id).moduleType with
  | none => simp
  | some type =>
    cases hconverter : type.ability.converter? with
    | none => simp [hconverter]
    | some converter => simp [hconverter]

instance (v : Viewpoint) (id : ModuleId) (tag : String) : Decidable (v.AsksOutput id tag) :=
  decidable_of_iff _ asksOutput_iff.symm

/-- The name of the target that a reference with a tag is for. -/
def outputName (v : Viewpoint) (id : ModuleId) (target tag : String) : String :=
  if v.AsksOutput id tag then target ++ tag else target

theorem address_moduleLabel (hlookup : v.graph.lookup v.id reference.name = some id) :
    (v.moduleLabel entry reference).address =
      Label.seenFrom v.module.package
        (v.outputName id (v.graph.labelFor id).address reference.tag) := by
  simp only [moduleLabel, moduleAddress, hlookup, outputName, asksOutput_iff]
  rfl

theorem pointsAt_outputName {label : String} (hlabel : Label.Absolute label package target)
    (hcolon : ':' ∉ target.toList) (htag : ':' ∉ tag.toList)
    (hform : v.AsksOutput id tag → label ≠ "//" ++ package) (home : String) :
    Label.PointsAt home (Label.seenFrom home (v.outputName id label tag)) package
      (v.outputName id target tag) := by
  unfold outputName
  by_cases hasks : v.AsksOutput id tag
  · rw [if_pos hasks, if_pos hasks]
    exact (hlabel.append (hform hasks) tag).pointsAt (by simp [hcolon, htag]) home
  · rw [if_neg hasks, if_neg hasks]
    exact hlabel.pointsAt hcolon home

theorem exists_pointsAt_of_short (hpackage : ':' ∉ package.toList) (htag : ':' ∉ tag.toList)
    (hasks : v.AsksOutput id tag) (home : String) :
    ∃ other, Label.PointsAt home (Label.seenFrom home (v.outputName id ("//" ++ package) tag))
      (package ++ tag) other := by
  obtain ⟨other, hother, habsolute⟩ := Label.exists_absolute_append hpackage htag
  refine ⟨other, ?_⟩
  rw [outputName, if_pos hasks]
  exact habsolute.pointsAt hother home

/-- **What the label of a module denotes.** Let a reference with a tag lead to a module
whose label is absolute and names `target` in `package`. As seen from the module that
refers to it, the label points at that target of that package, with the tag behind it if
it asks for an output. The one exception is a label in the short form with such a tag:
this becomes the label of a target in the package with the tag behind its name. -/
theorem moduleLabel_denotes_iff (hlookup : v.graph.lookup v.id reference.name = some id)
    (hlabel : Label.Absolute (v.graph.labelFor id).address package target)
    (hcolon : ':' ∉ target.toList) (htag : ':' ∉ reference.tag.toList) :
    (Label.PointsAt v.module.package (v.moduleLabel entry reference).address package
        (v.outputName id target reference.tag) ↔
      (v.AsksOutput id reference.tag → (v.graph.labelFor id).address ≠ "//" ++ package)) ∧
    (v.AsksOutput id reference.tag → (v.graph.labelFor id).address = "//" ++ package →
      ∃ other, Label.PointsAt v.module.package (v.moduleLabel entry reference).address
        (package ++ reference.tag) other) := by
  rw [address_moduleLabel hlookup]
  have hshort : v.AsksOutput id reference.tag → (v.graph.labelFor id).address = "//" ++ package →
      ∃ other, Label.PointsAt v.module.package (Label.seenFrom v.module.package
        (v.outputName id (v.graph.labelFor id).address reference.tag))
        (package ++ reference.tag) other := by
    intro hasks heq
    rw [heq]
    exact exists_pointsAt_of_short hlabel.colon_notMem htag hasks _
  refine ⟨⟨fun hpoints hasks heq => ?_, fun hform => ?_⟩, hshort⟩
  · obtain ⟨other, hother⟩ := hshort hasks heq
    have hsame := (hother.denotes_iff.mp (hpoints.denotes_iff.mpr ⟨rfl, rfl⟩)).1
    exact hasks.1 (String.append_eq_left_iff.mp hsame.symm)
  · exact pointsAt_outputName hlabel hcolon htag hform _

/-! Two modules with headers as an output of theirs, and labels in both forms. -/

def headerTypes : Registry :=
  Registry.empty.register "lib"
    ⟨.convertible ⟨fun _ _ _ => .done (.ok []), fun tag => tag = ".hdrs"⟩, []⟩

def headerView : Viewpoint where
  graph := ⟨[⟨Module.plain "app" "lib" "x", ProviderStore.empty, []⟩,
    ⟨(Module.plain "full" "lib" "y").withLabel "//x:lib", ProviderStore.empty, []⟩,
    ⟨(Module.plain "short" "lib" "y").withLabel "//a/b", ProviderStore.empty, []⟩], []⟩
  registry := headerTypes
  config := Config.ofTree Listing.empty.sourceTree
  id := 0

theorem headers_asked : headerView.AsksOutput 1 ".hdrs" ∧ headerView.AsksOutput 2 ".hdrs" := by
  decide +kernel

theorem header_of_full_label_is_near :
    Label.PointsAt "x" (headerView.moduleLabel ":full\x7b.hdrs\x7d" ⟨"full", ".hdrs"⟩).address
      "x" "lib.hdrs" := by
  have hlookup : headerView.graph.lookup headerView.id "full" = some 1 := by decide +kernel
  have hlabel : Label.Absolute (headerView.graph.labelFor 1).address "x" "lib" :=
    @Label.Absolute.full "x" "lib" (by decide)
  have hname : headerView.outputName 1 "lib" ".hdrs" = "lib.hdrs" := if_pos headers_asked.1
  obtain ⟨hpoints, -⟩ := @moduleLabel_denotes_iff "x" "lib" headerView ":full\x7b.hdrs\x7d"
    ⟨"full", ".hdrs"⟩ 1 hlookup hlabel (by decide) (by decide)
  rw [hname] at hpoints
  exact hpoints.mpr fun _ => by decide +kernel

/-- **A tag behind the short form** asks for an output of `b` in `a/b`, and gets the label
of a target in `a/b.hdrs`. -/
theorem header_of_short_label_is_elsewhere :
    Label.Absolute (headerView.graph.labelFor 2).address "a/b" "b" ∧
      headerView.outputName 2 "b" ".hdrs" = "b.hdrs" ∧
      (headerView.moduleLabel ":short\x7b.hdrs\x7d" ⟨"short", ".hdrs"⟩).address = "//a/b.hdrs" ∧
      Label.Denotes "x" "//a/b.hdrs" "a/b.hdrs" "b.hdrs" ∧
      ¬ Label.PointsAt "x" "//a/b.hdrs" "a/b" "b.hdrs" := by
  have hdenotes : Label.Denotes "x" "//a/b.hdrs" "a/b.hdrs" "b.hdrs" :=
    .absolute (@Label.Absolute.short "a/b.hdrs" "//a" "b.hdrs" (by decide) (by decide) rfl)
  refine ⟨@Label.Absolute.short "a/b" "//a" "b" (by decide) (by decide) rfl,
    if_pos headers_asked.2, by decide +kernel, hdenotes, fun hpoints => ?_⟩
  exact absurd (hpoints.denotes_iff.mp hdenotes).1 (by decide)

end Viewpoint

end TargetGen
