import TargetGen.Proofs.Expansion.Address
import TargetGen.Proofs.Expansion.Plain
import TargetGen.Proofs.Expansion.Record

/-!
# Qualified entries — references with a namespace, and absolute labels

An entry `//ns:name` can be two things: a reference to the module `name` of the namespace
`ns`, or a label of some target that no module stands for. Which one it is depends on
whether there is such a module.

To be noted, the name of a reference is written with its namespace again, and whoever looks
it up has to cut it once more. Both cuts are at the first `:`, and no namespace that was cut
off has one. So the module that is found is the one that was looked for in the first place
(`Graph.lookup_qualified`), whatever its name is like, and a reference of this kind is never
missing (`Viewpoint.LeadsTo`).

If there is no module, the entry is a label as it stands. Among other entries it takes its
place and leaves the others alone, but for later ones of its address
(`Viewpoint.KeptAsLabel`).
-/

namespace TargetGen

/-! ## Names with a namespace -/

theorem Text.exists_splitLast_append (name : String) :
    ∃ last, ∀ start, ∃ before,
      Text.splitLast ':' (start ++ ":" ++ name) = some (before, last) := by
  have hcut : Text.splitLast ':' (":" ++ name) ≠ none := by
    rw [ne_eq, Text.splitLast_eq_none_iff]
    simp
  obtain ⟨⟨before, last⟩, hcut⟩ := Option.ne_none_iff_exists'.mp hcut
  obtain ⟨hname, hlast⟩ := Text.splitLast_eq_some_iff.mp hcut
  refine ⟨last, fun start => ⟨start ++ before, Text.splitLast_eq_some_iff.mpr ⟨?_, hlast⟩⟩⟩
  rw [String.append_assoc, String.toList_append, hname, String.toList_append, List.append_assoc]

namespace Graph

variable {g : Graph} {scope name : String} {id : ModuleId}

/-- **A name with a namespace** is looked up in that namespace, from wherever. -/
theorem lookup_qualified (hscope : ':' ∉ scope.toList) (source : ModuleId) (name : String) :
    g.lookup source (Reference.qualified scope name) = g.find? name scope := by
  have habsolute : Text.afterStart "//" (Reference.qualified scope name) =
      some (scope ++ ":" ++ name) := by
    rw [Text.afterStart_eq_some, Reference.qualified]
    simp only [String.append_assoc]
  simp only [lookup, habsolute, Text.splitFirst_colon hscope name]

theorem name_of_find? (h : g.find? name scope = some id) : (g.module id).name = name := by
  obtain ⟨hlt, hfound, -⟩ := List.findIdx?_eq_some_iff_getElem.mp h
  rw [Bool.and_eq_true, decide_eq_true_eq, decide_eq_true_eq] at hfound
  rw [Graph.module, node, List.getD_eq_getElem _ _ hlt]
  exact hfound.1

end Graph

namespace Viewpoint

variable {v : Viewpoint} {entry scope body : String} {reference found : Reference}
  {id : ModuleId}

/-! ## Where references lead -/

/-- The address that stands for a module that does not exist. -/
def missingAddress (reference : Reference) : String :=
  ":" ++ Reference.bareName reference.name ++ missingSuffix

/-- An entry is a reference that leads to a module: from everywhere its name is looked up
as that module, the entry comes to the label of it, and no conversion finds the name to be
missing. -/
structure LeadsTo (v : Viewpoint) (entry : String) (reference : Reference) (id : ModuleId) :
    Prop where
  lookup : ∀ source, v.graph.lookup source reference.name = some id
  expandEntry : ∀ excludes,
    v.expandEntry excludes entry = .ok (.named reference (v.moduleLabel entry reference))
  expandName : v.expandName entry = .ok (.named reference (v.moduleLabel entry reference))
  label : (v.moduleLabel entry reference).address =
    Label.seenFrom v.module.package
      (v.outputName id (v.graph.labelFor id).address reference.tag)
  /-- Only a label that is written by hand or a tag can spell the address of what is missing. -/
  notMissing : (v.graph.module id).settings.label = none → ¬ v.AsksOutput id reference.tag →
    (v.moduleLabel entry reference).address ≠ missingAddress reference
  record : ∀ {α : Type} (c : Conversion α) (r : ReferenceRecord),
    reference.name ∈ (c.run v r).2.missing → reference.name ∈ r.missing

theorem name_notMem_unfound {name : String} (h : v.graph.lookup v.id name = some id)
    (references : List Reference) : name ∉ v.unfound references := by
  intro hmem
  have hnone := (List.mem_filter.mp hmem).2
  rw [h] at hnone
  cases hnone

theorem seenFrom_ne_missing (home package : String) {name : String} (scope : String) :
    Label.seenFrom home ("//" ++ package ++ ":" ++ name) ≠
      ":" ++ Reference.bareName (Reference.qualified scope name) ++ missingSuffix := by
  obtain ⟨last, hlast⟩ := Text.exists_splitLast_append name
  have hbare : Reference.bareName (Reference.qualified scope name) = last := by
    obtain ⟨before, hcut⟩ := hlast ("//" ++ scope)
    rw [Reference.bareName, Reference.qualified, hcut]
  have htarget : (Label.ofAddress ("//" ++ package ++ ":" ++ name)).targetName = last := by
    obtain ⟨before, hcut⟩ := hlast ("//" ++ package)
    simp only [Label.targetName, Label.ofAddress, hcut]
  rw [hbare]
  unfold Label.seenFrom
  dsimp only
  split
  next =>
    rw [htarget]
    intro heq
    have hempty : missingSuffix = "" := String.append_eq_left_iff.mp heq.symm
    exact absurd hempty (by decide)
  next =>
    intro heq
    have hchars := congrArg String.toList heq
    simp at hchars

/-- **A reference with a namespace leads to the module** that was looked for. -/
theorem leadsTo_of_find? (hentry : entry = "//" ++ scope ++ ":" ++ body)
    (hscope : ':' ∉ scope.toList) (hread : Reference.ofMarked entry body = .ok found)
    (hfind : v.graph.find? found.name scope = some id) :
    v.LeadsTo entry ⟨Reference.qualified scope found.name, found.tag⟩ id := by
  have hrefers : v.Refers entry ⟨Reference.qualified scope found.name, found.tag⟩ :=
    .qualified hentry hscope hread hfind
  have hlookup : ∀ source,
      v.graph.lookup source (Reference.qualified scope found.name) = some id :=
    fun source => (Graph.lookup_qualified hscope source found.name).trans hfind
  have hlabel : (v.moduleLabel entry ⟨Reference.qualified scope found.name, found.tag⟩).address =
      Label.seenFrom v.module.package
        (v.outputName id (v.graph.labelFor id).address found.tag) :=
    address_moduleLabel (hlookup v.id)
  have hname : Reference.qualified scope found.name ≠ "" := by simp [Reference.qualified]
  refine ⟨hlookup, expandEntry_of_some (refers_iff.mp hrefers),
    expandName_of_means (.marked hrefers) hname, hlabel, ?_, ?_⟩
  · intro hhand hasks
    rw [hlabel, outputName, if_neg hasks, Graph.labelFor, hhand, Graph.name_of_find? hfind]
    exact seenFrom_ne_missing _ _ scope
  · intro α c r hmem
    rw [c.missing_run r] at hmem
    exact (Distinct.mem_foldl_append.mp hmem).resolve_right (name_notMem_unfound (hlookup v.id) _)

/-! ## Entries that are labels as they stand -/

/-- An entry is kept as the label that it spells. In a list it changes neither what goes
wrong nor what is noted. It takes its place unless its address is excluded or came before,
and then no later label has that address. -/
structure KeptAsLabel (v : Viewpoint) (entry : String) : Prop where
  expandEntry : ∀ excludes, v.expandEntry excludes entry =
    .ok (.literal (Path.join v.module.dir entry) ⟨entry, entry⟩)
  record : ∀ before after excludes r,
    (v.expand (before ++ entry :: after) excludes r).2 = (v.expand (before ++ after) excludes r).2
  error : ∀ before after excludes r e,
    (v.expand (before ++ after) excludes r).1 = .error e →
      (v.expand (before ++ entry :: after) excludes r).1 = .error e
  label : ∀ before after excludes r list,
    (v.expand (before ++ after) excludes r).1 = .ok list →
      ∃ first others, (v.expand before excludes r).1 = .ok ⟨first, list.excludes⟩ ∧
        list.includes = first ++ others ∧
        (v.expand (before ++ entry :: after) excludes r).1 =
          .ok ⟨first ++
            (if entry ∈ list.excludedAddresses ∨ entry ∈ first.map Label.address then []
              else [⟨entry, entry⟩]) ++ others.filter fun other => other.address ≠ entry,
            list.excludes⟩

/-- An absolute label that is dropped as it is spelled would be subtracted anyway. -/
theorem select_keptLabels_literal (habsolute : Text.startsWith "//" entry = true)
    (out : List Expanded) (path : String) (before after : List Label) :
    Label.select ((out.flatMap Expanded.labels).map v.resolvedAddress)
        (before ++ (v.resolvedLabels ((Expanded.literal path ⟨entry, entry⟩).keptLabels
          ((out.flatMap Expanded.labels).map Label.address)) ++ after)) =
      Label.select ((out.flatMap Expanded.labels).map v.resolvedAddress)
        (before ++ ⟨entry, entry⟩ :: after) := by
  have hresolve : v.config.packages.resolve v.module.dir entry = entry :=
    Packages.resolve_of_absolute habsolute
  show Label.select _ (before ++ (v.resolvedLabels (if entry ∈ _ then _ else _) ++ after)) = _
  split
  next hmem =>
    obtain ⟨label, hlabel, haddress⟩ := List.mem_map.mp hmem
    have hsubtracted : entry ∈ (out.flatMap Expanded.labels).map v.resolvedAddress := by
      refine List.mem_map.mpr ⟨label, hlabel, ?_⟩
      rw [resolvedAddress, Packages.resolveLabel, haddress, hresolve]
    apply Label.select_congr
    rw [List.filter_append, List.filter_append, List.filter_append,
      List.filter_cons_of_neg (by rw [decide_eq_true_eq, not_not]; exact hsubtracted)]
    rfl
  next => rw [resolvedLabels, List.map_singleton, Packages.resolveLabel, hresolve]; rfl

/-- **An absolute label takes its place** unless its address is excluded or came before. -/
theorem includes_gathered_insert (habsolute : Text.startsWith "//" entry = true)
    (before after out : List Expanded) (path : String) :
    ∃ others,
      (v.gathered (before ++ after) out).includes = (v.gathered before out).includes ++ others ∧
      (v.gathered (before ++ .literal path ⟨entry, entry⟩ :: after) out).includes =
        (v.gathered before out).includes ++
          (if entry ∈ (v.gathered before out).excludedAddresses ∨
              entry ∈ (v.gathered before out).includes.map Label.address then []
            else [⟨entry, entry⟩]) ++ others.filter fun other => other.address ≠ entry := by
  simp only [includes_gathered, excludedAddresses_gathered, List.flatMap_append,
    List.flatMap_cons, resolvedLabels, List.map_append]
  obtain ⟨others, hothers, hinsert⟩ := Label.select_insert
    ((out.flatMap Expanded.labels).map v.resolvedAddress) (v.resolvedLabels (before.flatMap _))
    ⟨entry, entry⟩ (v.resolvedLabels (after.flatMap _))
  exact ⟨others, hothers, (select_keptLabels_literal habsolute out path _ _).trans hinsert⟩

section

variable {excludes : List String} (hliteral : ∀ excludes, v.expandEntry excludes entry =
  .ok (.literal (Path.join v.module.dir entry) ⟨entry, entry⟩))

include hliteral

theorem collect_insert_literal (before after : List String) :
    (collect (v.expandEntry excludes) (before ++ entry :: after)).1.filterMap Expanded.reference? =
        (collect (v.expandEntry excludes) (before ++ after)).1.filterMap Expanded.reference? ∧
      (collect (v.expandEntry excludes) (before ++ entry :: after)).2 =
        (collect (v.expandEntry excludes) (before ++ after)).2 := by
  rw [collect_append, collect_append]
  cases collect (v.expandEntry excludes) before with
  | mk found error =>
    cases error with
    | some e => exact ⟨rfl, rfl⟩
    | none =>
      dsimp only
      rw [collect, hliteral]
      refine ⟨?_, rfl⟩
      rw [List.filterMap_append, List.filterMap_append]
      rfl

theorem includedReferences_insert_literal (before after : List String) :
    v.includedReferences (before ++ entry :: after) excludes =
      v.includedReferences (before ++ after) excludes := by
  unfold includedReferences
  cases collect (v.expandEntry []) excludes with
  | mk out error =>
    cases error with
    | some e => rfl
    | none => exact (collect_insert_literal hliteral before after).1

theorem keptAsLabel_of_literal (habsolute : Text.startsWith "//" entry = true) :
    v.KeptAsLabel entry where
  expandEntry := hliteral
  record before after excludes r := by
    rw [record_expand, record_expand, includedReferences_insert_literal hliteral]
  error before after excludes r e h := by
    rw [expand_eq_error_iff] at h ⊢
    refine h.imp_right ?_
    rintro ⟨out, hout, herror⟩
    exact ⟨out, hout, (collect_insert_literal hliteral before after).2.trans herror⟩
  label before after excludes r list h := by
    obtain ⟨out, found, hout, hfound, rfl⟩ := expand_eq_ok_iff.mp h
    obtain ⟨first, rest, hfirst, hrest, rfl⟩ := collect_append_eq_iff.mp hfound
    have hentry : collect (v.expandEntry (out.filterMap Expanded.path?)) (entry :: after) =
        (.literal (Path.join v.module.dir entry) ⟨entry, entry⟩ :: rest, none) := by
      rw [collect, hliteral, hrest]
    have hinserted := collect_append_eq_iff.mpr ⟨first, _, hfirst, hentry, rfl⟩
    obtain ⟨others, hothers, hincludes⟩ := includes_gathered_insert (v := v) habsolute first rest
      out (Path.join v.module.dir entry)
    refine ⟨(v.gathered first out).includes, others,
      expand_eq_ok_iff.mpr ⟨out, first, hout, hfirst, rfl⟩, hothers, ?_⟩
    rw [excludedAddresses_gathered] at hincludes ⊢
    rw [← hincludes]
    exact expand_eq_ok_iff.mpr ⟨out, _, hout, hinserted, rfl⟩

end

theorem keptAsLabel_of_none (habsolute : Text.startsWith "//" entry = true)
    (h : v.reference? entry = .ok none) (hglob : Path.isGlob entry = false) :
    v.KeptAsLabel entry := by
  refine keptAsLabel_of_literal (fun excludes => ?_) habsolute
  rw [expandEntry_of_literal h hglob, literalLabel, if_pos habsolute]
  rfl

/-! ## Both kinds of entries -/

/-- **Entries with a namespace.** Whatever is read as a reference names a module that the
namespace has, and leads to that very module. What could be read but names none is kept as
an absolute label, if it is no pattern. -/
theorem qualified_leads_or_is_kept (v : Viewpoint) (habsolute : Text.startsWith "//" entry = true) :
    (∀ reference, v.reference? entry = .ok (some reference) →
      ∃ scope body found id, entry = "//" ++ scope ++ ":" ++ body ∧ ':' ∉ scope.toList ∧
        Reference.ofMarked entry body = .ok found ∧
        v.graph.find? found.name scope = some id ∧
        reference = ⟨Reference.qualified scope found.name, found.tag⟩ ∧
        v.LeadsTo entry reference id) ∧
    ∀ scope body found, entry = "//" ++ scope ++ ":" ++ body → ':' ∉ scope.toList →
      Reference.ofMarked entry body = .ok found → v.graph.find? found.name scope = none →
        v.reference? entry = .ok none ∧ (Path.isGlob entry = false → v.KeptAsLabel entry) := by
  constructor
  · intro reference hreference
    cases refers_iff.mpr hreference with
    | insight hentry _ =>
      rw [hentry] at habsolute
      simp [Text.startsWith, List.isPrefixOf] at habsolute
    | qualified hentry hscope hread hfind =>
      exact ⟨_, _, _, _, hentry, hscope, hread, hfind, rfl,
        leadsTo_of_find? hentry hscope hread hfind⟩
  · intro scope body found hentry hscope hread hfind
    have hnone : v.reference? entry = .ok none := by
      rw [reference?_qualified hentry hscope hread, hfind]
    exact ⟨hnone, keptAsLabel_of_none habsolute hnone⟩

/-! A module in a namespace, whose name could be taken for an address. -/

def namespacedView : Viewpoint where
  graph := ⟨[⟨Module.plain "app" "lib" "x", ProviderStore.empty, []⟩,
    ⟨(Module.plain "a:b/c" "lib" "y").inScope "vendor", ProviderStore.empty, []⟩], []⟩
  registry := headerTypes
  config := Config.ofTree Listing.empty.sourceTree
  id := 0

theorem namespaced_name_leads :
    namespacedView.reference? "//vendor:a:b/c\x7b.hdrs\x7d" =
        .ok (some ⟨"//vendor:a:b/c", ".hdrs"⟩) ∧
      namespacedView.LeadsTo "//vendor:a:b/c\x7b.hdrs\x7d" ⟨"//vendor:a:b/c", ".hdrs"⟩ 1 ∧
      namespacedView.graph.find? "c" "b" = none ∧
      namespacedView.KeptAsLabel "//b:c" := by
  have hreference : namespacedView.reference? "//vendor:a:b/c\x7b.hdrs\x7d" =
      .ok (some ⟨"//vendor:a:b/c", ".hdrs"⟩) := by
    decide +kernel
  have hother : namespacedView.graph.find? "c" "b" = none := by decide +kernel
  obtain ⟨-, -, -, id, -, -, -, -, -, hleads⟩ :=
    (qualified_leads_or_is_kept namespacedView (by decide +kernel)).1 _ hreference
  have hid : namespacedView.graph.lookup 0 "//vendor:a:b/c" = some 1 := by decide +kernel
  obtain rfl := Option.some.inj ((hleads.lookup 0).symm.trans hid)
  obtain ⟨-, hkept⟩ := (qualified_leads_or_is_kept namespacedView (by decide +kernel)).2
    "b" "c" ⟨"c", ""⟩ rfl (by decide) (by decide +kernel) hother
  exact ⟨hreference, hleads, hother, hkept (by decide +kernel)⟩

end Viewpoint

end TargetGen
