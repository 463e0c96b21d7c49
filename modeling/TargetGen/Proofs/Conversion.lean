import TargetGen.Conversion.Run
import TargetGen.Proofs.Graph.Loading

/-!
# Conversions — what their references leave behind

A conversion may do what it likes with the labels it is given; what it cannot do
is take back what its references turned up. To note references is to merge what they
turn up into the record, each thing once (`Viewpoint.noteEach_eq`). So the record of a
whole conversion is known from the references that it includes and mentions
(`Conversion.record_run`).

Three things follow:

* a reference that was included leaves an edge to its module, and the name of
  the module if that had no usable target (`Conversion.covers_run`);
* edges lead to modules that are there and are not exempt (`Conversion.admits_run`);
* the names that are missing are exactly those that were mentioned and denote no
  module (`Conversion.missing_run`).
-/

namespace TargetGen

open TargetGen.Graph

variable {v : Viewpoint} {r : ReferenceRecord} {α : Type}
  {reference : Reference} {references : List Reference} {id : ModuleId}

/-! ## Merging -/

namespace ReferenceRecord

/-- One record behind the other, with what is in both. -/
def append (r s : ReferenceRecord) : ReferenceRecord :=
  ⟨r.missing ++ s.missing, r.unconverted ++ s.unconverted, r.edges ++ s.edges⟩

/-- What is in one record is added to the other, each thing once. -/
def merge (r s : ReferenceRecord) : ReferenceRecord :=
  ⟨s.missing.foldl Distinct.append r.missing, s.unconverted.foldl Distinct.append r.unconverted,
    s.edges.foldl Distinct.append r.edges⟩

theorem merge_append (r s t : ReferenceRecord) : r.merge (s.append t) = (r.merge s).merge t := by
  simp only [merge, append, List.foldl_append]

theorem empty_merge (s : ReferenceRecord) :
    empty.merge s =
      ⟨Distinct.firsts s.missing, Distinct.firsts s.unconverted, Distinct.firsts s.edges⟩ := by
  simp only [merge, empty, Distinct.foldl_append_nil]

end ReferenceRecord

namespace Viewpoint

/-! ## What references turn up -/

/-- The module has failed, or it has no label written by hand and no published decision
converts it. -/
inductive Unusable (v : Viewpoint) (id : ModuleId) : Prop where
  | failed : v.graph.isFailed id = true → Unusable v id
  | undecided : (v.graph.module id).settings.label = none →
      (∀ d, v.graph.provider? id .decision = some (.decision d) → d.convert = false) →
      Unusable v id

theorem isConverted_eq_false_iff : v.isConverted id = false ↔ v.Unusable id := by
  rw [isConverted, Bool.and_eq_false_iff, Bool.not_eq_false', Bool.or_eq_false_iff,
    decidedToConvert_eq_false_iff, Option.isSome_eq_false_iff, Option.isNone_iff_eq_none]
  constructor
  · rintro (hfailed | ⟨hlabel, hdecision⟩)
    · exact .failed hfailed
    · exact .undecided hlabel hdecision
  · intro h
    cases h with
    | failed hfailed => exact .inl hfailed
    | undecided hlabel hdecision => exact .inr ⟨hlabel, hdecision⟩

instance (v : Viewpoint) (id : ModuleId) : Decidable (v.Unusable id) :=
  decidable_of_iff (v.isConverted id = false) isConverted_eq_false_iff

/-- The names among references that denote no module. -/
def unfound (v : Viewpoint) (references : List Reference) : List String :=
  (references.map Reference.name).filter fun name => (v.graph.lookup v.id name).isNone

@[simp] theorem unfound_append (v : Viewpoint) (references others : List Reference) :
    v.unfound (references ++ others) = v.unfound references ++ v.unfound others := by
  simp [unfound]

theorem unfound_eq_nil_iff : v.unfound references = [] ↔
    ∀ reference ∈ references, (v.graph.lookup v.id reference.name).isSome = true := by
  simp [unfound, Option.isSome_iff_ne_none]

/-- The modules that references find, one for each that finds any. -/
def modulesOf (v : Viewpoint) (references : List Reference) : List ModuleId :=
  references.filterMap fun reference => v.graph.lookup v.id reference.name

/-- The modules to which references ask for edges: those found that are not exempt. -/
def wanted (v : Viewpoint) (references : List Reference) : List ModuleId :=
  (v.modulesOf references).filter fun id =>
    v.config.exemptions.isExempt v.module.name (v.graph.module id).name = false

/-- The names of the modules found that have no usable target. -/
def unusable (v : Viewpoint) (references : List Reference) : List String :=
  ((v.modulesOf references).filter fun id => v.Unusable id).map fun id => (v.graph.module id).name

@[simp] theorem mem_modulesOf :
    id ∈ v.modulesOf references ↔
      ∃ reference ∈ references, v.graph.lookup v.id reference.name = some id :=
  List.mem_filterMap

@[simp] theorem mem_wanted :
    id ∈ v.wanted references ↔ id ∈ v.modulesOf references ∧
      v.config.exemptions.isExempt v.module.name (v.graph.module id).name = false := by
  rw [wanted, List.mem_filter, decide_eq_true_iff]

@[simp] theorem mem_unusable {name : String} :
    name ∈ v.unusable references ↔
      ∃ id ∈ v.modulesOf references, v.Unusable id ∧ name = (v.graph.module id).name := by
  simp only [unusable, List.mem_map, List.mem_filter, decide_eq_true_eq, and_assoc,
    @eq_comm String name]

/-- What references turn up of which some are included, with all repetitions. -/
def turnedUp (v : Viewpoint) (included mentioned : List Reference) : ReferenceRecord :=
  ⟨v.unfound mentioned, v.unusable mentioned, v.wanted included⟩

theorem turnedUp_append (v : Viewpoint) (included included' mentioned mentioned' : List Reference) :
    v.turnedUp (included ++ included') (mentioned ++ mentioned') =
      (v.turnedUp included mentioned).append (v.turnedUp included' mentioned') := by
  simp only [turnedUp, ReferenceRecord.append, unfound_append, unusable, wanted, modulesOf,
    List.filterMap_append, List.filter_append, List.map_append]

/-- The module itself is exempt, so no edge to it is asked for. -/
theorem self_notMem_wanted (v : Viewpoint) (references : List Reference) :
    v.id ∉ v.wanted references := by
  intro hmem
  obtain ⟨-, hexempt⟩ := mem_wanted.mp hmem
  have hself : v.config.exemptions.isExempt v.module.name (v.graph.module v.id).name = true := by
    simp [EdgeExemptions.isExempt, Viewpoint.module]
  exact Bool.false_ne_true (hexempt.symm.trans hself)

theorem note_eq (v : Viewpoint) (wantsEdge : Bool) (reference : Reference) (r : ReferenceRecord) :
    v.note wantsEdge reference r =
      r.merge (v.turnedUp (if wantsEdge then [reference] else []) [reference]) := by
  cases hl : v.graph.lookup v.id reference.name with
  | none =>
    cases wantsEdge <;>
      simp [note, hl, ReferenceRecord.addMissing, ReferenceRecord.merge, turnedUp, unfound,
        unusable, wanted, modulesOf]
  | some id =>
    have hunfound : v.unfound [reference] = [] := by simp [unfound, hl]
    have hmodules : v.modulesOf [reference] = [id] := by simp [modulesOf, hl]
    have hedge : ∀ r : ReferenceRecord,
        (if (wantsEdge && !v.config.exemptions.isExempt v.module.name (v.graph.module id).name) =
          true then r.addEdge id else r) =
        ⟨r.missing, r.unconverted,
          (v.wanted (if wantsEdge then [reference] else [])).foldl Distinct.append r.edges⟩ := by
      intro r
      cases wantsEdge with
      | false => rfl
      | true =>
        cases hexempt : v.config.exemptions.isExempt v.module.name (v.graph.module id).name <;>
          simp [wanted, hmodules, hexempt, ReferenceRecord.addEdge]
    have hname : ∀ r : ReferenceRecord,
        (if v.isConverted id = true then r else r.addUnconverted (v.graph.module id).name) =
        ⟨r.missing, (v.unusable [reference]).foldl Distinct.append r.unconverted, r.edges⟩ := by
      intro r
      cases hconverted : v.isConverted id with
      | true =>
        have husable : ¬ v.Unusable id := by simp [← isConverted_eq_false_iff, hconverted]
        simp [unusable, hmodules, husable]
      | false =>
        have hunusable : v.Unusable id := isConverted_eq_false_iff.mp hconverted
        simp [unusable, hmodules, hunusable, ReferenceRecord.addUnconverted]
    simp only [note, hl, hedge, hname, ReferenceRecord.merge, turnedUp, hunfound, List.foldl_nil]

/-! ## What is noted -/

/-- Note references one after the other. -/
def noteEach (v : Viewpoint) (wantsEdge : Bool) (references : List Reference)
    (r : ReferenceRecord) : ReferenceRecord :=
  references.foldl (fun r reference => v.note wantsEdge reference r) r

/-- **To note references** is to merge what they turn up. -/
theorem noteEach_eq (v : Viewpoint) (wantsEdge : Bool) (references : List Reference)
    (r : ReferenceRecord) :
    v.noteEach wantsEdge references r =
      r.merge (v.turnedUp (if wantsEdge then references else []) references) := by
  induction references generalizing r with
  | nil => cases wantsEdge <;> rfl
  | cons reference rest ih =>
    show v.noteEach wantsEdge rest (v.note wantsEdge reference r) = _
    rw [ih, note_eq, ← ReferenceRecord.merge_append, ← turnedUp_append]
    cases wantsEdge <;> rfl

/-- The references among excluded entries, up to an entry that fails. -/
def excludedReferences (v : Viewpoint) (excludes : List String) : List Reference :=
  (collect (v.expandEntry []) excludes).1.filterMap Expanded.reference?

/-- The references among included entries: none if an excluded entry fails, and
otherwise those up to an entry that fails. -/
def includedReferences (v : Viewpoint) (paths excludes : List String) : List Reference :=
  let (out, error) := collect (v.expandEntry []) excludes
  match error with
  | some _ => []
  | none =>
    (collect (v.expandEntry (out.filterMap Expanded.path?)) paths).1.filterMap
      Expanded.reference?

/-- **What an expansion notes**: first what is excluded, without edges, and then
what is included. -/
theorem record_expand (v : Viewpoint) (paths excludes : List String) (r : ReferenceRecord) :
    (v.expand paths excludes r).2 =
      r.merge (v.turnedUp (v.includedReferences paths excludes)
        (v.excludedReferences excludes ++ v.includedReferences paths excludes)) := by
  have hnoted : (v.expand paths excludes r).2 =
      v.noteEach true (v.includedReferences paths excludes)
        (v.noteEach false (v.excludedReferences excludes) r) := by
    unfold expand includedReferences excludedReferences
    cases collect (v.expandEntry []) excludes with
    | mk out error =>
      cases error with
      | some e => rfl
      | none =>
        dsimp only
        cases collect (v.expandEntry (out.filterMap Expanded.path?)) paths with
        | mk found error =>
          cases error with
          | some e => rfl
          | none => rfl
  rw [hnoted, noteEach_eq, noteEach_eq, ← ReferenceRecord.merge_append, ← turnedUp_append]
  rfl

/-- The references to named modules, up to a name that fails. -/
def namedReferences (v : Viewpoint) (names : List String) : List Reference :=
  (collect v.expandName names).1.filterMap Expanded.reference?

theorem record_expandModules (v : Viewpoint) (names : List String) (r : ReferenceRecord) :
    (v.expandModules names r).2 = r.merge (v.turnedUp [] (v.namedReferences names)) := by
  have hnoted : (v.expandModules names r).2 = v.noteEach false (v.namedReferences names) r := by
    unfold expandModules namedReferences
    cases collect v.expandName names with
    | mk found error =>
      cases error with
      | some e => rfl
      | none => rfl
  rw [hnoted, noteEach_eq]
  rfl

end Viewpoint

/-! ## Conversions -/

/-- The references that a conversion includes: those among the entries that it has
expanded as paths, whatever becomes of it afterwards. -/
def Conversion.includes (v : Viewpoint) : Conversion α → ReferenceRecord → List Reference
  | done _, _ => []
  | expand paths excludes next, r =>
    let (found, r) := v.expand paths excludes r
    v.includedReferences paths excludes ++ (next found).includes v r
  | expandModules names next, r =>
    let (found, r) := v.expandModules names r
    (next found).includes v r
  | readProvider name kind next, r =>
    match v.dependencyProvider name kind with
    | .error _ => []
    | .ok found => (next found).includes v r
  | readRecord next, r => (next r).includes v r

/-- The references that a converter includes for a module. -/
def Converter.includes (c : Converter) (v : Viewpoint) : List Reference :=
  (c.convert v.module v.config v.label).includes v ReferenceRecord.empty

/-- The references that a conversion mentions: those among all entries that it has
expanded, in that order, whatever becomes of it afterwards. -/
def Conversion.mentions (v : Viewpoint) : Conversion α → ReferenceRecord → List Reference
  | done _, _ => []
  | expand paths excludes next, r =>
    let (found, r) := v.expand paths excludes r
    v.excludedReferences excludes ++ v.includedReferences paths excludes
      ++ (next found).mentions v r
  | expandModules names next, r =>
    let (found, r) := v.expandModules names r
    v.namedReferences names ++ (next found).mentions v r
  | readProvider name kind next, r =>
    match v.dependencyProvider name kind with
    | .error _ => []
    | .ok found => (next found).mentions v r
  | readRecord next, r => (next r).mentions v r

/-- The references that a converter mentions for a module. -/
def Converter.mentions (c : Converter) (v : Viewpoint) : List Reference :=
  (c.convert v.module v.config v.label).mentions v ReferenceRecord.empty

/-- **What a conversion leaves behind** is what its references turn up, however it ends. -/
theorem Conversion.record_run (c : Conversion α) (r : ReferenceRecord) :
    (c.run v r).2 = r.merge (v.turnedUp (c.includes v r) (c.mentions v r)) := by
  induction c generalizing r with
  | done result => rfl
  | expand paths excludes next ih =>
    have hincludes : (expand paths excludes next).includes v r =
        v.includedReferences paths excludes ++
          (next (v.expand paths excludes r).1).includes v (v.expand paths excludes r).2 := rfl
    have hmentions : (expand paths excludes next).mentions v r =
        v.excludedReferences excludes ++ v.includedReferences paths excludes ++
          (next (v.expand paths excludes r).1).mentions v (v.expand paths excludes r).2 := rfl
    rw [hincludes, hmentions, Viewpoint.turnedUp_append, ReferenceRecord.merge_append,
      ← Viewpoint.record_expand]
    exact ih _ _
  | expandModules names next ih =>
    have hincludes : (expandModules names next).includes v r =
        [] ++ (next (v.expandModules names r).1).includes v (v.expandModules names r).2 := rfl
    have hmentions : (expandModules names next).mentions v r =
        v.namedReferences names ++
          (next (v.expandModules names r).1).mentions v (v.expandModules names r).2 := rfl
    rw [hincludes, hmentions, Viewpoint.turnedUp_append, ReferenceRecord.merge_append,
      ← Viewpoint.record_expandModules]
    exact ih _ _
  | readProvider name kind next ih =>
    unfold Conversion.run Conversion.includes Conversion.mentions
    cases v.dependencyProvider name kind with
    | error fault => rfl
    | ok found => exact ih found r
  | readRecord next ih => exact ih r r

theorem Conversion.includes_subset (c : Conversion α) (r : ReferenceRecord) :
    c.includes v r ⊆ c.mentions v r := by
  induction c generalizing r with
  | done result => exact List.Subset.refl _
  | expand paths excludes next ih =>
    intro reference hmem
    rcases List.mem_append.mp hmem with hfirst | hlater
    · exact List.mem_append_left _ (List.mem_append_right _ hfirst)
    · exact List.mem_append_right _ (ih _ _ hlater)
  | expandModules names next ih => exact fun _ hmem => List.mem_append_right _ (ih _ _ hmem)
  | readProvider name kind next ih =>
    unfold Conversion.includes Conversion.mentions
    cases v.dependencyProvider name kind with
    | error fault => exact List.Subset.refl _
    | ok found => exact ih found r
  | readRecord next ih => exact ih r r

/-! ### Included references -/

/-- What a reference to a module leaves in the record: an edge, and the name of
the module where it has no usable target. -/
structure Viewpoint.Covers (v : Viewpoint) (id : ModuleId) (r : ReferenceRecord) : Prop where
  edge : id ∈ r.edges
  unconverted : v.isConverted id = false → (v.graph.module id).name ∈ r.unconverted

/-- **What was included is in the record**, however the conversion goes on. -/
theorem Conversion.covers_run {c : Conversion α} (hmem : reference ∈ c.includes v r)
    (hlookup : v.graph.lookup v.id reference.name = some id)
    (hexempt : v.config.exemptions.isExempt v.module.name (v.graph.module id).name = false) :
    v.Covers id (c.run v r).2 := by
  have hincluded : id ∈ v.modulesOf (c.includes v r) :=
    Viewpoint.mem_modulesOf.mpr ⟨reference, hmem, hlookup⟩
  have hmentioned : id ∈ v.modulesOf (c.mentions v r) :=
    Viewpoint.mem_modulesOf.mpr ⟨reference, c.includes_subset r hmem, hlookup⟩
  rw [c.record_run]
  constructor
  · exact Distinct.mem_foldl_append.mpr (.inr (Viewpoint.mem_wanted.mpr ⟨hincluded, hexempt⟩))
  · intro hunconverted
    have hunusable := Viewpoint.isConverted_eq_false_iff.mp hunconverted
    exact Distinct.mem_foldl_append.mpr
      (.inr (Viewpoint.mem_unusable.mpr ⟨id, hmentioned, hunusable, rfl⟩))

/-! ### Edges -/

/-- The edges for which a record asks lead to modules that are there, and none of them
is exempt. -/
def Viewpoint.Admits (v : Viewpoint) (r : ReferenceRecord) : Prop :=
  ∀ id ∈ r.edges, id < v.graph.size ∧
    v.config.exemptions.isExempt v.module.name (v.graph.module id).name = false

theorem Conversion.admits_run (c : Conversion α) (h : v.Admits r) : v.Admits (c.run v r).2 := by
  intro id hid
  rw [c.record_run] at hid
  rcases Distinct.mem_foldl_append.mp hid with hold | hwanted
  · exact h id hold
  · obtain ⟨hfound, hexempt⟩ := Viewpoint.mem_wanted.mp hwanted
    obtain ⟨reference, -, hlookup⟩ := Viewpoint.mem_modulesOf.mp hfound
    exact ⟨lookup_lt_size hlookup, hexempt⟩

/-! ### Names that denote no module -/

/-- **What is missing in the record** are the names that were mentioned and denote no
module, each at its first place, however the conversion ends. -/
theorem Conversion.missing_run (c : Conversion α) (r : ReferenceRecord) :
    (c.run v r).2.missing = (v.unfound (c.mentions v r)).foldl Distinct.append r.missing :=
  congrArg ReferenceRecord.missing (c.record_run r)

theorem Converter.missing_run (c : Converter) (v : Viewpoint) :
    (c.run v ReferenceRecord.empty).2.missing = Distinct.firsts (v.unfound (c.mentions v)) := by
  rw [← Distinct.foldl_append_nil]
  exact Conversion.missing_run _ _

end TargetGen
