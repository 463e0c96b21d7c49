import TargetGen.Build.Discovery
import TargetGen.Proofs.Build.Dependencies
import TargetGen.Proofs.Phase.Commits
import TargetGen.Proofs.Text

/-!
# Discovery — the declared dependencies and nothing else

What an entry requires of a module is one dependency at most. It is told by the kind
of the property and by what the entry refers to (`Build.Requires`), and does not
depend on other entries. So the entries can be read one by one, and what comes of all
of them is known from each: the edges to be added, and the names that denote no
module (`Build.discover_of_readable`).

The first entry that is malformed decides before anything else does
(`Build.discover_of_malformed`). One pass that looks up what it reads on the spot
finds the same (`Build.discoverInOnePass_eq`), since nothing that it has looked up
before the malformed entry is seen.
-/

namespace TargetGen

open TargetGen.Graph

variable {v : Viewpoint} {entry name : String} {reference : Reference} {kind : ReferenceKind}
  {tag : DepTag}

namespace Build

/-! ## What entries require -/

/-- An entry of a property of some kind requires the module of a name, with a tag. -/
inductive Requires (v : Viewpoint) : ReferenceKind → String → String → DepTag → Prop where
  /-- Among sources a reference asks for an output; a plain path requires nothing. -/
  | output {entry : String} {reference : Reference} : v.Refers entry reference →
      Requires v .sources entry reference.name (.outputOf reference.tag)
  | module {entry : String} {reference : Reference} : v.Means entry reference →
      Requires v .modules entry reference.name .ordinary
  | license {entry : String} {reference : Reference} : v.Means entry reference →
      Requires v .licenses entry reference.name .license

/-- The name and tag that an entry requires, if it does. -/
def required (v : Viewpoint) (entry : ReferenceKind × String) : Option (String × DepTag) :=
  match v.reference? entry.2 with
  | .ok reference => declared entry.1 entry.2 reference
  | .error _ => none

theorem required_eq_some_iff :
    required v (kind, entry) = some (name, tag) ↔ Requires v kind entry name tag := by
  have hname : ∀ found : Option Reference,
      (found.map Reference.name).getD entry = (found.getD ⟨entry, ""⟩).name := by
    intro found
    cases found <;> rfl
  unfold required
  constructor
  · intro h
    cases hread : v.reference? entry with
    | error e =>
      rw [hread] at h
      cases h
    | ok found =>
      rw [hread] at h
      cases kind with
      | sources =>
        cases found with
        | none => cases h
        | some reference =>
          obtain ⟨rfl, rfl⟩ := Prod.mk.inj (Option.some.inj h)
          exact .output (Viewpoint.refers_iff.mpr hread)
      | modules =>
        obtain ⟨rfl, rfl⟩ := Prod.mk.inj (Option.some.inj h)
        rw [hname]
        exact .module ((Viewpoint.means_iff hread).mpr rfl)
      | licenses =>
        obtain ⟨rfl, rfl⟩ := Prod.mk.inj (Option.some.inj h)
        rw [hname]
        exact .license ((Viewpoint.means_iff hread).mpr rfl)
  · intro h
    cases h with
    | output hrefers =>
      rw [Viewpoint.refers_iff.mp hrefers]
      rfl
    | module hmeans =>
      obtain ⟨found, hread, rfl⟩ := Viewpoint.exists_of_means hmeans
      rw [hread]
      simp only [declared, hname]
    | license hmeans =>
      obtain ⟨found, hread, rfl⟩ := Viewpoint.exists_of_means hmeans
      rw [hread]
      simp only [declared, hname]

/-! ## All entries -/

/-- The entries of some properties of a module, property by property. -/
def entriesOf (v : Viewpoint) (properties : List DependencyProperty) :
    List (ReferenceKind × String) :=
  properties.flatMap fun p => (v.module.list p.property).map (p.kind, ·)

/-- The names that some entries require and that denote no module, each at its first place. -/
def unfoundNames (v : Viewpoint) (entries : List (ReferenceKind × String)) : List String :=
  missingNames v (entries.filterMap (required v))

variable {properties : List DependencyProperty} {before after : List (ReferenceKind × String)}
  {e : ModuleError}

/-- Read one entry. -/
def readEntry (v : Viewpoint) (entry : ReferenceKind × String) :
    Except ModuleError (Option (String × DepTag)) := do
  return declared entry.1 entry.2 (← v.reference? entry.2)

theorem declarations_eq (v : Viewpoint) (properties : List DependencyProperty) :
    declarations v properties = (do
      let found ← (entriesOf v properties).mapM (readEntry v)
      return found.filterMap id) := rfl

theorem readEntry_of_readable {x : ReferenceKind × String} (h : ¬ v.Malformed x.2) :
    readEntry v x = .ok (required v x) := by
  obtain ⟨found, hread⟩ := Viewpoint.exists_reference_of_readable h
  rw [readEntry, required, hread]
  rfl

theorem declarations_of_readable (h : ∀ x ∈ entriesOf v properties, ¬ v.Malformed x.2) :
    declarations v properties = .ok ((entriesOf v properties).filterMap (required v)) := by
  have hall : (entriesOf v properties).mapM (readEntry v) =
      .ok ((entriesOf v properties).map (required v)) := by
    rw [mapM_eq_ok_iff, List.forall₂_map_right_iff, List.forall₂_same]
    intro x hx
    exact readEntry_of_readable (h x hx)
  rw [declarations_eq, hall]
  show Except.ok (((entriesOf v properties).map (required v)).filterMap id) = _
  rw [List.filterMap_map]
  rfl

theorem readable_of_declarations {found : List (String × DepTag)}
    (h : declarations v properties = .ok found) :
    ∀ x ∈ entriesOf v properties, ¬ v.Malformed x.2 := by
  rintro x hx ⟨fault, hread⟩
  rw [declarations_eq] at h
  obtain ⟨all, hall, -⟩ := bind_eq_ok h
  obtain ⟨result, -, hresult⟩ := exists_result_of_mapM hall hx
  rw [readEntry, hread] at hresult
  cases hresult

theorem declarations_of_malformed (h : entriesOf v properties = before ++ (kind, entry) :: after)
    (hbefore : ∀ x ∈ before, ¬ v.Malformed x.2) (hread : v.reference? entry = .error e) :
    declarations v properties = .error e := by
  have hall : (before ++ (kind, entry) :: after).mapM (readEntry v) = .error e := by
    apply mapM_eq_error_of_first
    · intro x hx
      exact ⟨_, readEntry_of_readable (hbefore x hx)⟩
    · rw [readEntry, hread]
      rfl
  rw [declarations_eq, h, hall]
  rfl

/-! ## One pass -/

/-- Look some dependencies up, one after the other. -/
def Findings.noteAll (v : Viewpoint) (found : List (String × DepTag)) (f : Findings) : Findings :=
  found.foldl (fun f d => f.note v d.1 d.2) f

section

variable (found : List (String × DepTag)) (tag : DepTag) {id : ModuleId}

theorem declaredEdges_cons_of_none (h : v.graph.lookup v.id name = none) :
    declaredEdges v ((name, tag) :: found) = declaredEdges v found := by
  apply List.filterMap_cons_none
  show (v.graph.lookup v.id name).bind _ = none
  rw [h]
  rfl

theorem declaredEdges_cons_of_exempt (h : v.graph.lookup v.id name = some id)
    (hexempt : v.config.exemptions.isExempt v.module.name (v.graph.module id).name = true) :
    declaredEdges v ((name, tag) :: found) = declaredEdges v found := by
  apply List.filterMap_cons_none
  show (v.graph.lookup v.id name).bind _ = none
  rw [h, Option.bind_some, hexempt]
  rfl

theorem declaredEdges_cons_of_admitted (h : v.graph.lookup v.id name = some id)
    (hexempt : v.config.exemptions.isExempt v.module.name (v.graph.module id).name = false) :
    declaredEdges v ((name, tag) :: found) = (id, tag) :: declaredEdges v found := by
  apply List.filterMap_cons_some
  show (v.graph.lookup v.id name).bind _ = some (id, tag)
  rw [h, Option.bind_some, hexempt]
  rfl

end

theorem Findings.noteAll_eq (v : Viewpoint) (found : List (String × DepTag)) (f : Findings) :
    noteAll v found f =
      ⟨f.edges ++ declaredEdges v found,
        ((found.map Prod.fst).filter fun name => (v.graph.lookup v.id name).isNone).foldl
          Distinct.append f.missing⟩ := by
  induction found generalizing f with
  | nil =>
    rw [declaredEdges, List.filterMap_nil, List.append_nil]
    rfl
  | cons d rest ih =>
    obtain ⟨name, tag⟩ := d
    show noteAll v rest (f.note v name tag) = _
    rw [ih]
    cases hlookup : v.graph.lookup v.id name with
    | none =>
      rw [declaredEdges_cons_of_none rest tag hlookup]
      simp [note, hlookup, Distinct.append, apply_ite]
    | some id =>
      cases hexempt : v.config.exemptions.isExempt v.module.name (v.graph.module id).name with
      | true =>
        rw [declaredEdges_cons_of_exempt rest tag hlookup hexempt]
        simp [note, hlookup, hexempt]
      | false =>
        rw [declaredEdges_cons_of_admitted rest tag hlookup hexempt]
        simp [note, hlookup, hexempt]

/-- To visit entries one after the other is to read them all and then to look up what
they declare. -/
theorem foldlM_visit (v : Viewpoint) (entries : List (ReferenceKind × String)) (f : Findings) :
    entries.foldlM (fun f x => Findings.visit v x.1 f x.2) f = (do
      let found ← entries.mapM (readEntry v)
      return Findings.noteAll v (found.filterMap id) f) := by
  induction entries generalizing f with
  | nil => rfl
  | cons x rest ih =>
    obtain ⟨kind, entry⟩ := x
    cases hread : v.reference? entry with
    | error e =>
      rw [List.foldlM_cons, List.mapM_cons, Findings.visit, readEntry, hread]
      rfl
    | ok reference =>
      have hentry : readEntry v (kind, entry) = .ok (declared kind entry reference) := by
        rw [readEntry, hread]
        rfl
      have hvisit : Findings.visit v kind f entry =
          .ok (Findings.noteAll v (declared kind entry reference).toList f) := by
        rw [Findings.visit, hread]
        dsimp only [bind, Except.bind]
        cases declared kind entry reference with
        | none => rfl
        | some d => rfl
      rw [List.foldlM_cons, List.mapM_cons, hentry, hvisit]
      show rest.foldlM _ (Findings.noteAll v (declared kind entry reference).toList f) = _
      rw [ih]
      cases rest.mapM (readEntry v) with
      | error e => rfl
      | ok found =>
        cases declared kind entry reference with
        | none => rfl
        | some d => rfl

theorem foldlM_properties (v : Viewpoint) (properties : List DependencyProperty) (f : Findings) :
    properties.foldlM
        (fun f p => (v.module.list p.property).foldlM (Findings.visit v p.kind) f) f =
      (entriesOf v properties).foldlM (fun f x => Findings.visit v x.1 f x.2) f := by
  induction properties generalizing f with
  | nil => rfl
  | cons p rest ih =>
    rw [entriesOf, List.flatMap_cons, List.foldlM_append, List.foldlM_map, List.foldlM_cons]
    apply bind_congr
    exact ih

theorem ofProperties_eq (v : Viewpoint) (properties : List DependencyProperty) :
    Findings.ofProperties v properties =
      (declarations v properties).map fun found =>
        ⟨declaredEdges v found, missingNames v found⟩ := by
  rw [Findings.ofProperties, foldlM_properties, foldlM_visit, declarations_eq]
  cases (entriesOf v properties).mapM (readEntry v) with
  | error e => rfl
  | ok found =>
    show Except.ok (Findings.noteAll v (found.filterMap id) Findings.empty) = _
    rw [Findings.noteAll_eq, Findings.empty, List.nil_append, Distinct.foldl_append_nil]
    rfl

/-- **One pass** finds what reading first and looking up afterwards finds. -/
theorem discoverInOnePass_eq (v : Viewpoint) : discoverInOnePass v = discover v := by
  unfold discoverInOnePass discover
  cases v.registry.get? v.module.moduleType with
  | none => rfl
  | some type =>
    simp only [ofProperties_eq]
    cases declarations v type.dependencyProperties with
    | error e => rfl
    | ok found => rfl

/-! ## The whole step -/

section

variable {type : ModuleType} (htype : v.registry.get? v.module.moduleType = some type)

include htype

theorem discover_of_malformed
    (h : entriesOf v type.dependencyProperties = before ++ (kind, entry) :: after)
    (hbefore : ∀ x ∈ before, ¬ v.Malformed x.2) (hread : v.reference? entry = .error e) :
    discover v = .error e := by
  unfold discover
  rw [htype]
  simp only [declarations_of_malformed h hbefore hread]
  rfl

/-- Where all entries can be read, names that denote no module fail the module if they
are not allowed. -/
theorem discover_of_readable
    (h : ∀ x ∈ entriesOf v type.dependencyProperties, ¬ v.Malformed x.2) :
    discover v =
      if unfoundNames v (entriesOf v type.dependencyProperties) ≠ [] ∧
          v.config.allowMissing = false then
        .error (.missingDependencies (unfoundNames v (entriesOf v type.dependencyProperties)))
      else .ok ⟨[.discovery (unfoundNames v (entriesOf v type.dependencyProperties))],
        declaredEdges v ((entriesOf v type.dependencyProperties).filterMap (required v))⟩ := by
  unfold discover
  rw [htype]
  simp only [declarations_of_readable h]
  rfl

/-- **A discovery that succeeds** has read all entries, and found what they require or
recorded that it is missing. -/
theorem readable_of_discover {output : StepOutput} (h : discover v = .ok output) :
    (∀ x ∈ entriesOf v type.dependencyProperties, ¬ v.Malformed x.2) ∧
    (unfoundNames v (entriesOf v type.dependencyProperties) = [] ∨ v.config.allowMissing = true) ∧
    output = ⟨[.discovery (unfoundNames v (entriesOf v type.dependencyProperties))],
      declaredEdges v ((entriesOf v type.dependencyProperties).filterMap (required v))⟩ := by
  rcases discover_eq_ok h with ⟨hnone, -⟩ | ⟨type', found, htype', hfound, htolerated, rfl⟩
  · rw [htype] at hnone
    cases hnone
  · obtain rfl := Option.some.inj (htype.symm.trans htype')
    have hreadable := readable_of_declarations hfound
    obtain rfl := Except.ok.inj (hfound.symm.trans (declarations_of_readable hreadable))
    exact ⟨hreadable, htolerated, rfl⟩

end

theorem mem_required {entries : List (ReferenceKind × String)} :
    (name, tag) ∈ entries.filterMap (required v) ↔
      ∃ kind entry, (kind, entry) ∈ entries ∧ Requires v kind entry name tag := by
  rw [List.mem_filterMap]
  constructor
  · rintro ⟨⟨kind, entry⟩, hentry, hrequired⟩
    exact ⟨kind, entry, hentry, required_eq_some_iff.mp hrequired⟩
  · rintro ⟨kind, entry, hentry, hrequires⟩
    exact ⟨(kind, entry), hentry, required_eq_some_iff.mpr hrequires⟩

theorem mem_unfoundNames {entries : List (ReferenceKind × String)} :
    name ∈ unfoundNames v entries ↔
      (∃ kind entry tag, (kind, entry) ∈ entries ∧ Requires v kind entry name tag) ∧
        v.graph.lookup v.id name = none := by
  rw [unfoundNames, missingNames, Distinct.mem_firsts, List.mem_filter, Option.isNone_iff_eq_none]
  apply and_congr_left'
  constructor
  · intro h
    obtain ⟨⟨name, tag⟩, hfound, rfl⟩ := List.mem_map.mp h
    obtain ⟨kind, entry, hentry, hrequires⟩ := mem_required.mp hfound
    exact ⟨kind, entry, tag, hentry, hrequires⟩
  · rintro ⟨kind, entry, tag, hentry, hrequires⟩
    exact List.mem_map_of_mem (mem_required.mpr ⟨kind, entry, hentry, hrequires⟩)

/-- An edge that some entries of a module ask for: one to a module that an entry
requires, unless the pair is exempt. -/
structure Wants (v : Viewpoint) (entries : List (ReferenceKind × String)) (e : Edge) : Prop where
  source : e.source = v.id
  entry : ∃ kind entry name, (kind, entry) ∈ entries ∧ Requires v kind entry name e.tag ∧
    v.graph.lookup v.id name = some e.target
  admitted : v.config.exemptions.isExempt v.module.name (v.graph.module e.target).name = false

theorem mem_edgesFrom_declaredEdges {entries : List (ReferenceKind × String)} {e : Edge} :
    e ∈ edgesFrom v.id (declaredEdges v (entries.filterMap (required v))) ↔
      Wants v entries e := by
  obtain ⟨source, target, tag⟩ := e
  have hmem : (target, tag) ∈ declaredEdges v (entries.filterMap (required v)) ↔
      (∃ kind entry name, (kind, entry) ∈ entries ∧ Requires v kind entry name tag ∧
        v.graph.lookup v.id name = some target) ∧
      v.config.exemptions.isExempt v.module.name (v.graph.module target).name = false := by
    rw [mem_declaredEdges]
    constructor
    · rintro ⟨name, hfound, hlookup, hexempt⟩
      obtain ⟨kind, entry, hentry, hrequires⟩ := mem_required.mp hfound
      exact ⟨⟨kind, entry, name, hentry, hrequires, hlookup⟩, hexempt⟩
    · rintro ⟨⟨kind, entry, name, hentry, hrequires, hlookup⟩, hexempt⟩
      exact ⟨name, mem_required.mpr ⟨kind, entry, hentry, hrequires⟩, hlookup, hexempt⟩
  rw [edgesFrom, List.mem_map]
  constructor
  · rintro ⟨⟨target', tag'⟩, hedge, heq⟩
    obtain ⟨rfl, rfl, rfl⟩ := Edge.mk.inj heq
    obtain ⟨hentry, hexempt⟩ := hmem.mp hedge
    exact ⟨rfl, hentry, hexempt⟩
  · rintro ⟨hsource, hentry, hexempt⟩
    obtain rfl : source = v.id := hsource
    exact ⟨(target, tag), hmem.mpr ⟨hentry, hexempt⟩, rfl⟩

/-- **Discovery adds the declared dependencies and nothing else.** The first malformed
entry fails the module, or else the names that denote no module, if they are not allowed;
then no edge is committed. Otherwise those edges are added that an entry asks for and
that are not there, each of them once. One pass over the entries comes to the same. -/
theorem discovery_adds_declared_dependencies {type : ModuleType} {now : Graph}
    (htype : v.registry.get? v.module.moduleType = some type) (hid : v.id < now.size)
    (hfresh : .discovery ∉ now.kinds v.id) :
    (∀ before kind entry after,
      entriesOf v type.dependencyProperties = before ++ (kind, entry) :: after →
      (∀ x ∈ before, ¬ v.Malformed x.2) → v.Malformed entry →
        (∃ fault, v.reference? entry = .error (.malformedReference entry fault) ∧
          discover v = .error (.malformedReference entry fault)) ∧
        (now.commit discovery.name v.id (.ran (discover v))).1.edges = now.edges) ∧
    ((∀ x ∈ entriesOf v type.dependencyProperties, ¬ v.Malformed x.2) →
      (unfoundNames v (entriesOf v type.dependencyProperties) ≠ [] →
        v.config.allowMissing = false →
        discover v = .error
          (.missingDependencies (unfoundNames v (entriesOf v type.dependencyProperties))) ∧
        (now.commit discovery.name v.id (.ran (discover v))).1.edges = now.edges) ∧
      (unfoundNames v (entriesOf v type.dependencyProperties) = [] ∨
          v.config.allowMissing = true →
        (∃ output, discover v = .ok output) ∧
        (now.commit discovery.name v.id (.ran (discover v))).2 = none ∧
        ∃ added, (now.commit discovery.name v.id (.ran (discover v))).1.edges = now.edges ++ added ∧
          added.Nodup ∧
          ∀ e, e ∈ added ↔ e ∉ now.edges ∧ Wants v (entriesOf v type.dependencyProperties) e)) ∧
    discoverInOnePass v = discover v := by
  refine ⟨?_, ?_, discoverInOnePass_eq v⟩
  · rintro before kind entry after hentries hbefore ⟨fault, hread⟩
    have hdiscover := discover_of_malformed htype hentries hbefore hread
    refine ⟨⟨fault, hread, hdiscover⟩, ?_⟩
    rw [hdiscover]
    rfl
  · intro hreadable
    have hdiscover := discover_of_readable htype hreadable
    constructor
    · intro hunfound hstrict
      rw [if_pos ⟨hunfound, hstrict⟩] at hdiscover
      refine ⟨hdiscover, ?_⟩
      rw [hdiscover]
      rfl
    · intro htolerated
      rw [if_neg (tolerated_iff.mpr htolerated)] at hdiscover
      have hclean : (now.commit discovery.name v.id (.ran (discover v))).2 = none := by
        rw [hdiscover]
        apply commit_of_fresh discovery.name hid
        · show [ProviderKind.discovery].Nodup
          decide
        · intro p hp
          obtain rfl := List.mem_singleton.mp hp
          exact hfresh
      refine ⟨⟨_, hdiscover⟩, hclean, ?_⟩
      rw [edges_commit hclean, hdiscover, Distinct.foldl_append_eq _ fun _ => Iff.rfl]
      refine ⟨_, rfl, Distinct.nodup_byKey_id _ _, ?_⟩
      intro e
      rw [Distinct.mem_byKey_id, and_comm]
      exact and_congr_right fun _ => mem_edgesFrom_declaredEdges

/-- A module that names `base` three times, one of them as its license, and that has an
output of `gen` among its sources. -/
def declaringGraph : Graph :=
  (Graph.ofModules vendorTypes
    [(((Module.plain "app" "lib" "x").withProp "deps" (.list ["base", ":base"])).withProp "srcs"
        (.list ["a.c", ":gen\x7bx\x7d"])).withProp "licenses" (.list ["base"]),
      Module.plain "base" "lib" "x", Module.plain "gen" "lib" "x"]).toOption.getD default

theorem declaring_module_gets_its_edges :
    ∃ added, (declaringGraph.commit discovery.name 0
        (.ran (discover ⟨declaringGraph, vendorTypes, vendorConfig, 0⟩))).1.edges =
          declaringGraph.edges ++ added ∧ added.Nodup ∧
      ⟨0, 1, .ordinary⟩ ∈ added ∧ ⟨0, 2, .outputOf "x"⟩ ∈ added ∧ ⟨0, 1, .license⟩ ∈ added := by
  have hread : ∀ x ∈ entriesOf ⟨declaringGraph, vendorTypes, vendorConfig, 0⟩
      DependencyProperty.standard, (Viewpoint.reference?
        ⟨declaringGraph, vendorTypes, vendorConfig, 0⟩ x.2).toOption.isSome = true := by
    decide +kernel
  have hedges : ∀ e ∈ [⟨0, 1, .ordinary⟩, ⟨0, 2, .outputOf "x"⟩, ⟨0, 1, .license⟩],
      e ∉ declaringGraph.edges ∧
        Wants ⟨declaringGraph, vendorTypes, vendorConfig, 0⟩
          (entriesOf ⟨declaringGraph, vendorTypes, vendorConfig, 0⟩ DependencyProperty.standard)
          e := by
    intro e he
    constructor
    · rw [show declaringGraph.edges = [] by decide +kernel]
      exact List.not_mem_nil
    · apply mem_edgesFrom_declaredEdges.mp
      revert e
      decide +kernel
  have htype : vendorTypes.get? (declaringGraph.module 0).moduleType =
      some ⟨.native, DependencyProperty.standard⟩ := rfl
  have hid : 0 < declaringGraph.size := by decide +kernel
  have hfresh : .discovery ∉ declaringGraph.kinds 0 := by decide +kernel
  obtain ⟨-, hreadable, -⟩ := discovery_adds_declared_dependencies
    (v := ⟨declaringGraph, vendorTypes, vendorConfig, 0⟩) htype hid hfresh
  have hall := hreadable ?_
  · obtain ⟨-, -, added, hadded, hnodup, hmem⟩ := hall.2 (.inl (by decide +kernel))
    refine ⟨added, hadded, hnodup, ?_, ?_, ?_⟩
    · exact (hmem _).mpr (hedges _ (by simp))
    · exact (hmem _).mpr (hedges _ (by simp))
    · exact (hmem _).mpr (hedges _ (by simp))
  · rintro x hx ⟨fault, herror⟩
    have hsome := hread x hx
    rw [herror] at hsome
    cases hsome

end Build

end TargetGen
