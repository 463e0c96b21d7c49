import TargetGen.Proofs.Conversion
import TargetGen.Proofs.Expansion.Gathering

/-!
# Records — what all references of a module have turned up

A module asks for one list after another, and what the references among their entries turn
up is gathered in one record. A list of paths is read with what is excluded from it first;
all its references are mentioned, but only the paths want edges. A list of names mentions
what its entries mean and wants no edges.

To note references is to merge what they turn up into the record, in their order and each
thing once (`Viewpoint.noteEach_eq`). Merging one after the other is merging all at once, so
the record at the end depends on all references alone, and not on how they were spread over
the lists (`Viewpoint.Answered.record`).
-/

namespace TargetGen

variable {v : Viewpoint} {entry : String} {reference : Reference} {r r' : ReferenceRecord}
  {list : LabelList}

namespace Viewpoint

/-! ## What lists mention -/

/-- The reference that an entry is, if it is one. -/
def refersTo? (v : Viewpoint) (entry : String) : Option Reference :=
  match v.reference? entry with
  | .ok found => found
  | .error _ => none

theorem refersTo?_eq_some_iff : v.refersTo? entry = some reference ↔ v.Refers entry reference := by
  rw [refers_iff, refersTo?]
  cases v.reference? entry with
  | ok found => exact ⟨congrArg Except.ok, Except.ok.inj⟩
  | error e => simp

/-- What an entry of a list of names means: the reference that it is, or else the module of
that very name. -/
def meant (v : Viewpoint) (entry : String) : Reference := (v.refersTo? entry).getD ⟨entry, ""⟩

theorem Means.meant_eq (h : v.Means entry reference) : v.meant entry = reference := by
  obtain ⟨found, hread, hfound⟩ := exists_of_means h
  rw [meant, refersTo?, hread]
  exact hfound

theorem filterMap_of_collect {f : String → Except ModuleError Expanded}
    {reads : String → Option Reference} {entries : List String} {found : List Expanded}
    (hreads : ∀ entry e, f entry = .ok e → e.reference? = reads entry)
    (h : collect f entries = (found, none)) :
    found.filterMap Expanded.reference? = entries.filterMap reads := by
  rw [collect_eq_iff_mapM, mapM_eq_ok_iff] at h
  induction h with
  | nil => rfl
  | cons hentry _ ih => rw [List.filterMap_cons, List.filterMap_cons, hreads _ _ hentry, ih]

theorem refersTo?_of_expandEntry {excludes : List String} {e : Expanded}
    (h : v.expandEntry excludes entry = .ok e) : e.reference? = v.refersTo? entry := by
  rw [refersTo?, reference?_of_expandEntry h]

theorem meant_of_expandName {e : Expanded} (h : v.expandName entry = .ok e) :
    e.reference? = some (v.meant entry) := by
  obtain ⟨reference, hreference, hmeans⟩ := exists_means_of_expandName h
  rw [hreference, hmeans.meant_eq]

theorem references_of_expand {paths excludes : List String}
    (h : (v.expand paths excludes r).1 = .ok list) :
    v.excludedReferences excludes = excludes.filterMap v.refersTo? ∧
      v.includedReferences paths excludes = paths.filterMap v.refersTo? := by
  obtain ⟨out, found, hout, hfound, -⟩ := expand_eq_ok_iff.mp h
  unfold excludedReferences includedReferences
  simp only [hout, hfound]
  exact ⟨filterMap_of_collect (fun _ _ => refersTo?_of_expandEntry) hout,
    filterMap_of_collect (fun _ _ => refersTo?_of_expandEntry) hfound⟩

theorem references_of_expandModules {names : List String}
    (h : (v.expandModules names r).1 = .ok list) :
    v.namedReferences names = names.map v.meant := by
  unfold expandModules at h
  unfold namedReferences
  cases hfound : collect v.expandName names with
  | mk found error =>
    rw [hfound] at h
    cases error with
    | some e => cases h
    | none =>
      rw [filterMap_of_collect (fun _ _ => meant_of_expandName) hfound,
        List.filterMap_eq_map']

/-! ## Lists one after the other -/

/-- A list for which a module asks. -/
inductive Request where
  | expand (paths excludes : List String)
  | expandModules (names : List String)

/-- The answer to a request, and the record after it. -/
def answer (v : Viewpoint) : Request → ReferenceRecord → Except ModuleError LabelList × ReferenceRecord
  | .expand paths excludes, r => v.expand paths excludes r
  | .expandModules names, r => v.expandModules names r

/-- The references that want edges: those among paths. -/
def Request.included (v : Viewpoint) : Request → List Reference
  | expand paths _ => paths.filterMap v.refersTo?
  | expandModules _ => []

/-- All references, with what is excluded before what is not. -/
def Request.mentioned (v : Viewpoint) : Request → List Reference
  | expand paths excludes => excludes.filterMap v.refersTo? ++ paths.filterMap v.refersTo?
  | expandModules names => names.map v.meant

/-- Requests are answered one after the other, each with the record that the last one left. -/
inductive Answered (v : Viewpoint) : List Request → ReferenceRecord → ReferenceRecord → Prop where
  | nil {r : ReferenceRecord} : Answered v [] r r
  | cons {request : Request} {rest : List Request} {list : LabelList}
      {r r' r'' : ReferenceRecord} : v.answer request r = (.ok list, r') →
      Answered v rest r' r'' → Answered v (request :: rest) r r''

/-- **One answer** merges what the references of its request turn up. -/
theorem record_of_answer {request : Request} (h : v.answer request r = (.ok list, r')) :
    r' = r.merge (v.turnedUp (request.included v) (request.mentioned v)) := by
  have hlist : (v.answer request r).1 = .ok list := congrArg Prod.fst h
  have hrecord : (v.answer request r).2 = r' := congrArg Prod.snd h
  cases request with
  | expand paths excludes =>
    obtain ⟨hexcluded, hincluded⟩ := references_of_expand hlist
    rw [← hrecord, answer, record_expand, hexcluded, hincluded]
    rfl
  | expandModules names =>
    rw [← hrecord, answer, record_expandModules, references_of_expandModules hlist]
    rfl

/-- **All answers** merge what all references turn up. -/
theorem Answered.record {requests : List Request} (h : v.Answered requests r r') :
    r' = r.merge (v.turnedUp (requests.flatMap (Request.included v))
      (requests.flatMap (Request.mentioned v))) := by
  induction h with
  | nil => rfl
  | cons hanswer _ ih =>
    rw [ih, record_of_answer hanswer, ← ReferenceRecord.merge_append, ← turnedUp_append]
    rfl

/-- An edge is asked for by a reference among paths. -/
theorem Answered.mem_edges_iff {requests : List Request} {id : ModuleId}
    (h : v.Answered requests ReferenceRecord.empty r) :
    id ∈ r.edges ↔
      (∃ paths excludes, .expand paths excludes ∈ requests ∧ ∃ entry ∈ paths, ∃ reference,
        v.Refers entry reference ∧ v.graph.lookup v.id reference.name = some id) ∧
      v.config.exemptions.isExempt v.module.name (v.graph.module id).name = false := by
  have hincluded : ∀ reference, reference ∈ requests.flatMap (Request.included v) ↔
      ∃ paths excludes, .expand paths excludes ∈ requests ∧ ∃ entry ∈ paths,
        v.Refers entry reference := by
    intro reference
    simp only [← refersTo?_eq_some_iff, ← List.mem_filterMap, List.mem_flatMap]
    constructor
    · rintro ⟨request, hrequest, hmem⟩
      cases request with
      | expand paths excludes => exact ⟨paths, excludes, hrequest, hmem⟩
      | expandModules names => cases hmem
    · rintro ⟨paths, excludes, hrequest, hmem⟩
      exact ⟨_, hrequest, hmem⟩
  rw [h.record, ReferenceRecord.empty_merge, turnedUp, Distinct.mem_firsts, mem_wanted,
    mem_modulesOf]
  refine and_congr_left' ?_
  constructor
  · rintro ⟨reference, hmem, hlookup⟩
    obtain ⟨paths, excludes, hrequest, entry, hentry, hrefers⟩ := (hincluded reference).mp hmem
    exact ⟨paths, excludes, hrequest, entry, hentry, reference, hrefers, hlookup⟩
  · rintro ⟨paths, excludes, hrequest, entry, hentry, reference, hrefers, hlookup⟩
    exact ⟨reference,
      (hincluded reference).mpr ⟨paths, excludes, hrequest, entry, hentry, hrefers⟩, hlookup⟩

/-- **The record of a module.** It lists each thing once, in the order of the references:
the modules found among the paths that are not exempt, and so never the module itself; the
names of all references that find no module; and the names of the modules found that have
no usable target. -/
theorem record_of_answered {requests : List Request}
    (h : v.Answered requests ReferenceRecord.empty r) :
    r.edges = Distinct.firsts (v.wanted (requests.flatMap (Request.included v))) ∧
      v.id ∉ r.edges ∧
      r.missing = Distinct.firsts (v.unfound (requests.flatMap (Request.mentioned v))) ∧
      r.unconverted = Distinct.firsts (v.unusable (requests.flatMap (Request.mentioned v))) := by
  have hrecord := h.record
  rw [ReferenceRecord.empty_merge] at hrecord
  obtain rfl := hrecord
  refine ⟨rfl, ?_, rfl, rfl⟩
  intro hself
  exact self_notMem_wanted v _ (Distinct.mem_firsts.mp hself)

/-- A module that sees one with a label of its own, one without, one that has failed, and one
that is exempt. -/
def gatheringView : Viewpoint where
  graph := ⟨[
    ⟨Module.plain "m" "lib" "x", ProviderStore.empty, []⟩,
    ⟨(Module.plain "own" "lib" "y").withLabel "//y:out", ProviderStore.empty, []⟩,
    ⟨Module.plain "bare" "lib" "y", ProviderStore.empty, []⟩,
    ⟨(Module.plain "broken" "lib" "y").withLabel "//y:no", ProviderStore.empty,
      [.conversion "no"]⟩,
    ⟨Module.plain "tool" "lib" "z", ProviderStore.empty, []⟩], []⟩
  registry := Registry.empty
  config :=
    { Config.ofTree Listing.empty.sourceTree with
      exemptions := ⟨NameSet.empty, NameSet.empty.insert "tool"⟩ }
  id := 0

/-- The last request wants an edge to `broken` although it excludes it. -/
def gatheringRequests : List Request :=
  [.expand [":own", "a.c", ":m", ":tool", ":gone", ":own"] [":bare", ":lost"],
    .expandModules ["bare", "gone", "away"],
    .expand [":broken", ":own"] [":broken"]]

theorem gathering_record :
    gatheringView.Answered gatheringRequests ReferenceRecord.empty
        ⟨["lost", "gone", "away"], ["bare", "m", "tool", "broken"], [1, 3]⟩ ∧
      Distinct.firsts
        (gatheringView.wanted (gatheringRequests.flatMap (Request.included gatheringView))) =
        [1, 3] := by
  have hsources : gatheringView.answer
      (.expand [":own", "a.c", ":m", ":tool", ":gone", ":own"] [":bare", ":lost"])
      ReferenceRecord.empty =
      (.ok ⟨[⟨"//y:out", ":own"⟩, ⟨"a.c", "a.c"⟩, ⟨":m", ":m"⟩, ⟨"//z:tool", ":tool"⟩,
        ⟨":gone__BP2BUILD__MISSING__DEP", ":gone"⟩],
        [⟨"//y:bare", ":bare"⟩, ⟨":lost__BP2BUILD__MISSING__DEP", ":lost"⟩]⟩,
        ⟨["lost", "gone"], ["bare", "m", "tool"], [1]⟩) := by
    decide +kernel
  have hnames : gatheringView.answer (.expandModules ["bare", "gone", "away"])
      ⟨["lost", "gone"], ["bare", "m", "tool"], [1]⟩ =
      (.ok ⟨[⟨"//y:bare", "bare"⟩, ⟨":gone__BP2BUILD__MISSING__DEP", "gone"⟩,
        ⟨":away__BP2BUILD__MISSING__DEP", "away"⟩], []⟩,
        ⟨["lost", "gone", "away"], ["bare", "m", "tool"], [1]⟩) := by
    decide +kernel
  have hexcluded : gatheringView.answer (.expand [":broken", ":own"] [":broken"])
      ⟨["lost", "gone", "away"], ["bare", "m", "tool"], [1]⟩ =
      (.ok ⟨[⟨"//y:out", ":own"⟩], [⟨"//y:no", ":broken"⟩]⟩,
        ⟨["lost", "gone", "away"], ["bare", "m", "tool", "broken"], [1, 3]⟩) := by
    decide +kernel
  have hanswered : gatheringView.Answered gatheringRequests ReferenceRecord.empty
      ⟨["lost", "gone", "away"], ["bare", "m", "tool", "broken"], [1, 3]⟩ :=
    .cons hsources (.cons hnames (.cons hexcluded .nil))
  exact ⟨hanswered, (record_of_answered hanswered).1.symm⟩

end Viewpoint

end TargetGen
