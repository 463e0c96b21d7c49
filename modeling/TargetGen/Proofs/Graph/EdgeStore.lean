import Mathlib.Data.Finset.Card
import Mathlib.Data.List.Sort
import TargetGen.Graph.EdgeStore
import TargetGen.Proofs.Graph.Level
import TargetGen.Proofs.Graph.Loader
import TargetGen.Proofs.Phase.Commits

/-!
# Edge store — the same edges, however they are kept

A store that takes parallel edges and lists them in any order holds, after some additions,
the edges of the graph in some order (`EdgeStore.Holds`): a search through the edges
between two modules finds a tag just when the graph has that very edge. What is listed is
sorted, so the order is lost again, and the store is asked with the same result as the
graph.

What the graph says of its edges depends on which ones were added, not on how often or
when (`EdgeView.Reflects`). Whether an edge is new when it is added, however, does depend
on those before it.
-/

namespace TargetGen

open TargetGen.Graph

variable {g : Graph} {e : Edge} {a b id : ModuleId} {added edges : List Edge}

theorem Ordered.increasing_mergeSort {α : Type} {cmp : α → α → Ordering} [Std.TransCmp cmp]
    [Std.LawfulEqCmp cmp] {xs : List α} (h : xs.Nodup) :
    Ordered.Increasing cmp (xs.mergeSort fun a b => (cmp a b).isLE) := by
  have htotal : ∀ a b, ((cmp a b).isLE || (cmp b a).isLE) = true := by
    intro a b
    have hswap : cmp b a = (cmp a b).swap := Std.OrientedCmp.eq_swap
    rw [hswap]
    cases cmp a b <;> rfl
  have hsorted : (xs.mergeSort fun a b => (cmp a b).isLE).Pairwise fun a b => (cmp a b).isLE :=
    List.pairwise_mergeSort (fun _ _ _ => Std.TransCmp.isLE_trans) htotal xs
  have hnodup := (List.mergeSort_perm xs fun a b => (cmp a b).isLE).nodup_iff.mpr h
  refine (hsorted.and hnodup).imp fun {x y} hxy => ?_
  obtain ⟨hle, hne⟩ := hxy
  cases hcmp : cmp x y with
  | lt => rfl
  | eq => exact absurd (Std.LawfulEqCmp.eq_of_compare hcmp) hne
  | gt => rw [hcmp] at hle; cases hle

/-! ## What the graph says of its edges -/

namespace Graph

@[simp] theorem mem_dependencies {d : Dependency} :
    d ∈ g.dependencies a ↔ ⟨a, d.1, d.2⟩ ∈ g.edges := by
  rw [dependencies, Ordered.mem_ofList_iff, List.mem_map]
  constructor
  · rintro ⟨e, he, rfl⟩
    obtain ⟨he, hsource⟩ := List.mem_filter.mp he
    rw [← of_decide_eq_true hsource]
    exact he
  · intro he
    exact ⟨_, List.mem_filter.mpr ⟨he, decide_eq_true rfl⟩, rfl⟩

@[simp] theorem mem_dependentIds : a ∈ g.dependentIds b ↔ a < g.size ∧ g.dependsOn a b = true := by
  simp [dependentIds]

theorem pairwise_dependencyIds (g : Graph) (id : ModuleId) :
    (g.dependencyIds id).Pairwise (· < ·) :=
  List.pairwise_lt_range.sublist List.filter_sublist

theorem pairwise_dependentIds (g : Graph) (id : ModuleId) :
    (g.dependentIds id).Pairwise (· < ·) :=
  List.pairwise_lt_range.sublist List.filter_sublist

@[simp] theorem hasEdge_iff : g.hasEdge e = true ↔ e ∈ g.edges := List.contains_iff_mem

/-- **An edge is new** if it is not in the graph and none of those before it. -/
theorem areNew_eq (g : Graph) (added : List Edge) :
    g.areNew added =
      added.mapIdx fun i e => decide (e ∉ g.edges ∧ e ∉ added.take i) := by
  -- what an edge finds before it is in the graph by the time its turn comes
  induction added generalizing g with
  | nil => rfl
  | cons e rest ih =>
    rw [areNew, ih, List.mapIdx_cons]
    congr 1
    · rw [Bool.eq_iff_iff]
      simp [hasEdge]
    · congr 1
      funext i e'
      rw [decide_eq_decide, mem_edges_addEdge, List.take_succ_cons, List.mem_cons]
      tauto

end Graph

/-- What is said of edges is what was added: each edge once, however often it came. -/
structure EdgeView.Reflects (view : EdgeView) (added : List Edge) : Prop where
  count : view.count = added.toFinset.card
  dependencies : ∀ a, Ordered.Increasing Dependency.compare (view.dependencies a)
  mem_dependencies : ∀ a b tag, (b, tag) ∈ view.dependencies a ↔ ⟨a, b, tag⟩ ∈ added
  dependencyIds : ∀ a, (view.dependencyIds a).Pairwise (· < ·)
  mem_dependencyIds : ∀ a b, b ∈ view.dependencyIds a ↔ b ∈ (view.dependencies a).map Prod.fst
  dependentIds : ∀ b, (view.dependentIds b).Pairwise (· < ·)
  mem_dependentIds : ∀ a b, b ∈ view.dependencyIds a ↔ a ∈ view.dependentIds b

theorem Graph.reflects_of_mem_edges_iff (hinside : g.EdgesInside) (hnodup : g.edges.Nodup)
    (hmem : ∀ e, e ∈ g.edges ↔ e ∈ added) : g.view.Reflects added where
  count := by
    have hset : g.edges.toFinset = added.toFinset := by
      ext e
      rw [List.mem_toFinset, List.mem_toFinset, hmem]
    show g.edges.length = _
    rw [← hset, List.toFinset_card_of_nodup hnodup]
  dependencies a := Ordered.increasing_ofList _
  mem_dependencies a b tag := mem_dependencies.trans (hmem _)
  dependencyIds := g.pairwise_dependencyIds
  mem_dependencyIds a b := by
    show b ∈ g.dependencyIds a ↔ b ∈ (g.dependencies a).map Prod.fst
    rw [mem_dependencyIds, dependsOn_iff, List.mem_map]
    constructor
    · rintro ⟨-, tag, he⟩
      exact ⟨(b, tag), mem_dependencies.mpr he, rfl⟩
    · rintro ⟨⟨b, tag⟩, hd, rfl⟩
      have he := mem_dependencies.mp hd
      exact ⟨(hinside _ he).2, tag, he⟩
  dependentIds := g.pairwise_dependentIds
  mem_dependentIds a b := by
    show b ∈ g.dependencyIds a ↔ a ∈ g.dependentIds b
    rw [mem_dependencyIds, mem_dependentIds]
    refine and_congr_left fun hd => ?_
    obtain ⟨tag, he⟩ := dependsOn_iff.mp hd
    exact iff_of_true (hinside _ he).2 (hinside _ he).1

/-! ## The store -/

namespace EdgeStore

variable {σ : Type} {store : EdgeStore σ} {s : σ}

/-- A store is empty at first, and then lists every edge that it took once at each of its
ends, in some order. -/
structure Lawful (store : EdgeStore σ) : Prop where
  leaving_empty : ∀ id, store.leaving store.empty id = []
  entering_empty : ∀ id, store.entering store.empty id = []
  count_empty : store.count store.empty = 0
  leaving_insert : ∀ s e id, (store.leaving (store.insert s e) id).Perm
    (if e.source = id then e :: store.leaving s id else store.leaving s id)
  entering_insert : ∀ s e id, (store.entering (store.insert s e) id).Perm
    (if e.target = id then e :: store.entering s id else store.entering s id)
  count_insert : ∀ s e, store.count (store.insert s e) = store.count s + 1

theorem lawful_newestFirst : newestFirst.Lawful where
  leaving_empty _ := rfl
  entering_empty _ := rfl
  count_empty := rfl
  leaving_insert edges e id := by simp [newestFirst, List.filter_cons]
  entering_insert edges e id := by simp [newestFirst, List.filter_cons]
  count_insert _ _ := rfl

/-- The store holds these edges, in whatever order it lists them. -/
structure Holds (store : EdgeStore σ) (s : σ) (edges : List Edge) : Prop where
  leaving : ∀ id, (store.leaving s id).Perm (edges.filter (·.source = id))
  entering : ∀ id, (store.entering s id).Perm (edges.filter (·.target = id))
  count : store.count s = edges.length

theorem Lawful.holds_empty (h : store.Lawful) : store.Holds store.empty [] where
  leaving id := by rw [h.leaving_empty]; exact List.Perm.refl _
  entering id := by rw [h.entering_empty]; exact List.Perm.refl _
  count := h.count_empty

/-- At either end of its edges, a store that is given one more lists it as well. -/
theorem perm_filter_snoc {nodeOf : Edge → ModuleId} {listed : List Edge} (e : Edge)
    (h : listed.Perm (edges.filter fun e => nodeOf e = id)) :
    (if nodeOf e = id then e :: listed else listed).Perm
      ((edges ++ [e]).filter fun e => nodeOf e = id) := by
  rw [List.filter_append]
  by_cases heq : nodeOf e = id
  · simpa [heq] using (h.cons e).trans (List.perm_append_singleton e _).symm
  · simpa [heq] using h

theorem Holds.insert (hs : store.Holds s edges) (h : store.Lawful) (e : Edge) :
    store.Holds (store.insert s e) (edges ++ [e]) where
  leaving id := (h.leaving_insert s e id).trans (perm_filter_snoc e (hs.leaving id))
  entering id := (h.entering_insert s e id).trans (perm_filter_snoc e (hs.entering id))
  count := by rw [h.count_insert, hs.count, List.length_append, List.length_singleton]

theorem Holds.any_connecting (hs : store.Holds s edges) (e : Edge) :
    (store.connecting s e.source e.target).any (·.tag = e.tag) = true ↔ e ∈ edges := by
  obtain ⟨source, target, tag⟩ := e
  simp only [connecting, List.any_eq_true, List.mem_filter, (hs.leaving source).mem_iff,
    decide_eq_true_eq]
  constructor
  · rintro ⟨e, ⟨⟨he, rfl⟩, rfl⟩, rfl⟩
    exact he
  · intro he
    exact ⟨_, ⟨⟨he, rfl⟩, rfl⟩, rfl⟩

/-- **An addition** is answered as by the graph, and what is held is what the graph has. -/
theorem Holds.add (hs : store.Holds s g.edges) (h : store.Lawful) (e : Edge) :
    (store.add s e).1 = !g.hasEdge e ∧
      store.Holds (store.add s e).2 (g.addEdge e).edges := by
  unfold EdgeStore.add addEdge
  by_cases he : e ∈ g.edges
  · rw [if_pos ((hs.any_connecting e).mpr he), hasEdge_iff.mpr he, Distinct.append_of_mem he]
    exact ⟨rfl, hs⟩
  · rw [if_neg (mt (hs.any_connecting e).mp he), Bool.eq_false_iff.mpr (mt hasEdge_iff.mp he),
      Distinct.append_of_notMem he]
    exact ⟨rfl, hs.insert h e⟩

/-- **Additions one after the other.** -/
theorem Holds.addAll (hs : store.Holds s g.edges) (h : store.Lawful) (added : List Edge) :
    (store.addAll s added).1 = g.areNew added ∧
      store.Holds (store.addAll s added).2 (added.foldl addEdge g).edges := by
  induction added generalizing s g with
  | nil => exact ⟨rfl, hs⟩
  | cons e rest ih =>
    obtain ⟨hanswer, hstep⟩ := hs.add h e
    obtain ⟨hanswers, hrest⟩ := ih hstep
    exact ⟨congrArg₂ List.cons hanswer hanswers, hrest⟩

/-! ### What is asked of it -/

@[simp] theorem mem_inOrder {ids : List ModuleId} : id ∈ inOrder ids ↔ id ∈ ids := by
  rw [inOrder, Ordered.mem_dropRepeats, List.mem_mergeSort]

theorem pairwise_inOrder (ids : List ModuleId) : (inOrder ids).Pairwise (· < ·) := by
  have hsorted : (ids.mergeSort (· ≤ ·)).Pairwise fun a b => decide (a ≤ b) = true := by
    apply List.pairwise_mergeSort
    · intro a b c hab hbc
      exact decide_eq_true (Nat.le_trans (of_decide_eq_true hab) (of_decide_eq_true hbc))
    · intro a b
      simpa using Nat.le_total a b
  exact Ordered.pairwise_dropRepeats (hsorted.imp of_decide_eq_true)

variable (hs : store.Holds s g.edges)
include hs

theorem Holds.dependencies_eq (hnodup : g.edges.Nodup) (id : ModuleId) :
    store.dependencies s id = g.dependencies id := by
  -- edges that leave one module differ by their targets or tags
  have hpairs : ((store.leaving s id).map fun e => (e.target, e.tag)).Nodup := by
    have hleaving := (hs.leaving id).nodup_iff.mpr (hnodup.filter _)
    refine hleaving.map_on fun e he e' he' heq => ?_
    rw [(hs.leaving id).mem_iff, List.mem_filter, decide_eq_true_eq] at he he'
    obtain ⟨htarget, htag⟩ := Prod.mk.inj heq
    cases e; cases e'
    simp_all
  apply (Ordered.increasing_mergeSort hpairs).eq_of_mem_iff (Ordered.increasing_ofList _)
  intro d
  rw [List.mem_mergeSort, Ordered.mem_ofList_iff]
  exact ((hs.leaving id).map _).mem_iff

theorem Holds.dependencyIds_eq (hinside : g.EdgesInside) (a : ModuleId) :
    store.dependencyIds s a = g.dependencyIds a := by
  apply (pairwise_inOrder _).eq_of_mem_iff (g.pairwise_dependencyIds a)
  intro b
  rw [mem_inOrder, ((hs.leaving a).map _).mem_iff, mem_dependencyIds, dependsOn_iff]
  simp only [List.mem_map, List.mem_filter, decide_eq_true_eq]
  constructor
  · rintro ⟨e, ⟨he, rfl⟩, rfl⟩
    exact ⟨(hinside e he).2, e.tag, he⟩
  · rintro ⟨-, tag, he⟩
    exact ⟨_, ⟨he, rfl⟩, rfl⟩

theorem Holds.dependentIds_eq (hinside : g.EdgesInside) (b : ModuleId) :
    store.dependentIds s b = g.dependentIds b := by
  apply (pairwise_inOrder _).eq_of_mem_iff (g.pairwise_dependentIds b)
  intro a
  rw [mem_inOrder, ((hs.entering b).map _).mem_iff, mem_dependentIds, dependsOn_iff]
  simp only [List.mem_map, List.mem_filter, decide_eq_true_eq]
  constructor
  · rintro ⟨e, ⟨he, rfl⟩, rfl⟩
    exact ⟨(hinside e he).1, e.tag, he⟩
  · rintro ⟨-, tag, he⟩
    exact ⟨_, ⟨he, rfl⟩, rfl⟩

/-- **A store is asked with the same result as the graph** whose edges it holds. -/
theorem Holds.view_eq (hinside : g.EdgesInside) (hnodup : g.edges.Nodup) :
    store.view s = g.view := by
  simp only [EdgeStore.view, Graph.view, EdgeView.mk.injEq]
  exact ⟨hs.count, funext (hs.dependencies_eq hnodup), funext (hs.dependencyIds_eq hinside),
    funext (hs.dependentIds_eq hinside)⟩

end EdgeStore

/-! ## Edges of a graph just loaded -/

namespace Graph

variable {registry : Registry} {modules : List Module}

theorem edges_foldl_addEdge_of_fresh (h : g.Fresh) (added : List Edge) :
    (added.foldl addEdge g).edges = Distinct.firsts added := by
  rw [edges_foldl_addEdge, h.edges, Distinct.foldl_append_nil]

/-- **Edges are kept once.** Whatever is added between the modules of a graph just loaded,
an addition says whether it is the first of its edge, and what the graph says of its edges
afterwards reflects what was added. A store of parallel edges answers in the same way all
along. -/
theorem edges_are_kept_once {σ : Type} {store : EdgeStore σ} (hstore : store.Lawful)
    (hload : ofModules registry modules = .ok g)
    (hinside : ∀ e ∈ added, e.source < g.size ∧ e.target < g.size) :
    g.areNew added = added.mapIdx (fun i e => decide (e ∉ added.take i)) ∧
      (added.foldl addEdge g).view.Reflects added ∧
      (store.addAll store.empty added).1 = g.areNew added ∧
      store.view (store.addAll store.empty added).2 = (added.foldl addEdge g).view := by
  have hfresh := fresh_ofModules hload
  have hedges := edges_foldl_addEdge_of_fresh hfresh added
  have hnodup : (added.foldl addEdge g).edges.Nodup := by
    rw [hedges]
    exact Distinct.nodup_firsts added
  have hmem : ∀ e, e ∈ (added.foldl addEdge g).edges ↔ e ∈ added := by
    intro e
    rw [hedges]
    exact Distinct.mem_firsts
  have hends : (added.foldl addEdge g).EdgesInside := by
    intro e he
    rw [size, nodes_foldl_addEdge]
    exact hinside e ((hmem e).mp he)
  have hempty : store.Holds store.empty g.edges := hfresh.edges ▸ hstore.holds_empty
  obtain ⟨hanswers, hholds⟩ := hempty.addAll hstore added
  refine ⟨?_, reflects_of_mem_edges_iff hends hnodup hmem, hanswers,
    hholds.view_eq hends hnodup⟩
  rw [areNew_eq, hfresh.edges]
  simp

/-- Edges between the same modules for different reasons, one of them twice, and an edge
from a module to itself. -/
def parallel : List Edge := [
  ⟨0, 1, .outputOf ""⟩, ⟨0, 1, .ordinary⟩, ⟨0, 1, .outputOf ""⟩, ⟨2, 2, .license⟩,
  ⟨0, 2, .conversionOnly⟩]

theorem parallel_edges_are_kept :
    EdgeStore.newestFirst.Lawful ∧
      ∃ g, ofModules libraryTypes vendored = .ok g ∧
        (∀ e ∈ parallel, e.source < g.size ∧ e.target < g.size) ∧
        g.areNew parallel = [true, true, false, true, true] ∧
        (parallel.foldl addEdge g).edgeCount = 4 ∧
        EdgeStore.newestFirst.dependencies (EdgeStore.newestFirst.addAll [] parallel).2 0 =
          [(1, .ordinary), (1, .outputOf ""), (2, .conversionOnly)] ∧
        EdgeStore.newestFirst.dependentIds (EdgeStore.newestFirst.addAll [] parallel).2 2 =
          [0, 2] := by
  have hstore := EdgeStore.lawful_newestFirst
  have hload : ofModules libraryTypes vendored = .ok (ofLoadable libraryTypes vendored) := rfl
  have hinside : ∀ e ∈ parallel, e.source < (ofLoadable libraryTypes vendored).size ∧
      e.target < (ofLoadable libraryTypes vendored).size := by decide
  obtain ⟨hnew, hreflects, -, hview⟩ := edges_are_kept_once hstore hload hinside
  refine ⟨hstore, _, hload, hinside, hnew.trans (by decide), hreflects.count.trans (by decide),
    ?_, ?_⟩
  · refine (congrArg (fun view => view.dependencies 0) hview).trans ?_
    decide +kernel
  · refine (congrArg (fun view => view.dependentIds 2) hview).trans ?_
    decide +kernel

end Graph

end TargetGen
