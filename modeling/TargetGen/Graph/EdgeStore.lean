import TargetGen.Graph.Basic

/-!
# Edge store — edges kept by a general graph structure

The edges can be kept by a graph structure that knows nothing of tags: it takes any edge,
also one that it has, and lists the edges that leave or enter a node, in whatever order it
likes. What it is asked has to make up for that. Before an edge is added, those between
its two ends are searched for its tag; dependencies are sorted when they are listed, and
of neighbours that are joined by several edges all but one are dropped.
-/

namespace TargetGen

namespace Ordered

variable {α : Type} [DecidableEq α]

/-- `xs` without the elements that repeat the one just before them. -/
def dropRepeats : List α → List α
  | [] => []
  | [a] => [a]
  | a :: b :: rest =>
    if a = b then dropRepeats (b :: rest) else a :: dropRepeats (b :: rest)

@[simp] theorem mem_dropRepeats {x : α} {xs : List α} :
    x ∈ dropRepeats xs ↔ x ∈ xs := by
  fun_induction dropRepeats xs with
  | case1 => exact Iff.rfl
  | case2 => exact Iff.rfl
  | case3 a rest ih => simp [ih]
  | case4 a b rest _ ih => simp [ih]

theorem pairwise_dropRepeats {xs : List Nat} (h : xs.Pairwise (· ≤ ·)) :
    (dropRepeats xs).Pairwise (· < ·) := by
  fun_induction dropRepeats xs with
  | case1 => exact List.Pairwise.nil
  | case2 a => exact List.pairwise_singleton _ a
  | case3 a rest ih => exact ih (List.pairwise_cons.mp h).2
  | case4 a b rest hne ih =>
    obtain ⟨ha, hrest⟩ := List.pairwise_cons.mp h
    refine List.pairwise_cons.mpr ⟨fun c hc => ?_, ih hrest⟩
    have hab : a < b := Nat.lt_of_le_of_ne (ha b List.mem_cons_self) hne
    rcases List.mem_cons.mp (mem_dropRepeats.mp hc) with rfl | hc
    · exact hab
    · exact Nat.lt_of_lt_of_le hab ((List.pairwise_cons.mp hrest).1 c hc)

end Ordered

/-- A graph structure that keeps edges in states of type `σ`. -/
structure EdgeStore (σ : Type) where
  empty : σ
  /-- One more edge, whether or not there is one like it. -/
  insert : σ → Edge → σ
  /-- The edges that leave a node. -/
  leaving : σ → ModuleId → List Edge
  /-- The edges that enter a node. -/
  entering : σ → ModuleId → List Edge
  count : σ → Nat

/-- What can be asked about the edges between modules. -/
structure EdgeView where
  count : Nat
  dependencies : ModuleId → List Dependency
  dependencyIds : ModuleId → List ModuleId
  dependentIds : ModuleId → List ModuleId

namespace EdgeStore

variable {σ : Type} (store : EdgeStore σ)

/-- The edges from one node to another. -/
def connecting (s : σ) (a b : ModuleId) : List Edge :=
  (store.leaving s a).filter (·.target = b)

/-- Add an edge, unless one between the same nodes has its tag; whether it was added. -/
def add (s : σ) (e : Edge) : Bool × σ :=
  if (store.connecting s e.source e.target).any (·.tag = e.tag) then (false, s)
  else (true, store.insert s e)

/-- Add edges one after the other; for each one, whether it was added. -/
def addAll (s : σ) : List Edge → List Bool × σ
  | [] => ([], s)
  | e :: rest =>
    let (isNew, s) := store.add s e
    let (answers, s) := addAll s rest
    (isNew :: answers, s)

def dependencies (s : σ) (id : ModuleId) : List Dependency :=
  ((store.leaving s id).map fun e => (e.target, e.tag)).mergeSort
    fun a b => (Dependency.compare a b).isLE

/-- Nodes in order, each one once. -/
def inOrder (ids : List ModuleId) : List ModuleId :=
  Ordered.dropRepeats (ids.mergeSort (· ≤ ·))

def dependencyIds (s : σ) (id : ModuleId) : List ModuleId :=
  inOrder ((store.leaving s id).map (·.target))

def dependentIds (s : σ) (id : ModuleId) : List ModuleId :=
  inOrder ((store.entering s id).map (·.source))

def view (s : σ) : EdgeView :=
  ⟨store.count s, store.dependencies s, store.dependencyIds s, store.dependentIds s⟩

/-- A store that lists the edges it took last first. -/
def newestFirst : EdgeStore (List Edge) where
  empty := []
  insert edges e := e :: edges
  leaving edges id := edges.filter (·.source = id)
  entering edges id := edges.filter (·.target = id)
  count := List.length

end EdgeStore

namespace Graph

/-- Of edges that are added one after the other, whether each one is new. -/
def areNew (g : Graph) : List Edge → List Bool
  | [] => []
  | e :: rest => (!g.hasEdge e) :: (g.addEdge e).areNew rest

def view (g : Graph) : EdgeView :=
  ⟨g.edgeCount, g.dependencies, g.dependencyIds, g.dependentIds⟩

end Graph

end TargetGen
