import TargetGen.Graph.Level

/-!
# Countdown — levels found by counting edges

Levels can be found in one pass over the edges. For every module, count the
edges that it waits along. The modules with no such edge are the first level.
A level is released by taking away, one at a time, the edges that lead to it;
the modules that come down to none are the next level. A module on a cycle, or
one that waits for such a module, never comes down to none.
-/

namespace TargetGen

/-- The direction the other way. -/
def Direction.opposite : Direction → Direction
  | .dependencies => .dependents
  | .dependents => .dependencies

/-- How many edges each module waits along still, and the modules found to wait
along none, as often as they were found so. -/
structure Countdown where
  pending : List Nat
  found : List ModuleId

/-- Take away one edge that a module waits along. -/
def Countdown.release (c : Countdown) (id : ModuleId) : Countdown :=
  let left := c.pending.getD id 0 - 1
  ⟨c.pending.set id left, if left = 0 then c.found ++ [id] else c.found⟩

/-- A level at the time when it is released: the counts, and the modules. -/
structure Round where
  pending : List Nat
  ready : List ModuleId

namespace Graph

/-- The neighbours of a module across edges that order modules, once for each edge. -/
def orderingNeighbors (g : Graph) (id : ModuleId) (d : Direction) : List ModuleId :=
  (g.edges.filter fun e => e.tag.orders && e.waiting d = id).map (·.awaited d)

/-- The modules that wait for some modules, once for each edge. -/
def waitersOf (g : Graph) (d : Direction) (ids : List ModuleId) : List ModuleId :=
  ids.flatMap (g.orderingNeighbors · d.opposite)

/-- The counts of all edges, and the modules that wait along none. -/
def firstRound (g : Graph) (d : Direction) : Round :=
  let pending := g.ids.map fun id => (g.orderingNeighbors id d).length
  ⟨pending, g.ids.filter fun id => pending.getD id 0 = 0⟩

/-- Release the modules of a round. Those that are found by that are ready next,
each of them once and in load order. -/
def nextRound (g : Graph) (d : Direction) (r : Round) : Round :=
  let c := (g.waitersOf d r.ready).foldl Countdown.release ⟨r.pending, []⟩
  ⟨c.pending, Ordered.ofList compare c.found⟩

/-- All rounds from one on, until no module is ready, where some modules were
ready before. There is no answer if more modules become ready than there are. -/
def rounds (g : Graph) (d : Direction) (r : Round) (placed : Nat) : Option (List Round) :=
  if r.ready = [] then some []
  else if g.size < placed + r.ready.length then none
  else (g.rounds d (g.nextRound d r) (placed + r.ready.length)).map (r :: ·)
termination_by g.size - placed
decreasing_by
  have hpos : 0 < r.ready.length := List.length_pos_iff.mpr ‹_›
  omega

/-- The levels of some rounds, if these are all modules. -/
def levelsOfRounds (g : Graph) (rounds : List Round) : Option (List (List ModuleId)) :=
  if (rounds.map (·.ready)).flatten.length = g.size then some (rounds.map (·.ready)) else none

/-- The rounds of the countdown over a whole graph. -/
def countdown (g : Graph) (d : Direction) : Option (List Round) := g.rounds d (g.firstRound d) 0

end Graph

end TargetGen
