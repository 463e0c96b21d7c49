import TargetGen.Graph.Failure

/-!
# Search — failures spread by a queue

Failures can be spread in one search that starts from all failed modules. A queue
holds the modules whose dependents are still to be looked at. A module that is met
for the first time joins the queue, and if it is sound, it fails on the spot by the
module from which it was met. The search ends when the queue is empty.
-/

namespace TargetGen

/-- A search for dependents of failed modules. -/
structure Search where
  /-- The modules whose dependents are still to be looked at, first come first. -/
  queue : List ModuleId
  /-- The modules that were met. -/
  seen : List ModuleId
  /-- The graph with the errors recorded so far. -/
  graph : Graph
  /-- How many modules failed by the search. -/
  count : Nat
  deriving DecidableEq

namespace Search

/-- Meet a dependent of a failed module. -/
def meet (failed : ModuleId) (s : Search) (id : ModuleId) : Search :=
  if id ∈ s.seen then s
  else if s.graph.isFailed id then
    { s with queue := s.queue ++ [id], seen := s.seen ++ [id] }
  else
    ⟨s.queue ++ [id], s.seen ++ [id],
      s.graph.recordError id (.dependencyFailed (s.graph.module failed).name), s.count + 1⟩

/-- Meet all dependents of the first module in the queue, if there is one. -/
def turn (s : Search) : Option Search :=
  match s.queue with
  | [] => none
  | failed :: rest =>
    some ((s.graph.dependentIds failed).foldl (meet failed) { s with queue := rest })

/-- The search after some turns, if it has as many. -/
def after (s : Search) : Nat → Option Search
  | 0 => some s
  | turns + 1 => s.turn.bind (·.after turns)

end Search

/-- The search through a graph as it begins: the failed modules are met and queued. -/
def Graph.search (g : Graph) : Search :=
  let failed := g.ids.filter (g.isFailed ·)
  ⟨failed, failed, g, 0⟩

end TargetGen
