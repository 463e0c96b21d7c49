import TargetGen.Expansion
import TargetGen.Graph.Level

/-!
# Phase — a step for every module, in some order

A phase runs its step once for each module. Modules are grouped into waves by
the order of the phase; the steps of a wave see the graph as the waves before
left it, and only what they return changes it. After the waves a phase may look
at the whole graph once more.
-/

namespace TargetGen

inductive PhaseOrder where
  /-- Dependencies before their dependents. -/
  | bottomUp
  /-- Dependents before their dependencies. -/
  | topDown
  /-- All modules at the same time. -/
  | parallel
  deriving DecidableEq

/-- The waves of a phase; none if ordering edges make a cycle. -/
def Graph.waves (g : Graph) : PhaseOrder → Option (List (List ModuleId))
  | .bottomUp => g.levels .dependencies
  | .topDown => g.levels .dependents
  | .parallel => some (if g.nodes.isEmpty then [] else [g.ids])

/-- What a step adds for its module: providers, and edges to dependencies. -/
structure StepOutput where
  providers : List Provider
  edges : List Dependency
  deriving DecidableEq

namespace StepOutput

def empty : StepOutput := ⟨[], []⟩

def publish (o : StepOutput) (p : Provider) : StepOutput :=
  { o with providers := o.providers ++ [p] }

def edge (o : StepOutput) (target : ModuleId) (tag : DepTag) : StepOutput :=
  { o with edges := o.edges ++ [(target, tag)] }

end StepOutput

/-- Why a run stops before its end. -/
inductive Abort where
  | graph (error : GraphError)
  | fault (fault : Fault)
  deriving DecidableEq

/-- What a run changes: the graph, and the batches of queries that the external
executor was asked, in order. -/
structure RunState where
  graph : Graph
  batches : List (List Query)
  deriving DecidableEq

def RunState.ofGraph (g : Graph) : RunState := ⟨g, []⟩

structure Phase where
  name : String
  order : PhaseOrder
  step : Viewpoint → Except Fault (Except ModuleError StepOutput)
  /-- The last action of the phase. What it did stays done if it ends the run. -/
  barrier : Config → RunState → RunState × Option Abort

namespace Phase

/-- The last action of phases without one. -/
def noBarrier : Config → RunState → RunState × Option Abort := fun _ s => (s, none)

end Phase

/-- How the modules of a phase fared. -/
structure PhaseSummary where
  phase : String
  waves : Nat
  succeeded : Nat
  failed : Nat
  skipped : Nat
  /-- Modules that failed by their dependencies at the end of the phase. -/
  propagated : Nat
  deriving DecidableEq

end TargetGen
