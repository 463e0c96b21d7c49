import TargetGen.Graph.Failure
import TargetGen.Phase.Basic

/-!
# Running phases

A wave is run in two halves: first every module's outcome is found against the
same graph, then the outcomes are committed. Modules that have failed, or that
directly depend on one that has, do not run their step. At the end of a phase
failures spread to all dependents.
-/

namespace TargetGen

/-! ## Outcomes -/

inductive Outcome where
  | ran (result : Except ModuleError StepOutput)
  /-- A direct dependency has failed. -/
  | blocked (dependency : ModuleId)
  /-- The module itself has failed. -/
  | alreadyFailed

namespace Outcome

def isSuccess : Outcome → Bool
  | ran (.ok _) => true
  | ran (.error _) | blocked _ | alreadyFailed => false

def isFailure : Outcome → Bool
  | ran (.error _) => true
  | ran (.ok _) | blocked _ | alreadyFailed => false

def isSkip : Outcome → Bool
  | blocked _ | alreadyFailed => true
  | ran _ => false

end Outcome

/-- The outcome of a phase for one module. -/
def Phase.outcome (p : Phase) (v : Viewpoint) : Except Fault Outcome :=
  if v.graph.isFailed v.id then .ok .alreadyFailed
  else
    match v.graph.failedDependency v.id with
    | some dependency => .ok (.blocked dependency)
    | none => (p.step v).map .ran

/-- The outcomes of a wave, all against the same graph; of several faults the
first one counts. -/
def Phase.outcomes (p : Phase) (registry : Registry) (config : Config) (g : Graph)
    (wave : List ModuleId) : Except Fault (List (ModuleId × Outcome)) :=
  wave.mapM fun id => (p.outcome ⟨g, registry, config, id⟩).map (id, ·)

/-! ## Commits -/

namespace Graph

/-- Publish providers one after the other, up to the first fault. -/
def publishAll (g : Graph) (id : ModuleId) (phase : String) :
    List Provider → Graph × Option Fault
  | [] => (g, none)
  | p :: rest =>
    match g.publish id phase p with
    | .ok g => g.publishAll id phase rest
    | .error fault => (g, some fault)

/-- Add edges from a module. -/
def addEdges (g : Graph) (id : ModuleId) (edges : List Dependency) : Graph :=
  edges.foldl (fun g (target, tag) => g.addEdge ⟨id, target, tag⟩) g

/-- Commit the outcome of one module. -/
def commit (g : Graph) (phase : String) (id : ModuleId) : Outcome → Graph × Option Fault
  | .ran (.ok output) =>
    match g.publishAll id phase output.providers with
    | (g, some fault) => (g, some fault)
    | (g, none) => (g.addEdges id output.edges, none)
  | .ran (.error e) => (g.recordError id e, none)
  | .blocked dependency =>
    (g.recordError id (.dependencyFailed (g.module dependency).name), none)
  | .alreadyFailed => (g, none)

/-- Commit the outcomes of a wave one after the other, up to the first fault. -/
def commitAll (g : Graph) (phase : String) :
    List (ModuleId × Outcome) → Graph × Option Fault
  | [] => (g, none)
  | (id, outcome) :: rest =>
    match g.commit phase id outcome with
    | (g, some fault) => (g, some fault)
    | (g, none) => g.commitAll phase rest

end Graph

/-! ## Waves and phases -/

/-- Count outcomes into a summary. -/
def PhaseSummary.count (s : PhaseSummary) (outcomes : List (ModuleId × Outcome)) :
    PhaseSummary :=
  { s with
    succeeded := s.succeeded + outcomes.countP (·.2.isSuccess)
    failed := s.failed + outcomes.countP (·.2.isFailure)
    skipped := s.skipped + outcomes.countP (·.2.isSkip) }

namespace Phase

/-- Run one wave: nothing of it is committed if a step is at fault. -/
def runWave (p : Phase) (registry : Registry) (config : Config) (g : Graph)
    (wave : List ModuleId) : Graph × Except Fault (List (ModuleId × Outcome)) :=
  match p.outcomes registry config g wave with
  | .error fault => (g, .error fault)
  | .ok outcomes =>
    match g.commitAll p.name outcomes with
    | (g, some fault) => (g, .error fault)
    | (g, none) => (g, .ok outcomes)

/-- Run waves one after the other, up to the first fault. -/
def runWaves (p : Phase) (registry : Registry) (config : Config) (g : Graph)
    (summary : PhaseSummary) :
    List (List ModuleId) → Graph × Except Fault PhaseSummary
  | [] => (g, .ok summary)
  | wave :: rest =>
    match p.runWave registry config g wave with
    | (g, .error fault) => (g, .error fault)
    | (g, .ok outcomes) => p.runWaves registry config g (summary.count outcomes) rest

/-- Run a phase. The waves are those of the graph as the phase finds it. -/
def run (p : Phase) (registry : Registry) (config : Config) (s : RunState) :
    RunState × Except Abort PhaseSummary :=
  match s.graph.waves p.order with
  | none => (s, .error (.graph (.cycle p.name)))
  | some waves =>
    match p.runWaves registry config s.graph ⟨p.name, waves.length, 0, 0, 0, 0⟩ waves with
    | (g, .error fault) => ({ s with graph := g }, .error (.fault fault))
    | (g, .ok summary) =>
      match p.barrier config { s with graph := g } with
      | (s, some abort) => (s, .error abort)
      | (s, none) =>
        let (g, propagated) := s.graph.propagateFailures
        ({ s with graph := g }, .ok { summary with propagated := propagated })

/-- Run phases in order; the first one that cannot be completed ends the run. -/
def runAll (registry : Registry) (config : Config) :
    List Phase → RunState → RunState × Except Abort (List PhaseSummary)
  | [], s => (s, .ok [])
  | p :: rest, s =>
    match p.run registry config s with
    | (s, .error abort) => (s, .error abort)
    | (s, .ok summary) =>
      let (s, result) := runAll registry config rest s
      (s, result.map (summary :: ·))

end Phase

end TargetGen
