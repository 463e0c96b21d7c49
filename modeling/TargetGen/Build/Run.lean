import TargetGen.Build.Phases
import TargetGen.Build.Report
import TargetGen.Phase.Run

/-!
# Running a build

A build loads modules into a graph, runs the phases over it and reports on each
module. Errors of modules are part of the report; a build has no report if the
modules make no graph, if they depend on each other in a circle, or if the
external executor fails.
-/

namespace TargetGen.Build

/-- Run the phases of a build over a graph. -/
def runOn (registry : Registry) (config : Config) (executor : Executor) (g : Graph) :
    RunState × Except Abort BuildReport :=
  let (s, result) := Phase.runAll registry config (phases executor) (RunState.ofGraph g)
  (s, result.map (BuildReport.ofGraph s.graph))

/-- Load modules and run a build over them. -/
def run (registry : Registry) (config : Config) (executor : Executor)
    (modules : List Module) : Except Abort BuildReport :=
  match Graph.ofModules registry modules with
  | .error e => .error (.graph e)
  | .ok g => (runOn registry config executor g).2

end TargetGen.Build
