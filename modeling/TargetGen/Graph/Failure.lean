import TargetGen.Graph.Basic

/-!
# Failure — how failures spread to dependents

A failure reaches every module from which edges of whatever tag lead to a failed
one. A module that fails this way carries one error, which names a direct
dependency one step closer to where the failure began.
-/

namespace TargetGen.Graph

/-- Those of some modules that depend directly on a failed one. -/
def reachedFrom (g : Graph) (failed : ModuleId) (sound : List ModuleId) : List ModuleId :=
  sound.filter fun id => g.dependsOn id failed

/-- Those of some modules that do not. -/
def sparedBy (g : Graph) (failed : ModuleId) (sound : List ModuleId) : List ModuleId :=
  sound.filter fun id => !g.dependsOn id failed

theorem length_reachedFrom_add_length_sparedBy (g : Graph) (failed : ModuleId)
    (sound : List ModuleId) :
    (g.reachedFrom failed sound).length + (g.sparedBy failed sound).length = sound.length := by
  have := List.length_eq_countP_add_countP (fun id => g.dependsOn id failed) (l := sound)
  simp only [reachedFrom, sparedBy, ← List.countP_eq_length_filter]
  simpa using this.symm

/-- The modules that fail because of those in `queue`, each with the dependency
it fails by. `sound` holds the modules that no failure has reached yet; those
reached from the head of the queue line up behind it. -/
def spread (g : Graph) : List ModuleId → List ModuleId → List (ModuleId × ModuleId)
  | [], _ => []
  | failed :: queue, sound =>
    (g.reachedFrom failed sound).map (·, failed)
      ++ spread g (queue ++ g.reachedFrom failed sound) (g.sparedBy failed sound)
termination_by queue sound => queue.length + 2 * sound.length
decreasing_by
  have := length_reachedFrom_add_length_sparedBy g failed sound
  simp only [List.length_append, List.length_cons]
  omega

/-- The modules that would fail by their dependencies, in the order in which
failures reach them. -/
def newlyFailed (g : Graph) : List (ModuleId × ModuleId) :=
  g.spread (g.ids.filter (g.isFailed ·)) (g.ids.filter fun id => !g.isFailed id)

/-- Fail every dependent of a failed module, near and far; the count says how
many modules failed by this. -/
def propagateFailures (g : Graph) : Graph × Nat :=
  let reached := g.newlyFailed
  (reached.foldl
    (fun g (id, dependency) =>
      g.recordError id (.dependencyFailed (g.module dependency).name))
    g, reached.length)

end TargetGen.Graph
