import TargetGen.Graph.Basic

/-!
# Levels — an order of the modules in which neighbours come first

Modules are grouped into levels such that all neighbours of a module in one
direction stand in earlier levels. Conversion-only edges do not count. There
are no levels if the other edges make a cycle.
-/

namespace TargetGen

/-- Which neighbours come first. -/
inductive Direction where
  | dependencies
  | dependents
  deriving DecidableEq

namespace Edge

/-- The module that waits for the other end. -/
def waiting (e : Edge) : Direction → ModuleId
  | .dependencies => e.source
  | .dependents => e.target

/-- The module that comes first. -/
def awaited (e : Edge) : Direction → ModuleId
  | .dependencies => e.target
  | .dependents => e.source

end Edge

namespace Graph

/-- Whether a module waits for none of some modules. -/
def isReady (g : Graph) (d : Direction) (remaining : List ModuleId) (id : ModuleId) : Bool :=
  g.edges.all fun e =>
    !(e.tag.orders && e.waiting d = id && remaining.contains (e.awaited d))

/-- Those of some modules that wait for none of them. -/
def readyAmong (g : Graph) (d : Direction) (remaining : List ModuleId) : List ModuleId :=
  remaining.filter fun id => g.isReady d remaining id

/-- Those of some modules that wait for one of them. -/
def waitingAmong (g : Graph) (d : Direction) (remaining : List ModuleId) : List ModuleId :=
  remaining.filter fun id => !g.isReady d remaining id

/-- The levels of the modules that remain: first those that wait for none of
them. If all wait, they wait in a circle. -/
def levelsOf (g : Graph) (d : Direction) (remaining : List ModuleId) :
    Option (List (List ModuleId)) :=
  if remaining = [] then some []
  else if (g.waitingAmong d remaining).length < remaining.length then
    (levelsOf g d (g.waitingAmong d remaining)).map (g.readyAmong d remaining :: ·)
  else none
termination_by remaining.length

/-- The levels of all modules, each level in load order. -/
def levels (g : Graph) (d : Direction) : Option (List (List ModuleId)) := g.levelsOf d g.ids

end Graph

end TargetGen
