import TargetGen.Phase.Basic

/-!
# Report — what became of each module
-/

namespace TargetGen

structure ModuleReport where
  id : ModuleId
  name : String
  moduleType : String
  dir : String
  label : Label
  /-- None if the module failed before it was decided. -/
  decision : Option Decision
  targets : List Target
  /-- Names that denote no module. -/
  missing : List String
  /-- Names of modules without a usable target. -/
  unconverted : List String
  mixed : Option MixedStatus
  errors : List ModuleError
  deriving DecidableEq

namespace ModuleReport

/-- The names that discovery could not find. -/
def discoveredMissing (g : Graph) (id : ModuleId) : List String :=
  match g.provider? id .discovery with
  | some (.discovery missing) => missing
  | _ => []

/-- The names that conversion could not find, and found without a target. -/
def references (g : Graph) (id : ModuleId) : List String × List String :=
  match g.provider? id .references with
  | some (.references missing unconverted) => (missing, unconverted)
  | _ => ([], [])

/-- The names in the errors about missing dependencies. -/
def missingInErrors (errors : List ModuleError) : List String :=
  errors.flatMap fun
    | .missingDependencies names => names
    | _ => []

def targetsOf (g : Graph) (id : ModuleId) : List Target :=
  match g.provider? id .targets with
  | some (.targets items) => items
  | _ => []

def statusOf (g : Graph) (id : ModuleId) : Option MixedStatus :=
  match g.provider? id .status with
  | some (.status value) => some value
  | _ => none

def ofGraph (g : Graph) (id : ModuleId) : ModuleReport where
  id := id
  name := (g.module id).name
  moduleType := (g.module id).moduleType
  dir := (g.module id).dir
  label := g.labelFor id
  decision := g.decision? id
  targets := targetsOf g id
  missing := Distinct.firsts <|
    discoveredMissing g id ++ (references g id).1 ++ missingInErrors (g.errors id)
  unconverted := Distinct.firsts (references g id).2
  mixed := statusOf g id
  errors := g.errors id

def isFailed (m : ModuleReport) : Bool := !m.errors.isEmpty

/-- Decided to convert, and without errors. -/
def isConverted (m : ModuleReport) : Bool :=
  m.errors.isEmpty && (m.decision.map Decision.convert).getD false

end ModuleReport

/-! ## Whole runs -/

structure BuildReport where
  /-- In load order. -/
  modules : List ModuleReport
  phases : List PhaseSummary
  deriving DecidableEq

namespace BuildReport

def ofGraph (g : Graph) (phases : List PhaseSummary) : BuildReport :=
  ⟨g.ids.map (ModuleReport.ofGraph g), phases⟩

/-- The first module with a name, in whatever namespace. -/
def find? (r : BuildReport) (name : String) : Option ModuleReport :=
  r.modules.find? (·.name = name)

def converted (r : BuildReport) : List ModuleReport := r.modules.filter (·.isConverted)

def failed (r : BuildReport) : List ModuleReport := r.modules.filter (·.isFailed)

/-- The conflicts of all modules, with the names of the modules. -/
def conflicts (r : BuildReport) : List (String × Conflict) :=
  r.modules.flatMap fun m =>
    match m.decision with
    | some d => d.conflicts.map (m.name, ·)
    | none => []

/-- The targets of all converted modules, in load order. -/
def targets (r : BuildReport) : List Target := r.converted.flatMap ModuleReport.targets

/-- The packages that get a build file, in order. -/
def packages (r : BuildReport) : NameSet := NameSet.ofList (r.targets.map Target.package)

/-- Whether a target may stand before another one in a build file. -/
def precedes (a b : Target) : Bool := compareNames a.name b.name ≠ .gt

/-- The targets in the build file of a package, by name; targets of one name
stay in load order. -/
def targetsIn (r : BuildReport) (package : String) : List Target :=
  (r.targets.filter (·.package = package)).mergeSort precedes

/-- The targets of each build file. -/
def buildFiles (r : BuildReport) : List (String × List Target) :=
  r.packages.names.map fun package => (package, r.targetsIn package)

/-- The text of each build file. -/
def renderedFiles (r : BuildReport) : List (String × String) :=
  r.buildFiles.map fun (package, targets) => (package, Target.renderFile targets)

end BuildReport

end TargetGen
