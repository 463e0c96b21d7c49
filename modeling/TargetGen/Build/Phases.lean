import TargetGen.Conversion.Run
import TargetGen.Phase.Basic

/-!
# The phases of a build

* `discovery`: an edge for every dependency that a module declares;
* `decisions`: whether each module converts;
* `conversions`: the targets of the modules that convert;
* `queries`: what the modules that run externally ask, answered in one batch;
* `consumption`: what those modules make of their answers.
-/

namespace TargetGen.Build

/-! ## Discovery -/

/-- The name and tag of the dependency that an entry declares, if it declares
one: plain paths among sources do not. -/
def declared (kind : ReferenceKind) (entry : String) (reference : Option Reference) :
    Option (String × DepTag) :=
  match kind, reference with
  | .sources, some r => some (r.name, .outputOf r.tag)
  | .sources, none => none
  | .modules, r => some ((r.map Reference.name).getD entry, .ordinary)
  | .licenses, r => some ((r.map Reference.name).getD entry, .license)

/-- All dependencies that a module declares, by property and entry; the first
malformed reference is an error. -/
def declarations (v : Viewpoint) (properties : List DependencyProperty) :
    Except ModuleError (List (String × DepTag)) := do
  let entries := properties.flatMap fun p => (v.module.list p.property).map (p.kind, ·)
  let found ← entries.mapM fun (kind, entry) => do
    return declared kind entry (← v.reference? entry)
  return found.filterMap id

/-- The edges that declared dependencies make: exempt ones make none. -/
def declaredEdges (v : Viewpoint) (found : List (String × DepTag)) : List Dependency :=
  found.filterMap fun (name, tag) => do
    let id ← v.graph.lookup v.id name
    guard !(v.config.exemptions.isExempt v.module.name (v.graph.module id).name)
    return (id, tag)

/-- The declared names that denote no module, each one once. -/
def missingNames (v : Viewpoint) (found : List (String × DepTag)) : List String :=
  Distinct.firsts <|
    (found.map Prod.fst).filter fun name => (v.graph.lookup v.id name).isNone

def discover (v : Viewpoint) : Except ModuleError StepOutput :=
  match v.registry.get? v.module.moduleType with
  | none => .ok (StepOutput.empty.publish (.discovery []))
  | some type => do
    let found ← declarations v type.dependencyProperties
    let missing := missingNames v found
    if missing ≠ [] ∧ v.config.allowMissing = false then .error (.missingDependencies missing)
    else return ⟨[.discovery missing], declaredEdges v found⟩

def discovery : Phase where
  name := "deps"
  order := .bottomUp
  step v := .ok (discover v)
  barrier := Phase.noBarrier

/-! ## Decisions -/

def decisions : Phase where
  name := "decide"
  order := .parallel
  step v := .ok (.ok (StepOutput.empty.publish (.decision (v.module.decide v.config))))
  barrier := Phase.noBarrier

/-! ## Conversions -/

/-- What a module adds once it is converted: its targets, what its references
turned up, and the edges they ask for. -/
def converted (targets : List Target) (r : ReferenceRecord) : StepOutput :=
  ⟨[.references r.missing r.unconverted, .targets targets],
    r.edges.map fun id => (id, .conversionOnly)⟩

/-- Convert a module that was decided to convert. -/
def convert (v : Viewpoint) : Except Fault (Except ModuleError StepOutput) := do
  match ← v.graph.provider v.id .decision with
  | .decision ⟨true, _, _, _⟩ =>
    match v.registry.converter? v.module with
    | none => return .ok StepOutput.empty
    | some converter =>
      let (result, record) := converter.run v ReferenceRecord.empty
      match ← result with
      | .error e => return .error e
      | .ok targets =>
        if record.missing ≠ [] ∧ v.config.allowMissing = false then
          return .error (.missingDependencies record.missing)
        else return .ok (converted targets record)
  | _ => return .ok StepOutput.empty

def conversions : Phase where
  name := "convert"
  order := .topDown
  step := convert
  barrier := Phase.noBarrier

/-! ## Queries -/

/-- The status of a module, and its queries if it runs externally. -/
def ask (v : Viewpoint) : StepOutput :=
  let builder := v.registry.builder? v.module
  let status := v.module.mixedStatus (builder.map MixedBuilder.supported)
    (v.graph.decidedToConvert v.id) v.config
  match status, builder with
  | .enabled, some builder =>
    ⟨[.queries (builder.queries v.module v.label v.config), .status status], []⟩
  | _, _ => ⟨[.status status], []⟩

/-- The modules that have queries. -/
def queued (g : Graph) : List ModuleId :=
  g.ids.filter fun id => (g.provider? id .queries).isSome

/-- The queries of a module that is to have them. -/
def queueOf (g : Graph) (id : ModuleId) : Except Fault (List Query) := do
  match ← g.provider id .queries with
  | .queries qs => return qs
  | _ => return []

/-- The queries of some modules in one batch. -/
def batch (g : Graph) (ids : List ModuleId) : Except Fault (List Query) := do
  let queues ← ids.mapM (queueOf g)
  return Query.batch queues.flatten

/-- Give each of some modules the answers to its queries, up to the first fault. -/
def distribute (phase : String) (answers : Answers) (g : Graph) :
    List ModuleId → Graph × Option Fault
  | [] => (g, none)
  | id :: rest =>
    match queueOf g id with
    | .error fault => (g, some fault)
    | .ok qs =>
      match g.publish id phase (.answers (answers.restrict qs)) with
      | .ok g => distribute phase answers g rest
      | .error fault => (g, some fault)

/-- The phase in which the queries are collected and answered. -/
def queriesName : String := "mixed_queue"

/-- Have all queries answered at once, if there are any. The queues are read twice,
for the batch and again as the answers are handed out. -/
def answerAll (executor : Executor) (s : RunState) : RunState × Option Abort :=
  let ids := queued s.graph
  match batch s.graph ids with
  | .error fault => (s, some (.fault fault))
  | .ok [] => (s, none)
  | .ok queries =>
    let s := { s with batches := s.batches ++ [queries] }
    match executor queries with
    | .error e => (s, some (.graph (.executor e)))
    | .ok answers =>
      let (g, fault) := distribute queriesName answers s.graph ids
      ({ s with graph := g }, fault.map .fault)

def queries (executor : Executor) : Phase where
  name := queriesName
  order := .parallel
  step v := .ok (.ok (ask v))
  barrier _ s := answerAll executor s

/-! ## Consumption -/

/-- The answers that a module was given. -/
def answersOf (g : Graph) (id : ModuleId) : Answers :=
  match g.provider? id .answers with
  | some (.answers table) => table
  | _ => Answers.empty

/-- What the builder of a module is handed: the module, and the answers to it. -/
def inbox (v : Viewpoint) : Inbox :=
  ⟨v.module, v.label, v.config.platform, answersOf v.graph v.id⟩

/-- What a module publishes, given its answers; one without queries nothing. -/
def consume (v : Viewpoint) : Except ModuleError StepOutput :=
  match v.graph.provider? v.id .queries, v.registry.builder? v.module with
  | some _, some builder => do
    return ⟨← builder.consume (inbox v), []⟩
  | _, _ => .ok StepOutput.empty

def consumption : Phase where
  name := "mixed_consume"
  order := .bottomUp
  step v := .ok (consume v)
  barrier := Phase.noBarrier

/-- All phases, in order. -/
def phases (executor : Executor) : List Phase :=
  [discovery, decisions, conversions, queries executor, consumption]

end TargetGen.Build
