import TargetGen.Registry

/-!
# Graph — modules and the edges between them

An edge goes from a module to a dependency of it and carries a tag that says
why. Two modules may be joined by several edges, but not twice by the same one.
Next to its edges the graph keeps, for each module, the providers it published
and the errors recorded with it; a module with errors has failed.
-/

namespace TargetGen

/-! ## Edges -/

/-- Why a module depends on another one. -/
inductive DepTag where
  | ordinary
  /-- It uses an output of the other module; the empty tag is the default one. -/
  | outputOf (tag : String)
  | license
  /-- The conversion of one refers to the other. -/
  | conversionOnly
  deriving DecidableEq

namespace DepTag

/-- Whether edges of this kind order the modules of a phase. -/
def orders : DepTag → Bool
  | conversionOnly => false
  | ordinary | outputOf _ | license => true

def text : DepTag → String
  | ordinary => "dep"
  | outputOf tag => if tag = "" then "output" else "output\x7b" ++ tag ++ "\x7d"
  | license => "license"
  | conversionOnly => "bp2build"

/-- The place of a kind of tag among the kinds. -/
def rank : DepTag → Nat
  | ordinary => 0
  | outputOf _ => 1
  | license => 2
  | conversionOnly => 3

/-- The output that a tag asks for, if it is of that kind. -/
def output : DepTag → String
  | outputOf tag => tag
  | ordinary | license | conversionOnly => ""

end DepTag

structure Edge where
  source : ModuleId
  target : ModuleId
  tag : DepTag
  deriving DecidableEq

/-- A dependency of a module, with the tag of its edge. -/
abbrev Dependency := ModuleId × DepTag

/-- The order of dependencies: by module, then by kind of tag, then by output. -/
def Dependency.compare : Dependency → Dependency → Ordering :=
  compareLex (compareOn fun d => d.1) <|
  compareLex (compareOn fun d => d.2.rank) <|
  compareOn fun d => d.2.output

instance : Std.TransCmp Dependency.compare := by unfold Dependency.compare; infer_instance

/-! ## The graph -/

structure Node where
  module : Module
  store : ProviderStore
  errors : List ModuleError
  deriving DecidableEq, Inhabited

structure Graph where
  nodes : List Node
  edges : List Edge
  deriving DecidableEq

namespace Graph

def empty : Graph := ⟨[], []⟩

instance : Inhabited Graph := ⟨empty⟩

def size (g : Graph) : Nat := g.nodes.length

/-- All modules, in load order. -/
def ids (g : Graph) : List ModuleId := List.range g.size

def node (g : Graph) (id : ModuleId) : Node := g.nodes.getD id default

def module (g : Graph) (id : ModuleId) : Module := (g.node id).module

/-- The module with a name in a namespace; the global one is the empty name. -/
def find? (g : Graph) (name scope : String) : Option ModuleId :=
  g.nodes.findIdx? fun n => n.module.name = name && n.module.scopeName = scope

/-- The module that a name denotes for another module: `//ns:name` is looked up
in the namespace `ns`, a plain name in that module's own namespace and then in
the global one. -/
def lookup (g : Graph) (source : ModuleId) (name : String) : Option ModuleId :=
  match Text.afterStart "//" name with
  | some rest =>
    match Text.splitFirst ':' rest with
    | some (scope, bare) => g.find? bare scope
    | none => none
  | none =>
    ((g.module source).scope.bind (g.find? name ·)).or (g.find? name "")

/-! ### Loading -/

/-- Load one more module; its capability comes from the registry. -/
def load (registry : Registry) (g : Graph) (m : Module) : Except GraphError Graph :=
  match registry.get? m.moduleType with
  | none => .error (.unknownType m.name m.moduleType)
  | some type =>
    match g.find? m.name m.scopeName with
    | some _ => .error (.duplicateModule m.name m.scopeName)
    | none =>
      let loaded := { m with capability := type.ability.capability }
      .ok { g with nodes := g.nodes ++ [⟨loaded, ProviderStore.empty, []⟩] }

/-- The graph of some modules, without edges. -/
def ofModules (registry : Registry) (modules : List Module) : Except GraphError Graph :=
  modules.foldlM (load registry) empty

/-! ### Edges -/

def hasEdge (g : Graph) (e : Edge) : Bool := g.edges.contains e

/-- Add an edge, unless it is there. -/
def addEdge (g : Graph) (e : Edge) : Graph := { g with edges := Distinct.append g.edges e }

def edgeCount (g : Graph) : Nat := g.edges.length

/-- The direct dependencies of a module with their tags, in order. -/
def dependencies (g : Graph) (id : ModuleId) : List Dependency :=
  Ordered.ofList Dependency.compare <|
    (g.edges.filter (·.source = id)).map fun e => (e.target, e.tag)

/-- Whether some edge goes from `a` to `b`. -/
def dependsOn (g : Graph) (a b : ModuleId) : Bool :=
  g.edges.any fun e => e.source = a && e.target = b

/-- The direct dependencies of a module, in load order. -/
def dependencyIds (g : Graph) (id : ModuleId) : List ModuleId :=
  g.ids.filter (g.dependsOn id ·)

/-- The modules that directly depend on a module, in load order. -/
def dependentIds (g : Graph) (id : ModuleId) : List ModuleId :=
  g.ids.filter (g.dependsOn · id)

/-! ### Labels -/

/-- The absolute label of a module: the one written by hand, or else its name in
the package of its directory. -/
def labelFor (g : Graph) (id : ModuleId) : Label :=
  let m := g.module id
  ⟨m.settings.label.getD ("//" ++ m.package ++ ":" ++ m.name), ":" ++ m.name⟩

/-! ### Providers -/

def modifyNode (g : Graph) (id : ModuleId) (f : Node → Node) : Graph :=
  { g with nodes := g.nodes.modify id f }

/-- Publish a provider for a module. -/
def publish (g : Graph) (id : ModuleId) (phase : String) (p : Provider) :
    Except Fault Graph := do
  let store ← (g.node id).store.publish phase p
  return g.modifyNode id fun n => { n with store := store }

/-- A provider that may be absent. -/
def provider? (g : Graph) (id : ModuleId) (kind : ProviderKind) : Option Provider :=
  (g.node id).store.get? kind

/-- A provider that the arrangement of phases promises to be there. -/
def provider (g : Graph) (id : ModuleId) (kind : ProviderKind) : Except Fault Provider :=
  match g.provider? id kind with
  | some p => .ok p
  | none => .error (.unpublished (g.module id).name kind)

def decision? (g : Graph) (id : ModuleId) : Option Decision :=
  match g.provider? id .decision with
  | some (.decision d) => some d
  | _ => none

/-- Whether a module was decided to convert. -/
def decidedToConvert (g : Graph) (id : ModuleId) : Bool :=
  match g.decision? id with
  | some d => d.convert
  | none => false

/-! ### Errors -/

def recordError (g : Graph) (id : ModuleId) (e : ModuleError) : Graph :=
  g.modifyNode id fun n => { n with errors := n.errors ++ [e] }

def errors (g : Graph) (id : ModuleId) : List ModuleError := (g.node id).errors

def isFailed (g : Graph) (id : ModuleId) : Bool := !(g.errors id).isEmpty

/-- The first direct dependency that has failed. -/
def failedDependency (g : Graph) (id : ModuleId) : Option ModuleId :=
  (g.dependencyIds id).find? (g.isFailed ·)

end Graph

end TargetGen
