import TargetGen.Build.Phases

/-!
# Discovery — the dependencies of a module in one pass

The entries of a module can also be gone through once, property by property. Each of
them is read and looked up on the spot, and what it comes to is kept: an edge, or a
name that denotes no module. A malformed reference ends the pass, whatever was
missing before it.
-/

namespace TargetGen.Build

/-- What was found of the dependencies of a module so far. -/
structure Findings where
  edges : List Dependency
  /-- The names that denote no module, each one once. -/
  missing : List String
  deriving DecidableEq

namespace Findings

def empty : Findings := ⟨[], []⟩

/-- Look a dependency up. -/
def note (v : Viewpoint) (f : Findings) (name : String) (tag : DepTag) : Findings :=
  match v.graph.lookup v.id name with
  | some id =>
    if v.config.exemptions.isExempt v.module.name (v.graph.module id).name then f
    else { f with edges := f.edges ++ [(id, tag)] }
  | none => if name ∈ f.missing then f else { f with missing := f.missing ++ [name] }

/-- Read an entry, and look up the dependency that it declares. -/
def visit (v : Viewpoint) (kind : ReferenceKind) (f : Findings) (entry : String) :
    Except ModuleError Findings := do
  match declared kind entry (← v.reference? entry) with
  | some (name, tag) => return f.note v name tag
  | none => return f

/-- Visit all entries of some properties, in order. -/
def ofProperties (v : Viewpoint) (properties : List DependencyProperty) :
    Except ModuleError Findings :=
  properties.foldlM (fun f p => (v.module.list p.property).foldlM (visit v p.kind) f) empty

end Findings

/-- The step of `discovery` in one pass. -/
def discoverInOnePass (v : Viewpoint) : Except ModuleError StepOutput :=
  match v.registry.get? v.module.moduleType with
  | none => .ok (StepOutput.empty.publish (.discovery []))
  | some type => do
    let f ← Findings.ofProperties v type.dependencyProperties
    if f.missing ≠ [] ∧ v.config.allowMissing = false then
      .error (.missingDependencies f.missing)
    else return ⟨[.discovery f.missing], f.edges⟩

end TargetGen.Build
