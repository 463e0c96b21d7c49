import TargetGen.Ordered
import TargetGen.Path

/-!
# Module — a module as declared

A module has a name within a namespace, a type, the directory that declares it
and a bag of properties. What its type can do is kept as a tag on the record.
-/

namespace TargetGen

inductive PropertyValue where
  | bool (value : Bool)
  | text (value : String)
  | list (items : List String)
  deriving DecidableEq

/-- What the target system is told about a module by hand. -/
structure TargetSettings where
  /-- The module's own word on whether it converts. -/
  available : Option Bool
  /-- The label of a target written by hand. -/
  label : Option String
  apiSurface : Bool
  deriving DecidableEq

def TargetSettings.default : TargetSettings := ⟨none, none, false⟩

instance : Inhabited TargetSettings := ⟨TargetSettings.default⟩

/-- What the type of a module can do. -/
inductive Capability where
  | native
  | convertible
  | mixed
  deriving DecidableEq, Inhabited

def Capability.isConvertible : Capability → Bool
  | .native => false
  | .convertible | .mixed => true

def Capability.text : Capability → String
  | .native => "Native"
  | .convertible => "Convertible"
  | .mixed => "Mixed"

structure Module where
  name : String
  moduleType : String
  dir : String
  /-- The namespace it is declared in; none is the global one. -/
  scope : Option String
  enabled : Bool
  props : NameMap PropertyValue
  settings : TargetSettings
  capability : Capability
  deriving DecidableEq, Inhabited

namespace Module

/-- A module without properties; an empty directory is the top of the tree. -/
def plain (name moduleType dir : String) : Module where
  name := name
  moduleType := moduleType
  dir := if dir = "" then Path.top else dir
  scope := none
  enabled := true
  props := NameMap.empty
  settings := TargetSettings.default
  capability := .native

def withProp (m : Module) (name : String) (value : PropertyValue) : Module :=
  { m with props := m.props.insert name value }

def withAvailable (m : Module) (available : Bool) : Module :=
  { m with settings := { m.settings with available := some available } }

def withLabel (m : Module) (label : String) : Module :=
  { m with settings := { m.settings with label := some label } }

def withApiSurface (m : Module) : Module :=
  { m with settings := { m.settings with apiSurface := true } }

def inScope (m : Module) (scope : String) : Module := { m with scope := some scope }

def disabled (m : Module) : Module := { m with enabled := false }

/-- The items of a list property; a property that is absent or no list has none. -/
def list (m : Module) (name : String) : List String :=
  match m.props.get? name with
  | some (.list items) => items
  | _ => []

/-- The package of the module's directory; the top of the tree is the empty
package. -/
def package (m : Module) : String := if m.dir = Path.top then "" else m.dir

/-- The namespace by name; the global one is the empty name. -/
def scopeName (m : Module) : String := m.scope.getD ""

end Module

end TargetGen
