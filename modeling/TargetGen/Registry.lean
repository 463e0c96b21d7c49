import TargetGen.Conversion.Basic
import TargetGen.External.Builder

/-!
# Registry — the module types of a build
-/

namespace TargetGen

/-- What the entries of a property stand for. -/
inductive ReferenceKind where
  /-- Each entry names a module. -/
  | modules
  /-- References among source paths name modules. -/
  | sources
  /-- Each entry names a license module. -/
  | licenses
  deriving DecidableEq

/-- A property whose entries are dependencies. -/
structure DependencyProperty where
  property : String
  kind : ReferenceKind
  deriving DecidableEq

/-- The properties that carry dependencies unless a type says otherwise. -/
def DependencyProperty.standard : List DependencyProperty := [
  ⟨"deps", .modules⟩,
  ⟨"static_libs", .modules⟩,
  ⟨"shared_libs", .modules⟩,
  ⟨"header_libs", .modules⟩,
  ⟨"srcs", .sources⟩,
  ⟨"data", .sources⟩,
  ⟨"licenses", .licenses⟩]

/-- How modules of a type get into the target system. -/
inductive Ability where
  | native
  | convertible (converter : Converter)
  | mixed (converter : Converter) (builder : MixedBuilder)

namespace Ability

def capability : Ability → Capability
  | native => .native
  | convertible _ => .convertible
  | mixed _ _ => .mixed

def converter? : Ability → Option Converter
  | native => none
  | convertible converter => some converter
  | mixed converter _ => some converter

def builder? : Ability → Option MixedBuilder
  | native | convertible _ => none
  | mixed _ builder => some builder

end Ability

structure ModuleType where
  ability : Ability
  dependencyProperties : List DependencyProperty

structure Registry where
  types : NameMap ModuleType

namespace Registry

def empty : Registry := ⟨NameMap.empty⟩

/-- Register a type, in place of one of the same name. -/
def register (r : Registry) (name : String) (type : ModuleType) : Registry :=
  ⟨r.types.insert name type⟩

def get? (r : Registry) (name : String) : Option ModuleType := r.types.get? name

def contains (r : Registry) (name : String) : Bool := (r.get? name).isSome

def size (r : Registry) : Nat := r.types.entries.length

def isEmpty (r : Registry) : Bool := r.types.entries.isEmpty

/-- The converter of a module's type, if it has one. -/
def converter? (r : Registry) (m : Module) : Option Converter :=
  (r.get? m.moduleType).bind (·.ability.converter?)

/-- The builder of a module's type, if it has one. -/
def builder? (r : Registry) (m : Module) : Option MixedBuilder :=
  (r.get? m.moduleType).bind (·.ability.builder?)

end Registry

end TargetGen
