import TargetGen.Graph.Basic

/-!
# Loader — modules loaded with an index of their names

Loading has to know whether a name is taken in its namespace. A loader keeps, next
to the modules that it has loaded, the place of each of them by namespace and name,
so it looks a name up and does not go through the modules again. The stores and the
lists of errors are made when all modules are there.
-/

namespace TargetGen

/-- The modules loaded so far, and where they stand by namespace and name. -/
structure Loader where
  modules : List Module
  places : List ((String × String) × ModuleId)

namespace Loader

def empty : Loader := ⟨[], []⟩

/-- Load one more module, if its type is known and its name is free. -/
def load (registry : Registry) (l : Loader) (m : Module) : Except GraphError Loader :=
  match registry.get? m.moduleType with
  | none => .error (.unknownType m.name m.moduleType)
  | some type =>
    let key := (m.scopeName, m.name)
    match l.places.lookup key with
    | some _ => .error (.duplicateModule m.name m.scopeName)
    | none =>
      .ok ⟨l.modules ++ [{ m with capability := type.ability.capability }],
        (key, l.modules.length) :: l.places⟩

def ofModules (registry : Registry) (modules : List Module) : Except GraphError Loader :=
  modules.foldlM (load registry) empty

/-- The place of the module with a name in a namespace; the global one is the empty
name. -/
def find? (l : Loader) (name scope : String) : Option ModuleId := l.places.lookup (scope, name)

/-- The graph of the modules that are loaded, without edges. -/
def graph (l : Loader) : Graph := ⟨l.modules.map (⟨·, ProviderStore.empty, []⟩), []⟩

end Loader

end TargetGen
