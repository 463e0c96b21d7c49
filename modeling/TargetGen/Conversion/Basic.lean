import TargetGen.Provider

/-!
# Conversion — what a converter may do

A converter turns a module into targets. It is a program that asks for list
expansions, for providers of dependencies and for what its references turned
up, and goes on with the answers; all else it computes by itself. Being a tree
of requests, it can be run against a graph and be reasoned about without one.
-/

namespace TargetGen

inductive Conversion (α : Type) where
  | done (result : Except ModuleError α)
  /-- Expand paths, patterns and references less excluded ones. -/
  | expand (paths excludes : List String) (next : Except ModuleError LabelList → Conversion α)
  /-- Expand names of modules. -/
  | expandModules (names : List String) (next : Except ModuleError LabelList → Conversion α)
  /-- Read a provider of the dependency with the given name. -/
  | readProvider (name : String) (kind : ProviderKind) (next : Option Provider → Conversion α)
  /-- Read what the references so far turned up. -/
  | readRecord (next : ReferenceRecord → Conversion α)

namespace Conversion

variable {α β : Type}

/-- Run one conversion and then another that depends on its result; an error
of the first one ends both. -/
def andThen (f : α → Conversion β) : Conversion α → Conversion β
  | done (.ok a) => f a
  | done (.error e) => done (.error e)
  | expand paths excludes next => expand paths excludes fun r => (next r).andThen f
  | expandModules names next => expandModules names fun r => (next r).andThen f
  | readProvider name kind next => readProvider name kind fun p => (next p).andThen f
  | readRecord next => readRecord fun r => (next r).andThen f

instance : Monad Conversion where
  pure a := done (.ok a)
  bind p f := p.andThen f

def fail (e : ModuleError) : Conversion α := done (.error e)

/-- The labels of paths less excluded ones. -/
def labelsOf (paths excludes : List String) : Conversion LabelList :=
  expand paths excludes done

/-- The labels of named modules. -/
def labelsOfModules (names : List String) : Conversion LabelList :=
  expandModules names done

/-- A provider of a direct dependency; none if the name is not one. -/
def providerOf (name : String) (kind : ProviderKind) : Conversion (Option Provider) :=
  readProvider name kind fun p => done (.ok p)

/-- The labels of a list property less those of another one. -/
def sources (m : Module) (property excluded : String) : Conversion LabelList :=
  labelsOf (m.list property) (m.list excluded)

/-- The labels of a list property of module names. -/
def dependencies (m : Module) (property : String) : Conversion LabelList :=
  labelsOfModules (m.list property)

end Conversion

/-- The package that all absolute labels of an attribute share, none if there
are no such labels; labels of several packages are an error. -/
def LabelList.singlePackage (list : LabelList) (attr : String) :
    Except ModuleError (Option String) :=
  match list.packages.names with
  | [] => .ok none
  | [package] => .ok (some package)
  | packages => .error (.crossPackage attr packages)

/-- How the modules of a type are converted. -/
structure Converter where
  /-- The conversion of a module under a configuration; the label is its own. -/
  convert : Module → Config → Label → Conversion (List Target)
  /-- Whether a tag of a reference names an output with a label of its own. -/
  taggedOutput : String → Bool

end TargetGen
