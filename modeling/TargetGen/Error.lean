import TargetGen.External.Query
import TargetGen.SourceTree.Basic

/-!
# Errors — of single modules and of whole runs

An error of a module is recorded with the module and makes it fail; an error of
the graph ends the run.
-/

namespace TargetGen

/-- What is wrong with a reference to a module. -/
inductive ReferenceFault where
  | unclosedTag
  | nestedBraces
  | unopenedTag
  | emptyName
  | other (reason : String)
  deriving DecidableEq

def ReferenceFault.message : ReferenceFault → String
  | .unclosedTag => "unbalanced '\x7b'"
  | .nestedBraces => "nested braces in tag"
  | .unopenedTag => "unbalanced '\x7d'"
  | .emptyName => "empty module name"
  | .other reason => reason

inductive ModuleError where
  | malformedReference (reference : String) (fault : ReferenceFault)
  | missingDependencies (names : List String)
  | crossPackage (attr : String) (packages : List String)
  | tree (message : String)
  | conversion (message : String)
  | mixedBuild (message : String)
  | dependencyFailed (dependency : String)
  deriving DecidableEq

namespace ModuleError

def ofTree (e : TreeError) : ModuleError := .tree e.message

def message : ModuleError → String
  | .malformedReference reference fault =>
    "malformed module reference '" ++ reference ++ "': " ++ fault.message
  | .missingDependencies names => "missing dependencies: " ++ ", ".intercalate names
  | .crossPackage attr packages =>
    attr ++ " spans multiple packages: " ++ ", ".intercalate packages
  | .tree message => "filesystem error: " ++ message
  | .conversion message => "conversion failed: " ++ message
  | .mixedBuild message => "mixed build error: " ++ message
  | .dependencyFailed dependency => "dependency '" ++ dependency ++ "' failed"

end ModuleError

inductive GraphError where
  | duplicateModule (name scope : String)
  | unknownType (module moduleType : String)
  | cycle (phase : String)
  | executor (error : ExecutorError)
  | workers (message : String)
  deriving DecidableEq

def GraphError.message : GraphError → String
  | .duplicateModule name scope =>
    "duplicate module '" ++ name ++ "' in namespace '" ++ scope ++ "'"
  | .unknownType module moduleType =>
    "module '" ++ module ++ "' has unknown type '" ++ moduleType ++ "'"
  | .cycle phase => "dependency cycle detected during phase '" ++ phase ++ "'"
  | .executor error => "external executor failed: " ++ error.message
  | .workers message => "failed to start worker pool: " ++ message

end TargetGen
