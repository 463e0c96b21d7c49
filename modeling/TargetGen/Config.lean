import TargetGen.Config.Allowlist
import TargetGen.SourceTree.Basic

/-!
# Config — the settings of one run

A configuration is fixed before a run starts and read by all of its steps.
-/

namespace TargetGen

/-- Whether a run converts modules in general or only those that contribute to
an API surface. -/
inductive BuildMode where
  | full
  | apiOnly
  deriving DecidableEq, Inhabited

structure Platform where
  os : String
  arch : String
  deriving DecidableEq

namespace Platform

def default : Platform := ⟨"linux", "x86_64"⟩

instance : Inhabited Platform := ⟨default⟩

def text (p : Platform) : String := p.os ++ "_" ++ p.arch

end Platform

/-- Modules whose references make no edges: those that refer, and those
referred to. -/
structure EdgeExemptions where
  sources : NameSet
  targets : NameSet
  deriving DecidableEq, Inhabited

/-- Whether a reference between two modules makes no edge; a module's reference
to itself never makes one. -/
def EdgeExemptions.isExempt (e : EdgeExemptions) (source target : String) : Bool :=
  source = target || e.sources.contains source || e.targets.contains target

structure Config where
  allowlist : Allowlist
  platform : Platform
  mode : BuildMode
  /-- Whether references to modules that do not exist are tolerated. -/
  allowMissing : Bool
  mixedBuilds : Bool
  exemptions : EdgeExemptions
  /-- How many steps may run at the same time; results do not depend on it. -/
  parallelism : Nat
  tree : SourceTree

namespace Config

/-- The plain settings for a source tree. -/
def ofTree (tree : SourceTree) : Config where
  allowlist := Allowlist.empty
  platform := Platform.default
  mode := .full
  allowMissing := false
  mixedBuilds := false
  exemptions := default
  parallelism := 1
  tree := tree

/-- The same settings with room for `n` steps at a time, at least one. -/
def withParallelism (c : Config) (n : Nat) : Config := { c with parallelism := max n 1 }

end Config

end TargetGen
