import TargetGen.Decision
import TargetGen.External.Status
import TargetGen.Reference
import TargetGen.Target

/-!
# Provider — what modules publish for later phases

A provider is a value of some kind that a module publishes during one phase. A
kind is published at most once by each module; reading what is not there and
publishing again are faults of whoever arranged the phases, not errors of the
module.
-/

namespace TargetGen

inductive ProviderKind where
  | discovery
  | decision
  | references
  | targets
  | queries
  | status
  | answers
  /-- A kind that only particular module types know. -/
  | custom (name : String)
  deriving DecidableEq

inductive Provider where
  /-- Names that discovery could not find. -/
  | discovery (missing : List String)
  | decision (value : Decision)
  /-- Names that conversion could not find, and found without a target. -/
  | references (missing unconverted : List String)
  | targets (items : List Target)
  | queries (items : List Query)
  | status (value : MixedStatus)
  | answers (table : Answers)
  | custom (name content : String)
  deriving DecidableEq

def Provider.kind : Provider → ProviderKind
  | .discovery _ => .discovery
  | .decision _ => .decision
  | .references _ _ => .references
  | .targets _ => .targets
  | .queries _ => .queries
  | .status _ => .status
  | .answers _ => .answers
  | .custom name _ => .custom name

/-- A mistake in how phases are arranged. -/
inductive Fault where
  | unpublished (module : String) (kind : ProviderKind)
  | republished (kind : ProviderKind) (first second : String)
  deriving DecidableEq

/-- The text of a fault, with `title` naming the kinds of providers. -/
def Fault.message (title : ProviderKind → String) : Fault → String
  | .unpublished module kind =>
    "module '" ++ module ++ "' read provider " ++ title kind ++ " before it was published"
  | .republished kind first second =>
    "provider " ++ title kind ++ " already published in phase '" ++ first
      ++ "', republished in phase '" ++ second ++ "'"

/-! ## The providers of one module -/

/-- A provider and the phase that published it. -/
structure Published where
  phase : String
  provider : Provider
  deriving DecidableEq

structure ProviderStore where
  published : List Published
  deriving DecidableEq

namespace ProviderStore

def empty : ProviderStore := ⟨[]⟩

instance : Inhabited ProviderStore := ⟨empty⟩

def find? (s : ProviderStore) (kind : ProviderKind) : Option Published :=
  s.published.find? (·.provider.kind = kind)

def get? (s : ProviderStore) (kind : ProviderKind) : Option Provider :=
  (s.find? kind).map Published.provider

/-- Publish a provider of a kind that is not there yet. -/
def publish (s : ProviderStore) (phase : String) (p : Provider) : Except Fault ProviderStore :=
  match s.find? p.kind with
  | some earlier => .error (.republished p.kind earlier.phase phase)
  | none => .ok ⟨s.published ++ [⟨phase, p⟩]⟩

/-- The kinds that are there, by name. -/
def titles (s : ProviderStore) (title : ProviderKind → String) : List String :=
  Ordered.ofList compareNames (s.published.map fun p => title p.provider.kind)

end ProviderStore

end TargetGen
