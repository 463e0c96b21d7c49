import TargetGen.Describe.Invisible
import TargetGen.Phase.Basic

/-!
# Descriptions — stores, graphs and schedules on one line

For logs and messages. Texts stand between quotes, with escapes for quotes,
backslashes and all characters that would not show.
-/

namespace TargetGen

namespace Describe

/-- A character between quotes. -/
def escape (c : Char) : List Char :=
  if c = '"' then ['\\', '"']
  else if c = '\\' then ['\\', '\\']
  else if c = '\n' then ['\\', 'n']
  else if c = '\r' then ['\\', 'r']
  else if c = '\t' then ['\\', 't']
  else if c.toNat = 0 then ['\\', '0']
  else if isInvisible c then
    ['\\', 'u', '\x7b'] ++ Nat.toDigits 16 c.toNat ++ ['\x7d']
  else [c]

/-- A text between quotes. -/
def quoted (s : String) : String :=
  String.ofList ('"' :: (s.toList.flatMap escape ++ ['"']))

/-- Texts between brackets. -/
def list (items : List String) : String :=
  "[" ++ ", ".intercalate (items.map quoted) ++ "]"

/-- A name with fields in braces. -/
def record (name : String) (fields : List String) : String :=
  name ++ " \x7b " ++ ", ".intercalate fields ++ " \x7d"

end Describe

/-- A provider store by what is in it. -/
def ProviderStore.describe (title : ProviderKind → String) (s : ProviderStore) : String :=
  Describe.record "ProviderStore" ["providers: " ++ Describe.list (s.titles title)]

/-- A provider that is not published yet, by its kind. -/
def ProviderKind.describe (title : ProviderKind → String) (kind : ProviderKind) : String :=
  Describe.record "PendingProvider" ["type: " ++ Describe.quoted (title kind)]

/-- A graph by its size. -/
def Graph.describe (g : Graph) : String :=
  Describe.record "ModuleGraph"
    ["modules: " ++ toString g.size, "edges: " ++ toString g.edgeCount, ".."]

/-- Phases with the number of steps that may run at the same time. -/
def Phase.describe (phases : List Phase) (config : Config) : String :=
  Describe.record "Scheduler"
    ["phases: " ++ Describe.list (phases.map Phase.name),
      "workers: " ++ toString config.parallelism]

end TargetGen
