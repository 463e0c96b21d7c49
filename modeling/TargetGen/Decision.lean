import TargetGen.Config
import TargetGen.Module

/-!
# Decision — which modules convert

The first rule that applies decides:

* where only API surfaces convert, a module converts if it contributes to one;
* a module at the top of the tree that opts in converts;
* a module that is forced in both by name and by type is in conflict, as is one
  forced in and denied by name; a denied module does not convert;
* in a directory that converts by default a module converts unless it opts out,
  and forcing it in by name as well is a conflict;
* elsewhere the module's own word counts, or else whether it is forced in.

A module in conflict does not convert; other modules are not affected.
-/

namespace TargetGen

/-- Two tables that contradict each other about a module. -/
inductive Conflict where
  | nameAndType (module moduleType : String)
  | nameAndDenial (module : String)
  | nameAndDirectory (module dir : String)
  deriving DecidableEq

def Conflict.message : Conflict → String
  | .nameAndType module moduleType =>
    "module '" ++ module ++ "' is allowlisted by name and its type '" ++ moduleType
      ++ "' is allowlisted too"
  | .nameAndDenial module =>
    "module '" ++ module ++ "' is both allowlisted and denylisted by name"
  | .nameAndDirectory module dir =>
    "module '" ++ module ++ "' is allowlisted by name but directory '" ++ dir
      ++ "' already converts by default"

inductive Reason where
  | notConvertible
  | apiSurface
  | topLevelOptIn
  | conflict
  | denied
  | directoryDefault
  | explicit
  | allowlisted
  | fallback
  deriving DecidableEq

structure Decision where
  convert : Bool
  reason : Reason
  /-- The directory whose default was looked up, where one was. -/
  directory : Option String
  conflicts : List Conflict
  deriving DecidableEq

namespace Decision

def plain (convert : Bool) (reason : Reason) : Decision := ⟨convert, reason, none, []⟩

def inDirectory (convert : Bool) (reason : Reason) (directory : String) : Decision :=
  ⟨convert, reason, some directory, []⟩

def inConflict (conflict : Conflict) (directory : Option String) : Decision :=
  ⟨false, .conflict, directory, [conflict]⟩

end Decision

/-- Whether a module converts. -/
def Module.decide (m : Module) (config : Config) : Decision :=
  let byName := config.allowlist.always.contains m.name
  let byType := config.allowlist.alwaysTypes.contains m.moduleType
  let explicit := m.settings.available
  if !m.capability.isConvertible then .plain false .notConvertible
  else if config.mode = .apiOnly then .plain m.settings.apiSurface .apiSurface
  else if m.dir = Path.top ∧ explicit = some true then .plain true .topLevelOptIn
  else if byName && byType then .inConflict (.nameAndType m.name m.moduleType) none
  else if config.allowlist.never.contains m.name then
    if byName then .inConflict (.nameAndDenial m.name) none else .plain false .denied
  else
    match DirDefault.resolve m.dir config.allowlist.dirDefaults with
    | (true, directory) =>
      if byName then .inConflict (.nameAndDirectory m.name directory) (some directory)
      else .inDirectory (explicit.getD true) .directoryDefault directory
    | (false, directory) =>
      match explicit with
      | some value => .inDirectory value .explicit directory
      | none =>
        if byName || byType then .inDirectory true .allowlisted directory
        else .inDirectory false .fallback directory

end TargetGen
