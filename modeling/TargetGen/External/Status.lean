import TargetGen.Config
import TargetGen.Module

/-!
# Status — which modules run on the external executor
-/

namespace TargetGen

/-- Why a module cannot run on the external executor. -/
inductive Incompatibility where
  | unsupportedType
  | disabledModule
  | notConverted
  | optedOut
  | notAllowlisted
  deriving DecidableEq

def Incompatibility.message : Incompatibility → String
  | .unsupportedType => "module type has no mixed build support"
  | .disabledModule => "module is disabled"
  | .notConverted => "module is not converted"
  | .optedOut => "module opted out"
  | .notAllowlisted => "module is not allowlisted for mixed builds"

inductive MixedStatus where
  | enabled
  /-- No module of this run is executed externally. -/
  | disabled
  | incompatible (reason : Incompatibility)
  deriving DecidableEq

/-- The platform on which nothing is executed externally. -/
def MixedStatus.excludedOs : String := "windows"

/-- The status of a module. `supported` is what the module's type says about
external execution, if it says anything; `converted` is whether the module was
decided to convert, which a label written by hand makes up for. -/
def Module.mixedStatus (m : Module) (supported : Option (Module → Config → Bool))
    (converted : Bool) (config : Config) : MixedStatus :=
  if !config.mixedBuilds || config.platform.os = MixedStatus.excludedOs then .disabled
  else
    match supported with
    | none => .incompatible .unsupportedType
    | some supported =>
      if !m.enabled then .incompatible .disabledModule
      else if !converted && m.settings.label.isNone then .incompatible .notConverted
      else if !supported m config then .incompatible .optedOut
      else if !config.allowlist.mixed.contains m.name then .incompatible .notAllowlisted
      else .enabled

end TargetGen
