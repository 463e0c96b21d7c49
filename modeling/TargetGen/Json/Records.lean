import TargetGen.Decision
import TargetGen.External.Query
import TargetGen.External.Status
import TargetGen.Json.Value
import TargetGen.Target

/-!
# Records in JSON

How the records of a build are written as JSON values and read back. Sets are
arrays in order, maps are objects, and an alternative without content is its
name.
-/

namespace TargetGen

/-! ## Alternatives, sets and maps -/

namespace Json

/-- One of several alternatives without content: its name, or an object that
gives the name the value `null`. -/
def alternative {α : Type} (names : List (String × α)) : Json → Option α
  | .string (some name) => names.lookup name
  | .object [(some name, .null)] => names.lookup name
  | _ => none

def names? (json : Json) : Option NameSet := (json.list? text?).map NameSet.ofList

def names (s : NameSet) : Json := texts s.names

def map? {β : Type} (decode : Json → Option β) (json : Json) : Option (NameMap β) := do
  let members ← json.members?
  let bindings ← members.mapM fun (name, value) => (decode value).map (name, ·)
  return NameMap.ofList bindings

def map {β : Type} (encode : β → Json) (m : NameMap β) : Json :=
  record (m.entries.map fun (name, value) => (name, encode value))

end Json

/-! ## Configuration -/

namespace DirDefault

def ofJson : Json → Option DirDefault :=
  Json.alternative
    [("true", yes), ("true_recursively", yesBelow), ("false", no), ("false_recursively", noBelow)]

def toJson : DirDefault → Json
  | yes => .text "true"
  | yesBelow => .text "true_recursively"
  | no => .text "false"
  | noBelow => .text "false_recursively"

end DirDefault

namespace BuildMode

def ofJson : Json → Option BuildMode :=
  Json.alternative [("bp2build", full), ("api_bp2build", apiOnly)]

def toJson : BuildMode → Json
  | full => .text "bp2build"
  | apiOnly => .text "api_bp2build"

end BuildMode

namespace Platform

def ofJson (json : Json) : Option Platform := do
  match ← json.fields ["os", "arch"] with
  | [os, arch] => return ⟨← Json.required Json.text? os, ← Json.required Json.text? arch⟩
  | _ => none

def toJson (p : Platform) : Json := .record [("os", .text p.os), ("arch", .text p.arch)]

end Platform

namespace EdgeExemptions

def ofJson (json : Json) : Option EdgeExemptions := do
  match ← json.fields ["from", "to"] with
  | [sources, targets] =>
    return ⟨← Json.optional Json.names? NameSet.empty sources,
      ← Json.optional Json.names? NameSet.empty targets⟩
  | _ => none

def toJson (e : EdgeExemptions) : Json :=
  .record [("from", .names e.sources), ("to", .names e.targets)]

end EdgeExemptions

namespace Allowlist

def ofJson (json : Json) : Option Allowlist := do
  match ← json.fields ["dir_defaults", "module_always_convert", "module_type_always_convert",
      "module_do_not_convert", "keep_existing_build_file", "mixed_build_modules"] with
  | [dirDefaults, always, alwaysTypes, never, kept, mixed] =>
    return {
      dirDefaults := ← Json.optional (Json.map? DirDefault.ofJson) NameMap.empty dirDefaults
      always := ← Json.optional Json.names? NameSet.empty always
      alwaysTypes := ← Json.optional Json.names? NameSet.empty alwaysTypes
      never := ← Json.optional Json.names? NameSet.empty never
      kept := ← Json.optional (Json.map? Json.bool?) NameMap.empty kept
      mixed := ← Json.optional Json.names? NameSet.empty mixed }
  | _ => none

def toJson (a : Allowlist) : Json :=
  .record [
    ("dir_defaults", .map DirDefault.toJson a.dirDefaults),
    ("module_always_convert", .names a.always),
    ("module_type_always_convert", .names a.alwaysTypes),
    ("module_do_not_convert", .names a.never),
    ("keep_existing_build_file", .map Json.bool a.kept),
    ("mixed_build_modules", .names a.mixed)]

end Allowlist

/-! ## Modules -/

namespace PropertyValue

def ofJson : Json → Option PropertyValue
  | .bool value => some (bool value)
  | .string s => s.map text
  | .array items => (items.mapM Json.text?).map list
  | _ => none

def toJson : PropertyValue → Json
  | bool value => .bool value
  | text value => .text value
  | list items => .texts items

end PropertyValue

namespace TargetSettings

def ofJson (json : Json) : Option TargetSettings := do
  match ← json.fields ["bp2build_available", "label", "api_surface"] with
  | [available, label, apiSurface] =>
    return ⟨← Json.optional (Json.nullable Json.bool?) none available,
      ← Json.optional (Json.nullable Json.text?) none label,
      ← Json.optional Json.bool? false apiSurface⟩
  | _ => none

def toJson (s : TargetSettings) : Json :=
  .record [
    ("bp2build_available", .option Json.bool s.available),
    ("label", .option Json.text s.label),
    ("api_surface", .bool s.apiSurface)]

end TargetSettings

namespace Module

/-- A module as declared; what its type can do is not written. -/
def ofJson (json : Json) : Option Module := do
  match ← json.fields
      ["name", "module_type", "dir", "namespace", "enabled", "props", "bazel"] with
  | [name, moduleType, dir, scope, enabled, props, settings] =>
    return {
      name := ← Json.required Json.text? name
      moduleType := ← Json.required Json.text? moduleType
      dir := ← Json.required Json.text? dir
      scope := ← Json.optional (Json.nullable Json.text?) none scope
      enabled := ← Json.optional Json.bool? true enabled
      props := ← Json.optional (Json.map? PropertyValue.ofJson) NameMap.empty props
      settings := ← Json.optional TargetSettings.ofJson TargetSettings.default settings
      capability := .native }
  | _ => none

def toJson (m : Module) : Json :=
  .record [
    ("name", .text m.name),
    ("module_type", .text m.moduleType),
    ("dir", .text m.dir),
    ("namespace", .option Json.text m.scope),
    ("enabled", .bool m.enabled),
    ("props", .map PropertyValue.toJson m.props),
    ("bazel", m.settings.toJson)]

end Module

/-! ## Labels -/

namespace Label

def ofJson (json : Json) : Option Label := do
  match ← json.fields ["address", "original"] with
  | [address, spelling] =>
    return ⟨← Json.required Json.text? address, ← Json.required Json.text? spelling⟩
  | _ => none

def toJson (l : Label) : Json :=
  .record [("address", .text l.address), ("original", .text l.spelling)]

end Label

namespace LabelList

def ofJson (json : Json) : Option LabelList := do
  match ← json.fields ["includes", "excludes"] with
  | [includes, excludes] =>
    return ⟨← Json.required (Json.list? Label.ofJson) includes,
      ← Json.required (Json.list? Label.ofJson) excludes⟩
  | _ => none

def toJson (l : LabelList) : Json :=
  .record [
    ("includes", .array (l.includes.map Label.toJson)),
    ("excludes", .array (l.excludes.map Label.toJson))]

end LabelList

/-! ## Queries -/

namespace Request

def ofJson : Json → Option Request
  | .object [(some "custom", .string name)] => name.map custom
  | json =>
    json.alternative [("output_files", outputFiles), ("cc_info", ccInfo), ("binary", binary)]

def toJson : Request → Json
  | outputFiles => .text "output_files"
  | ccInfo => .text "cc_info"
  | binary => .text "binary"
  | custom name => .record [("custom", .text name)]

end Request

namespace Query

def ofJson (json : Json) : Option Query := do
  match ← json.fields ["label", "config", "request"] with
  | [label, platform, request] =>
    return ⟨← Json.required Json.text? label, ← Json.required Platform.ofJson platform,
      ← Json.required Request.ofJson request⟩
  | _ => none

def toJson (q : Query) : Json :=
  .record [
    ("label", .text q.label),
    ("config", q.platform.toJson),
    ("request", q.request.toJson)]

end Query

/-! ## Results, which are only written -/

def MixedStatus.toJson : MixedStatus → Json
  | .enabled => .text "enabled"
  | .disabled => .text "disabled"
  | .incompatible reason => .record [("incompatible", .text reason.message)]

def Conflict.toJson : Conflict → Json
  | .nameAndType module moduleType =>
    .record [("NameAndType",
      .record [("module", .text module), ("module_type", .text moduleType)])]
  | .nameAndDenial module =>
    .record [("NameAndDenylist", .record [("module", .text module)])]
  | .nameAndDirectory module dir =>
    .record [("NameAndDirectory", .record [("module", .text module), ("dir", .text dir)])]

def Reason.toJson : Reason → Json
  | .notConvertible => .text "not_convertible"
  | .apiSurface => .text "api_surface"
  | .topLevelOptIn => .text "top_level_opt_in"
  | .conflict => .text "conflict"
  | .denied => .text "denylisted"
  | .directoryDefault => .text "directory_default"
  | .explicit => .text "explicit"
  | .allowlisted => .text "allowlisted"
  | .fallback => .text "default"

def Decision.toJson (d : Decision) : Json :=
  .record [
    ("convert", .bool d.convert),
    ("reason", d.reason.toJson),
    ("matched_prefix", .option Json.text d.directory),
    ("diagnostics", .array (d.conflicts.map Conflict.toJson))]

def AttrValue.toJson : AttrValue → Json
  | .bool value => .bool value
  | .text value => .text value
  | .texts items => .texts items
  | .label value => value.toJson
  | .labels items => .array (items.map Label.toJson)

def Target.toJson (t : Target) : Json :=
  .record [
    ("name", .text t.name),
    ("rule_class", .text t.rule),
    ("package", .text t.package),
    ("attrs", .map AttrValue.toJson t.attrs)]

end TargetGen
