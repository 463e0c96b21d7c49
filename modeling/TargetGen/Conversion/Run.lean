import TargetGen.Expansion

/-!
# Running conversions

A conversion runs from the viewpoint of its module. The record of references
grows as it goes and is there whether or not the conversion succeeds.
-/

namespace TargetGen

/-- Run a conversion, starting from a record of references. -/
def Conversion.run {α : Type} (v : Viewpoint) :
    Conversion α → ReferenceRecord → Except Fault (Except ModuleError α) × ReferenceRecord
  | done result, r => (.ok result, r)
  | expand paths excludes next, r =>
    let (found, r) := v.expand paths excludes r
    (next found).run v r
  | expandModules names next, r =>
    let (found, r) := v.expandModules names r
    (next found).run v r
  | readProvider name kind next, r =>
    match v.dependencyProvider name kind with
    | .error fault => (.error fault, r)
    | .ok found => (next found).run v r
  | readRecord next, r => (next r).run v r

/-- Run the converter of a module. -/
def Converter.run (c : Converter) (v : Viewpoint) (r : ReferenceRecord) :
    Except Fault (Except ModuleError (List Target)) × ReferenceRecord :=
  (c.convert v.module v.config v.label).run v r

end TargetGen
