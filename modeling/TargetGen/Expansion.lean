import TargetGen.Graph.Basic
import TargetGen.Package

/-!
# Expansion — from list properties to labels

An entry of a list property is a reference to a module, a pattern or a literal
path. Expansion turns entries into labels as seen from one module, and notes
what the references among them turned up; what was noted before an entry that
fails stays noted.

* `Viewpoint`: a module looking at the graph and the source tree;
* `Viewpoint.reference?`: which entries are references;
* `Viewpoint.moduleLabel`: the label of another module;
* `Viewpoint.expand`, `Viewpoint.expandModules`: whole lists.
-/

namespace TargetGen

/-- What a module sees while one of its steps runs. -/
structure Viewpoint where
  graph : Graph
  registry : Registry
  config : Config
  id : ModuleId

namespace Viewpoint

def module (v : Viewpoint) : Module := v.graph.module v.id

/-- The module's own label. -/
def label (v : Viewpoint) : Label := v.graph.labelFor v.id

/-! ## References -/

/-- The reference that an entry is, if it is one. An entry `//ns:name` is one
only if the namespace has such a module; it is an absolute label otherwise. -/
def reference? (v : Viewpoint) (entry : String) : Except ModuleError (Option Reference) :=
  match Text.afterStart ":" entry with
  | some rest => do return some (← Reference.ofMarked entry rest)
  | none =>
    match (Text.afterStart "//" entry).bind (Text.splitFirst ':') with
    | some (scope, rest) => do
      let reference ← Reference.ofMarked entry rest
      match v.graph.find? reference.name scope with
      | some _ => return some { reference with name := Reference.qualified scope reference.name }
      | none => return none
    | none => .ok none

/-- Whether a module has a usable target: it has not failed, and has a label
written by hand or was decided to convert. -/
def isConverted (v : Viewpoint) (id : ModuleId) : Bool :=
  !v.graph.isFailed id &&
    ((v.graph.module id).settings.label.isSome || v.graph.decidedToConvert id)

/-- Whether a tag names an output of a module that has a label of its own. -/
def hasTaggedOutput (v : Viewpoint) (m : Module) (tag : String) : Bool :=
  match v.registry.converter? m with
  | some converter => converter.taggedOutput tag
  | none => false

/-- Ends the name of a target that stands for a module that does not exist. -/
def missingSuffix : String := "__BP2BUILD__MISSING__DEP"

/-- The address of another module: short if it is in this module's package. -/
def moduleAddress (v : Viewpoint) (reference : Reference) : String :=
  match v.graph.lookup v.id reference.name with
  | none => ":" ++ Reference.bareName reference.name ++ missingSuffix
  | some id =>
    let address := (v.graph.labelFor id).address
    let tagged := reference.tag ≠ "" ∧ v.hasTaggedOutput (v.graph.module id) reference.tag
    let label := Label.ofAddress (if tagged then address ++ reference.tag else address)
    if label.package? = some v.module.package then ":" ++ label.targetName else label.address

/-- The label of another module, spelled like the entry that refers to it. -/
def moduleLabel (v : Viewpoint) (entry : String) (reference : Reference) : Label :=
  ⟨v.moduleAddress reference, entry⟩

/-- Note what a reference turned up. Where `wantsEdge` says so, a module that
exists is to be joined by an edge, unless the pair is exempt. -/
def note (v : Viewpoint) (wantsEdge : Bool) (reference : Reference) (r : ReferenceRecord) :
    ReferenceRecord :=
  match v.graph.lookup v.id reference.name with
  | none => r.addMissing reference.name
  | some id =>
    let name := (v.graph.module id).name
    let r := if wantsEdge && !v.config.exemptions.isExempt v.module.name name then r.addEdge id
      else r
    if v.isConverted id then r else r.addUnconverted name

/-! ## Paths -/

/-- The label of a path from the top. Paths outside the module's directory are
addressed through the package that owns them. -/
def pathLabel (v : Viewpoint) (path spelling : String) : Label :=
  if Path.isWithin v.module.dir path then ⟨Path.relativeTo v.module.dir path, spelling⟩
  else ⟨(v.config.packages.ownerFromTop path).address, spelling⟩

/-- The label of a literal entry; absolute labels stay as they are. -/
def literalLabel (v : Viewpoint) (entry : String) : Label :=
  if Text.startsWith "//" entry then Label.ofAddress entry
  else v.pathLabel (Path.join v.module.dir entry) entry

/-- The label of a file that a pattern matched. -/
def matchLabel (v : Viewpoint) (path : String) : Label :=
  v.pathLabel path (Path.relativeTo v.module.dir path)

/-- The labels of the files that a pattern of the module matches. -/
def matchLabels (v : Viewpoint) (entry : String) (excludes : List String) :
    Except ModuleError (List Label) :=
  match v.config.tree.glob (Path.join v.module.dir entry) excludes with
  | .ok paths => .ok (paths.map v.matchLabel)
  | .error e => .error (.ofTree e)

/-! ## Entries -/

/-- What an entry came to. Patterns and literals come with their path from the
top of the tree. -/
inductive Expanded where
  | named (reference : Reference) (label : Label)
  | files (pattern : String) (labels : List Label)
  | literal (path : String) (label : Label)

namespace Expanded

def labels : Expanded → List Label
  | named _ label | literal _ label => [label]
  | files _ labels => labels

def reference? : Expanded → Option Reference
  | named reference _ => some reference
  | files _ _ | literal _ _ => none

def path? : Expanded → Option String
  | named _ _ => none
  | files path _ | literal path _ => some path

/-- The labels without those that are excluded already as they are spelled;
matches of patterns are subtracted only after they are resolved. -/
def keptLabels (excluded : List String) : Expanded → List Label
  | named _ label | literal _ label => if label.address ∈ excluded then [] else [label]
  | files _ labels => labels

end Expanded

/-- An entry by itself; files that match one of `excludes` do not count. -/
def expandEntry (v : Viewpoint) (excludes : List String) (entry : String) :
    Except ModuleError Expanded := do
  match ← v.reference? entry with
  | some reference => return .named reference (v.moduleLabel entry reference)
  | none =>
    let path := Path.join v.module.dir entry
    if Path.isGlob entry then return .files path (← v.matchLabels entry excludes)
    else return .literal path (v.literalLabel entry)

/-- The results of `f` up to the first error, and that error. -/
def collect {α : Type} (f : String → Except ModuleError α) :
    List String → List α × Option ModuleError
  | [] => ([], none)
  | entry :: rest =>
    match f entry with
    | .error e => ([], some e)
    | .ok a =>
      let (found, error) := collect f rest
      (a :: found, error)

/-- Note the references among expanded entries. -/
def noteAll (v : Viewpoint) (wantsEdge : Bool) (found : List Expanded) (r : ReferenceRecord) :
    ReferenceRecord :=
  (found.filterMap Expanded.reference?).foldl (fun r reference => v.note wantsEdge reference r) r

/-! ## Lists -/

/-- The labels of `paths` less those of `excludes`, each address once. Patterns
do not match what `excludes` names in the tree. -/
def expand (v : Viewpoint) (paths excludes : List String) (r : ReferenceRecord) :
    Except ModuleError LabelList × ReferenceRecord :=
  let (out, error) := collect (v.expandEntry []) excludes
  let r := v.noteAll false out r
  match error with
  | some e => (.error e, r)
  | none =>
    let (found, error) := collect (v.expandEntry (out.filterMap Expanded.path?)) paths
    let r := v.noteAll true found r
    match error with
    | some e => (.error e, r)
    | none =>
      let excludes := out.flatMap Expanded.labels
      let includes := found.flatMap (·.keptLabels (excludes.map Label.address))
      let list := v.config.packages.resolveList v.module.dir ⟨includes, excludes⟩
      (.ok list.subtractExcludes, r)

/-- An entry of a list of module names; a plain name refers to a module, too. -/
def expandName (v : Viewpoint) (entry : String) : Except ModuleError Expanded := do
  let reference := (← v.reference? entry).getD ⟨entry, ""⟩
  if reference.name = "" then .error (.malformedReference entry .emptyName)
  else return .named reference (v.moduleLabel entry reference)

/-- The labels of named modules, each address once. -/
def expandModules (v : Viewpoint) (names : List String) (r : ReferenceRecord) :
    Except ModuleError LabelList × ReferenceRecord :=
  let (found, error) := collect v.expandName names
  let r := v.noteAll false found r
  match error with
  | some e => (.error e, r)
  | none => (.ok (LabelList.ofIncludes (found.flatMap Expanded.labels)).subtractExcludes, r)

/-! ## Providers of dependencies -/

/-- A provider of the module that a name denotes, if that is a direct
dependency; such a module must have published it. -/
def dependencyProvider (v : Viewpoint) (name : String) (kind : ProviderKind) :
    Except Fault (Option Provider) :=
  match v.graph.lookup v.id name with
  | none => .ok none
  | some id =>
    if v.graph.dependsOn v.id id then do return some (← v.graph.provider id kind)
    else .ok none

end Viewpoint

end TargetGen
