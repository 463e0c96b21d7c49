import TargetGen.Distinct
import TargetGen.Error

/-!
# Reference — how a list entry names another module

A reference is written `name` or `name{tag}` after a mark: `:` for a module in
sight, or `//ns:` for a module of the namespace `ns`. The tag asks for a
particular output of the module.
-/

namespace TargetGen

/-- Modules are numbered in the order in which they were loaded. -/
abbrev ModuleId := Nat

structure Reference where
  /-- A name as the graph looks it up: `name`, or `//ns:name`. -/
  name : String
  tag : String
  deriving DecidableEq

namespace Reference

/-- A name and the tag in braces behind it; without braces the tag is empty. -/
def splitTag (cs : List Char) : Except ReferenceFault (List Char × List Char) := do
  let (name, tag) ←
    match Text.cutFirst '\x7b' cs with
    | some (name, rest) =>
      match rest.getLast? with
      | some '\x7d' =>
        if '\x7b' ∈ rest.dropLast ∨ '\x7d' ∈ rest.dropLast then .error .nestedBraces
        else .ok (name, rest.dropLast)
      | _ => .error .unclosedTag
    | none => if '\x7d' ∈ cs then .error .unopenedTag else .ok (cs, [])
  if name = [] then .error .emptyName else .ok (name, tag)

/-- The name and tag in `rest`, which is the part of `entry` behind its mark. -/
def ofMarked (entry rest : String) : Except ModuleError Reference :=
  match splitTag rest.toList with
  | .ok (name, tag) => .ok ⟨String.ofList name, String.ofList tag⟩
  | .error fault => .error (.malformedReference entry fault)

/-- A name that is looked up in the given namespace. -/
def qualified (scope name : String) : String := "//" ++ scope ++ ":" ++ name

/-- The name without its namespace. -/
def bareName (name : String) : String :=
  match Text.splitLast ':' name with
  | some (_, bare) => bare
  | none => name

end Reference

/-! ## What references turn up -/

/-- What the references of a module turned up, each thing once and in order. -/
structure ReferenceRecord where
  /-- Names of modules that do not exist. -/
  missing : List String
  /-- Names of modules that exist without a usable target. -/
  unconverted : List String
  /-- Modules whose failure must reach the module that refers to them. -/
  edges : List ModuleId
  deriving DecidableEq

namespace ReferenceRecord

def empty : ReferenceRecord := ⟨[], [], []⟩

def addMissing (r : ReferenceRecord) (name : String) : ReferenceRecord :=
  { r with missing := Distinct.append r.missing name }

def addUnconverted (r : ReferenceRecord) (name : String) : ReferenceRecord :=
  { r with unconverted := Distinct.append r.unconverted name }

def addEdge (r : ReferenceRecord) (id : ModuleId) : ReferenceRecord :=
  { r with edges := Distinct.append r.edges id }

end ReferenceRecord

end TargetGen
