import TargetGen.Label.List

/-!
# Target — declarations for the target system

A target is a call of a rule with a name and attributes. It is printed with one
attribute a line, in order of their names; texts are quoted, a list of several
items takes a line for each.
-/

namespace TargetGen

inductive AttrValue where
  | bool (value : Bool)
  | text (value : String)
  | texts (items : List String)
  | label (value : Label)
  | labels (items : List Label)
  deriving DecidableEq

structure Target where
  name : String
  rule : String
  package : String
  attrs : NameMap AttrValue
  deriving DecidableEq

namespace Target

/-- A target without attributes. -/
def plain (rule name package : String) : Target := ⟨name, rule, package, NameMap.empty⟩

def withAttr (t : Target) (name : String) (value : AttrValue) : Target :=
  { t with attrs := t.attrs.insert name value }

/-- Set an attribute to the included labels; an empty list sets none. -/
def withLabels (t : Target) (name : String) (list : LabelList) : Target :=
  if list.isEmpty then t else t.withAttr name (.labels list.includes)

def label (t : Target) : Label := Label.ofAddress ("//" ++ t.package ++ ":" ++ t.name)

end Target

/-! ## Printing -/

namespace Rendering

/-- A character between quotes. -/
def escape (c : Char) : List Char :=
  if c = '"' then ['\\', '"']
  else if c = '\\' then ['\\', '\\']
  else if c = '\n' then ['\\', 'n']
  else [c]

/-- A text between quotes. -/
def quote (s : String) : List Char := '"' :: (s.toList.flatMap escape ++ ['"'])

/-- Blanks before an attribute; an item of a list has twice as many. -/
def indent : List Char := [' ', ' ', ' ', ' ']

/-- A list: on one line up to one item, else with a line for each item. -/
def list : List String → List Char
  | [] => ['[', ']']
  | [item] => '[' :: (quote item ++ [']'])
  | items =>
    '[' :: '\n' ::
      (items.flatMap (fun item => indent ++ indent ++ quote item ++ [',', '\n'])
        ++ indent ++ [']'])

def value : AttrValue → List Char
  | .bool true => ['T', 'r', 'u', 'e']
  | .bool false => ['F', 'a', 'l', 's', 'e']
  | .text s => quote s
  | .label l => quote l.address
  | .texts items => list items
  | .labels items => list (items.map Label.address)

/-- The line of an attribute. -/
def attr (name : List Char) (value : List Char) : List Char :=
  indent ++ name ++ [' ', '=', ' '] ++ value ++ [',', '\n']

def target (t : Target) : List Char :=
  t.rule.toList ++ ['(', '\n']
    ++ attr ['n', 'a', 'm', 'e'] (quote t.name)
    ++ t.attrs.entries.flatMap (fun (name, v) => attr name.toList (value v))
    ++ [')']

/-- A build file: its targets with a blank line between neighbours. -/
def file : List Target → List Char
  | [] => ['\n']
  | [t] => target t ++ ['\n']
  | t :: rest => target t ++ ['\n', '\n'] ++ file rest

end Rendering

/-- The declaration of a target. -/
def Target.render (t : Target) : String := String.ofList (Rendering.target t)

/-- The build file that holds some targets. -/
def Target.renderFile (ts : List Target) : String := String.ofList (Rendering.file ts)

end TargetGen
