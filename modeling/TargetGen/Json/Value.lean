/-!
# JSON values

Members of objects keep their order and repetitions, and numbers keep their
digits: what a repeated or unknown member means is for the reader of a record
to say. A string may hold an escape that denotes no character; it then has no
text, which does no harm where the string is ignored.
-/

namespace TargetGen

inductive Json where
  | null
  | bool (value : Bool)
  | number (digits : String)
  | string (text : Option String)
  | array (items : List Json)
  | object (members : List (Option String × Json))
  deriving Inhabited

namespace Json

/-! ## Building values -/

def text (s : String) : Json := .string (some s)

def nat (n : Nat) : Json := .number (toString n)

def record (fields : List (String × Json)) : Json :=
  .object (fields.map fun (name, value) => (some name, value))

def texts (items : List String) : Json := .array (items.map text)

/-- A value or `null`. -/
def option {α : Type} (encode : α → Json) : Option α → Json
  | some a => encode a
  | none => .null

/-! ## Looking into values -/

def bool? : Json → Option Bool
  | .bool value => some value
  | _ => none

def text? : Json → Option String
  | .string text => text
  | _ => none

def items? : Json → Option (List Json)
  | .array items => some items
  | _ => none

def nat? : Json → Option Nat
  | .number digits => digits.toNat?
  | _ => none

def list? {α : Type} (decode : Json → Option α) : Json → Option (List α)
  | .array items => items.mapM decode
  | _ => none

/-- The members of an object whose keys all have a text. -/
def members? : Json → Option (List (String × Json))
  | .object members => members.mapM fun (key, value) => key.map (·, value)
  | _ => none

/-- `null`, or a value. -/
def nullable {α : Type} (decode : Json → Option α) : Json → Option (Option α)
  | .null => some none
  | json => (decode json).map some

/-! ## Records

A record is written as an object or as the array of its fields in order. -/

/-- The fields of a record by the given names; one that is not written is
`none`. Unknown members are ignored, a known one may stand only once, and an
array may be short but not long. -/
def fields (names : List String) : Json → Option (List (Option Json))
  | .array items =>
    if items.length ≤ names.length then
      some (items.map some ++ List.replicate (names.length - items.length) none)
    else none
  | json => do
    let members ← json.members?
    names.mapM fun name =>
      match members.filter (·.1 = name) with
      | [] => some none
      | [(_, value)] => some (some value)
      | _ => none

/-- A field that must be written. -/
def required {α : Type} (decode : Json → Option α) (field : Option Json) : Option α :=
  field.bind decode

/-- A field with a value to fall back on where it is not written. -/
def optional {α : Type} (decode : Json → Option α) (fallback : α) : Option Json → Option α
  | some json => decode json
  | none => some fallback

end Json

end TargetGen
