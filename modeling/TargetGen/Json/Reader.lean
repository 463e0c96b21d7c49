import TargetGen.Json.Value

/-!
# Reading JSON

The strict grammar: no comments, no trailing commas, no characters after the
value but blanks, no control characters inside strings. A value is read as far
as it goes and comes with what follows it.
-/

namespace TargetGen.Json

/-! ## Blanks and words -/

def isBlank (c : Char) : Bool := c = ' ' || c = '\n' || c = '\t' || c = '\r'

def skipBlanks (cs : List Char) : List Char := cs.dropWhile isBlank

/-! ## Strings -/

/-- A string's content before escapes are paired: characters, and the code
units that are written in hexadecimal. -/
inductive Piece where
  | char (c : Char)
  | unit (n : Nat)
  deriving DecidableEq

def hexValue (c : Char) : Option Nat :=
  if '0' ≤ c ∧ c ≤ '9' then some (c.toNat - 48)
  else if 'a' ≤ c ∧ c ≤ 'f' then some (c.toNat - 87)
  else if 'A' ≤ c ∧ c ≤ 'F' then some (c.toNat - 55)
  else none

/-- The number that four hexadecimal digits denote. -/
def hexUnit (a b c d : Char) : Option Nat := do
  return (((← hexValue a) * 16 + (← hexValue b)) * 16 + (← hexValue c)) * 16 + (← hexValue d)

/-- What a one-letter escape denotes. -/
def unescape (c : Char) : Option Char :=
  if c = '"' ∨ c = '\\' ∨ c = '/' then some c
  else if c = 'b' then some '\x08'
  else if c = 'f' then some '\x0c'
  else if c = 'n' then some '\n'
  else if c = 'r' then some '\r'
  else if c = 't' then some '\t'
  else none

/-- The content of a string up to its closing quote. -/
def pieces : List Char → Option (List Piece × List Char)
  | [] => none
  | '"' :: rest => some ([], rest)
  | '\\' :: 'u' :: a :: b :: c :: d :: rest => do
    let n ← hexUnit a b c d
    let (content, after) ← pieces rest
    return (.unit n :: content, after)
  | '\\' :: c :: rest => do
    let escaped ← unescape c
    let (content, after) ← pieces rest
    return (.char escaped :: content, after)
  | c :: rest => do
    guard (32 ≤ c.toNat ∧ c ≠ '\\')
    let (content, after) ← pieces rest
    return (.char c :: content, after)

def isLeading (n : Nat) : Bool := 0xD800 ≤ n && n < 0xDC00

def isTrailing (n : Nat) : Bool := 0xDC00 ≤ n && n < 0xE000

/-- The text of a string: a leading and a trailing unit make one character
together and none apart. -/
def decode : List Piece → Option (List Char)
  | [] => some []
  | .char c :: rest => (decode rest).map (c :: ·)
  | .unit n :: .unit m :: rest =>
    if isLeading n && isTrailing m then
      (decode rest).map (Char.ofNat (0x10000 + (n - 0xD800) * 0x400 + (m - 0xDC00)) :: ·)
    else if isLeading n || isTrailing n then none
    else (decode (.unit m :: rest)).map (Char.ofNat n :: ·)
  | .unit n :: rest =>
    if isLeading n || isTrailing n then none
    else (decode rest).map (Char.ofNat n :: ·)

/-- A string after its opening quote. -/
def stringBody (cs : List Char) : Option (Option String × List Char) :=
  (pieces cs).map fun (content, after) => ((decode content).map String.ofList, after)

/-! ## Numbers -/

/-- One or more digits. -/
def digits (cs : List Char) : Option (List Char × List Char) :=
  match cs.takeWhile Char.isDigit with
  | [] => none
  | found => some (found, cs.dropWhile Char.isDigit)

/-- The digits before the point: no leading zero but for zero itself. -/
def whole : List Char → Option (List Char × List Char)
  | '0' :: rest => some (['0'], rest)
  | cs => digits cs

/-- The point and the digits after it, if there is a point. -/
def fraction : List Char → Option (List Char × List Char)
  | '.' :: rest => (digits rest).map fun (found, after) => ('.' :: found, after)
  | cs => some ([], cs)

/-- A sign, if there is one. -/
def sign : List Char → List Char × List Char
  | '+' :: rest => (['+'], rest)
  | '-' :: rest => (['-'], rest)
  | cs => ([], cs)

/-- The exponent, if there is one. -/
def exponent : List Char → Option (List Char × List Char)
  | [] => some ([], [])
  | c :: rest =>
    if c = 'e' ∨ c = 'E' then
      let (found, after) := sign rest
      (digits after).map fun (ds, last) => (c :: (found ++ ds), last)
    else some ([], c :: rest)

/-- The digits of a number, sign and exponent included. -/
def numeral (cs : List Char) : Option (List Char × List Char) := do
  let (minus, cs) := match cs with
    | '-' :: rest => (['-'], rest)
    | cs => ([], cs)
  let (before, cs) ← whole cs
  let (after, cs) ← fraction cs
  let (power, cs) ← exponent cs
  return (minus ++ before ++ after ++ power, cs)

/-! ## Values -/

mutual

/-- A value and what follows it, read in at most `depth` nested steps. -/
def value (depth : Nat) (cs : List Char) : Option (Json × List Char) :=
  match depth with
  | 0 => none
  | depth + 1 =>
    match skipBlanks cs with
    | 'n' :: 'u' :: 'l' :: 'l' :: rest => some (.null, rest)
    | 't' :: 'r' :: 'u' :: 'e' :: rest => some (.bool true, rest)
    | 'f' :: 'a' :: 'l' :: 's' :: 'e' :: rest => some (.bool false, rest)
    | '"' :: rest => (stringBody rest).map fun (text, after) => (.string text, after)
    | '[' :: rest =>
      match skipBlanks rest with
      | ']' :: after => some (.array [], after)
      | _ => do
        let (item, after) ← value depth rest
        let (more, after) ← items depth after
        return (.array (item :: more), after)
    | '\x7b' :: rest =>
      match skipBlanks rest with
      | '\x7d' :: after => some (.object [], after)
      | _ => do
        let (first, after) ← member depth rest
        let (more, after) ← members depth after
        return (.object (first :: more), after)
    | cs => (numeral cs).map fun (found, after) => (.number (String.ofList found), after)

/-- The items after the first one, up to the closing bracket. -/
def items (depth : Nat) (cs : List Char) : Option (List Json × List Char) :=
  match depth with
  | 0 => none
  | depth + 1 =>
    match skipBlanks cs with
    | ']' :: after => some ([], after)
    | ',' :: rest => do
      let (item, after) ← value depth rest
      let (more, after) ← items depth after
      return (item :: more, after)
    | _ => none

/-- A key, a colon and a value. -/
def member (depth : Nat) (cs : List Char) : Option ((Option String × Json) × List Char) :=
  match depth with
  | 0 => none
  | depth + 1 =>
    match skipBlanks cs with
    | '"' :: rest => do
      let (key, after) ← stringBody rest
      match skipBlanks after with
      | ':' :: rest => do
        let (value, after) ← value depth rest
        return ((key, value), after)
      | _ => none
    | _ => none

/-- The members after the first one, up to the closing brace. -/
def members (depth : Nat) (cs : List Char) :
    Option (List (Option String × Json) × List Char) :=
  match depth with
  | 0 => none
  | depth + 1 =>
    match skipBlanks cs with
    | '\x7d' :: after => some ([], after)
    | ',' :: rest => do
      let (next, after) ← member depth rest
      let (more, after) ← members depth after
      return (next :: more, after)
    | _ => none

end

/-- The value that a text consists of, blanks around it aside. -/
def read (text : String) : Option Json := do
  let cs := text.toList
  let (json, after) ← value (2 * cs.length + 2) cs
  guard (skipBlanks after = [])
  return json

end TargetGen.Json
