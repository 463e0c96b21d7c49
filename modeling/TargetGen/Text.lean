/-!
# Text — cutting and joining names

Addresses, paths and references are cut at single characters. The cuts are
defined on lists of characters; each has a form on strings below it.

* `fields` / `joined`: cut at every separator, and back;
* `cutFirst` / `cutLast`: cut at the first or last separator;
* `afterStart`, `startsWith`: what follows a given beginning, and whether
  anything does.
-/

namespace TargetGen.Text

/-! ## On characters -/

/-- The pieces between separators; a text without separator is one piece. -/
def fields (sep : Char) : List Char → List (List Char)
  | [] => [[]]
  | c :: rest =>
    if c = sep then [] :: fields sep rest
    else
      match fields sep rest with
      | [] => [[c]]
      | piece :: pieces => (c :: piece) :: pieces

/-- Pieces with a separator between neighbours. -/
def joined (sep : Char) : List (List Char) → List Char
  | [] => []
  | [piece] => piece
  | piece :: next :: rest => piece ++ sep :: joined sep (next :: rest)

/-- What stands before and after the first separator. -/
def cutFirst (sep : Char) : List Char → Option (List Char × List Char)
  | [] => none
  | c :: rest =>
    if c = sep then some ([], rest)
    else (cutFirst sep rest).map fun (before, after) => (c :: before, after)

/-- What stands before and after the last separator. -/
def cutLast (sep : Char) : List Char → Option (List Char × List Char)
  | [] => none
  | c :: rest =>
    match cutLast sep rest with
    | some (before, after) => some (c :: before, after)
    | none => if c = sep then some ([], rest) else none

theorem fields_ne_nil (sep : Char) (cs : List Char) : fields sep cs ≠ [] := by
  cases cs with
  | nil => simp [fields]
  | cons c rest =>
    unfold fields
    split
    · simp
    · split <;> simp

@[simp] theorem joined_fields (sep : Char) (cs : List Char) : joined sep (fields sep cs) = cs := by
  induction cs with
  | nil => rfl
  | cons c rest ih =>
    unfold fields
    split
    next h =>
      cases hf : fields sep rest with
      | nil => exact absurd hf (fields_ne_nil sep rest)
      | cons piece pieces => rw [hf] at ih; simp [joined, ih, h]
    next h =>
      cases hf : fields sep rest with
      | nil => exact absurd hf (fields_ne_nil sep rest)
      | cons piece pieces =>
        rw [hf] at ih
        cases pieces <;> simp_all [joined]

theorem eq_of_cutFirst {sep : Char} {cs before after : List Char}
    (h : cutFirst sep cs = some (before, after)) : cs = before ++ sep :: after := by
  induction cs generalizing before with
  | nil => simp [cutFirst] at h
  | cons c rest ih =>
    unfold cutFirst at h
    split at h
    next hc => simp_all
    next hc =>
      obtain ⟨⟨b, a⟩, hcut, heq⟩ := Option.map_eq_some_iff.mp h
      obtain ⟨rfl, rfl⟩ := Prod.mk.inj heq
      simp [ih hcut]

theorem eq_of_cutLast {sep : Char} {cs before after : List Char}
    (h : cutLast sep cs = some (before, after)) : cs = before ++ sep :: after := by
  induction cs generalizing before with
  | nil => simp [cutLast] at h
  | cons c rest ih =>
    unfold cutLast at h
    split at h
    next b a hcut =>
      obtain ⟨rfl, rfl⟩ := Prod.mk.inj (Option.some.inj h)
      simp [ih hcut]
    next hcut => split at h <;> simp_all

/-! ## On strings -/

/-- The pieces of a string between separators. -/
def split (sep : Char) (s : String) : List String :=
  (fields sep s.toList).map String.ofList

/-- Strings with a separator between neighbours. -/
def join (sep : Char) (pieces : List String) : String :=
  String.ofList (joined sep (pieces.map String.toList))

/-- The string before and after its first separator. -/
def splitFirst (sep : Char) (s : String) : Option (String × String) :=
  (cutFirst sep s.toList).map fun (before, after) => (String.ofList before, String.ofList after)

/-- The string before and after its last separator. -/
def splitLast (sep : Char) (s : String) : Option (String × String) :=
  (cutLast sep s.toList).map fun (before, after) => (String.ofList before, String.ofList after)

/-- What follows `start` in `s`, if `s` begins with it. -/
def afterStart (start s : String) : Option String :=
  (start.toList.isPrefixOf? s.toList).map String.ofList

def startsWith (start s : String) : Bool := start.toList.isPrefixOf s.toList

/-- Whether some of `items` begins with `start`. -/
def anyStartsWith (start : String) (items : List String) : Bool :=
  let start := start.toList
  items.any fun s => start.isPrefixOf s.toList

/-- Whether `s` begins with some of `starts`. -/
def startsWithAny (starts : List String) (s : String) : Bool :=
  let s := s.toList
  starts.any fun start => start.toList.isPrefixOf s

end TargetGen.Text
