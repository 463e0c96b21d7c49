import TargetGen.Text

/-!
# Path — paths below the top of a source tree

A path is written with `/` between its components and is relative to the top
of the tree; `.` is the top itself. Everything here is lexical: no tree is
asked.

* `clean`, `join`: normal form and concatenation;
* `isWithin`, `relativeTo`: containment in a directory;
* `isGlob`, `literalStart`: paths that are patterns.
-/

namespace TargetGen.Path

/-- The directory at the top of the source tree. -/
def top : String := "."

/-- Whether a directory is spelled as the top of the tree. -/
def isTop (dir : String) : Bool := dir = "" || dir = top

/-! ## Normal form -/

/-- What is left of the components read so far, innermost first: empty and `.`
components vanish and `..` takes back the component before it. -/
def foldComponents : List (List Char) → List (List Char) → List (List Char)
  | kept, [] => kept
  | kept, c :: rest =>
    if c = [] ∨ c = ['.'] then foldComponents kept rest
    else if c = ['.', '.'] then foldComponents kept.tail rest
    else foldComponents (c :: kept) rest

/-- The components of a path in normal form; the top has none. A `..` at the
top stays at the top. -/
def components (path : String) : List (List Char) :=
  (foldComponents [] (Text.fields '/' path.toList)).reverse

/-- The path with the given components. -/
def ofComponents (parts : List (List Char)) : String :=
  match parts with
  | [] => top
  | _ => String.ofList (Text.joined '/' parts)

/-- The normal form of a path. -/
def clean (path : String) : String := ofComponents (components path)

/-- A path read relative to `dir`, in normal form. -/
def join (dir path : String) : String :=
  if isTop dir then clean path else clean (dir ++ "/" ++ path)

/-! ## Containment -/

/-- Whether a path lies strictly below `dir`; everything lies below the top. -/
def isWithin (dir path : String) : Bool :=
  isTop dir || Text.startsWith (dir ++ "/") path

/-- A path below `dir` as seen from there; other paths stay as they are. -/
def relativeTo (dir path : String) : String :=
  if isTop dir then path else (Text.afterStart (dir ++ "/") path).getD path

/-! ## Patterns -/

/-- The characters that make a path a pattern. -/
def isWildcard (c : Char) : Bool := c = '*' || c = '?' || c = '['

def isGlob (path : String) : Bool := path.toList.any isWildcard

/-- The leading components of a pattern that hold no wildcard, less the file
name if no component does. All matches lie below that directory. -/
def literalStart (pattern : String) : String :=
  let parts := Text.split '/' pattern
  let literal := parts.takeWhile fun part => !isGlob part
  Text.join '/' (if literal.length = parts.length then literal.dropLast else literal)

end TargetGen.Path
