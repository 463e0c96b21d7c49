import TargetGen.Package

/-!
# Scan — an address put together from its end

A path of a module can also be resolved in one scan over its names, from the last
one to the first. The scan writes each name before what it has already. The first
package that it meets on the way is the deepest one, and what lies inside is cut off
with a `:` there; all other names are joined with a `/`.
-/

namespace TargetGen

/-- How far an address has been put together, and whether a package was met yet. -/
structure Scan where
  resolved : String
  found : Bool
  deriving DecidableEq

namespace Packages

/-- Put the name of index `i` before what was put together from those behind it. -/
def prepend (p : Packages) (dir : String) (names : List String) (i : Nat) (s : Scan) : Scan :=
  let name := names.getD i ""
  let meets := !s.found && p.isBoundary (Path.join dir (Text.join '/' (names.take (i + 1))))
  ⟨if s.resolved = "" then name else name ++ (if meets then ":" else "/") ++ s.resolved,
    s.found || meets⟩

/-- Scan the first `n` names, the last of them first. -/
def scan (p : Packages) (dir : String) (names : List String) : Nat → Scan → Scan
  | 0, s => s
  | i + 1, s => p.scan dir names i (p.prepend dir names i s)

/-- The address of a path of the module in `dir`, by one scan. -/
def resolveByScan (p : Packages) (dir address : String) : String :=
  if Text.startsWith "//" address || Text.startsWith ":" address then address
  else
    match steps address with
    | [] => address
    | names =>
      let s := p.scan dir names names.length ⟨"", false⟩
      if s.found then "//" ++ dirStart dir ++ s.resolved else s.resolved

end Packages

end TargetGen
