import TargetGen.Config
import TargetGen.Label.List
import TargetGen.Path

/-!
# Package — which package owns a path

Modules list files anywhere below their directory, but the target system wants
each file addressed through the package that owns it. A directory is a package
of its own if it holds a native build file, or if it holds a target build file
that is to stay.

* `Packages.isBoundary`: whether a directory is a package of its own;
* `Packages.resolve`: the address of a path seen from a module's directory;
* `Packages.ownerFromTop`: the address of a path seen from the top.
-/

namespace TargetGen

/-- A source tree with the tables that say where build files stay. -/
structure Packages where
  tree : SourceTree
  allowlist : Allowlist

def Config.packages (c : Config) : Packages := ⟨c.tree, c.allowlist⟩

namespace Packages

/-- The build file of the native system. -/
def nativeBuildFile : String := "Android.bp"

/-- The build files of the target system. -/
def targetBuildFiles : List String := ["BUILD", "BUILD.bazel"]

/-- Whether a directory is a package of its own. A target build file counts
where it is kept, and in directories that are links. -/
def isBoundary (p : Packages) (dir : String) : Bool :=
  p.tree.contains (Path.join dir nativeBuildFile) ||
    ((p.allowlist.keepsBuildFile dir || p.tree.isLink dir) &&
      targetBuildFiles.any fun file => p.tree.contains (Path.join dir file))

/-- The largest number, from one up to `n`, that satisfies `found`. -/
def lastUpTo (found : Nat → Bool) : Nat → Option Nat
  | 0 => none
  | n + 1 => if found (n + 1) then some (n + 1) else lastUpTo found n

/-! ## Seen from the top -/

/-- The owner of a path is the deepest directory above it that is a package, or
else the package at the top. -/
def ownerFromTop (p : Packages) (path : String) : Label :=
  let parts := Path.components path
  let dir (n : Nat) : String := Path.ofComponents (parts.take n)
  match lastUpTo (fun n => p.isBoundary (dir n)) (parts.length - 1) with
  | some n => ⟨"//" ++ dir n ++ ":" ++ Path.ofComponents (parts.drop n), path⟩
  | none => ⟨"//:" ++ Path.clean path, path⟩

/-! ## Seen from a module -/

/-- The names in a relative path; `..` is taken as a name. -/
def steps (path : String) : List String :=
  (Text.split '/' path).filter fun part => part ≠ "" && part ≠ "."

/-- The package of a directory as part of an address, with the `/` after it. -/
def dirStart (dir : String) : String :=
  let package := if dir = Path.top then "" else (Text.afterStart "./" dir).getD dir
  if package = "" then "" else package ++ "/"

/-- The address of a path of the module in `dir`. Labels stay as they are. A
path through a package of its own is addressed through the deepest one; the
package itself stands for its default target. -/
def resolve (p : Packages) (dir address : String) : String :=
  if Text.startsWith "//" address || Text.startsWith ":" address then address
  else
    match steps address with
    | [] => address
    | parts =>
      match lastUpTo (fun n => p.isBoundary (Path.join dir (Text.join '/' (parts.take n))))
          parts.length with
      | none => Text.join '/' parts
      | some n =>
        let inside := if n = parts.length then "" else ":" ++ Text.join '/' (parts.drop n)
        "//" ++ dirStart dir ++ Text.join '/' (parts.take n) ++ inside

/-- The same label with its address resolved. -/
def resolveLabel (p : Packages) (dir : String) (l : Label) : Label :=
  ⟨p.resolve dir l.address, l.spelling⟩

/-- The same list with every address resolved. -/
def resolveList (p : Packages) (dir : String) (l : LabelList) : LabelList :=
  ⟨l.includes.map (p.resolveLabel dir), l.excludes.map (p.resolveLabel dir)⟩

end Packages

end TargetGen
