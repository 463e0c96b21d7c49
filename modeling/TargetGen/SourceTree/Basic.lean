import TargetGen.Glob.Match

/-!
# Source trees — what the rest of the library asks of them

A source tree answers three questions about paths relative to its top: whether
something is there, whether it is a symbolic link, and which files match a
pattern. Two trees are provided: a listing of files, and a disk with links.
-/

namespace TargetGen

/-- Why a question to a source tree has no answer. -/
inductive TreeError where
  | malformed (pattern : String) (error : Glob.SyntaxError)
  | walk (path : String) (reason : String)
  | root (path : String) (reason : String)
  deriving DecidableEq

def TreeError.message : TreeError → String
  | .malformed pattern error => "invalid glob pattern '" ++ pattern ++ "': " ++ error.message
  | .walk path reason => "failed to walk '" ++ path ++ "': " ++ reason
  | .root path reason => "invalid source root '" ++ path ++ "': " ++ reason

structure SourceTree where
  /-- Whether a file or directory is there. -/
  contains : String → Bool
  isLink : String → Bool
  /-- The files that match a pattern and none of the excluded ones, in order. -/
  glob : String → List String → Except TreeError (List String)

namespace Glob

/-- Read a pattern on behalf of a source tree. -/
def compile (pattern : String) : Except TreeError Glob :=
  match ofPattern pattern with
  | .ok g => .ok g
  | .error e => .error (.malformed pattern e)

/-- A pattern with the patterns excluded from it. -/
structure Filter where
  included : Glob
  excluded : List Glob

/-- Read a pattern and then the excluded ones; the first fault is reported. -/
def Filter.compile (pattern : String) (excludes : List String) : Except TreeError Filter := do
  let included ← Glob.compile pattern
  let excluded ← excludes.mapM Glob.compile
  return ⟨included, excluded⟩

def Filter.keeps (f : Filter) (path : String) : Bool :=
  f.included.isMatch path && !f.excluded.any (·.isMatch path)

end Glob

end TargetGen
