import TargetGen.Ordered
import TargetGen.Text

/-!
# Allowlist — what converts, and which build files stay

The tables say which directories convert by default, which modules and module
types are forced in or out, which directories keep a hand-written build file,
and which modules may run on the external executor.
-/

namespace TargetGen

/-- Whether the modules of a directory convert unless told otherwise; a
recursive entry also speaks for the directories below. -/
inductive DirDefault where
  | yes
  | yesBelow
  | no
  | noBelow
  deriving DecidableEq

def DirDefault.converts : DirDefault → Bool
  | .yes | .yesBelow => true
  | .no | .noBelow => false

/-- What an entry says about the directories below its own. -/
def DirDefault.below? : DirDefault → Option Bool
  | .yesBelow => some true
  | .noBelow => some false
  | .yes | .no => none

structure Allowlist where
  dirDefaults : NameMap DirDefault
  always : NameSet
  alwaysTypes : NameSet
  never : NameSet
  /-- Directories that keep their build file, and whether those below do too. -/
  kept : NameMap Bool
  mixed : NameSet
  deriving DecidableEq

namespace Allowlist

def empty : Allowlist :=
  ⟨NameMap.empty, NameSet.empty, NameSet.empty, NameSet.empty, NameMap.empty, NameSet.empty⟩

instance : Inhabited Allowlist := ⟨empty⟩

def setDirDefault (a : Allowlist) (dir : String) (value : DirDefault) : Allowlist :=
  { a with dirDefaults := a.dirDefaults.insert dir value }

def alwaysConvert (a : Allowlist) (module : String) : Allowlist :=
  { a with always := a.always.insert module }

def alwaysConvertType (a : Allowlist) (moduleType : String) : Allowlist :=
  { a with alwaysTypes := a.alwaysTypes.insert moduleType }

def neverConvert (a : Allowlist) (module : String) : Allowlist :=
  { a with never := a.never.insert module }

def keepBuildFile (a : Allowlist) (dir : String) (below : Bool) : Allowlist :=
  { a with kept := a.kept.insert dir below }

def allowMixed (a : Allowlist) (module : String) : Allowlist :=
  { a with mixed := a.mixed.insert module }

/-- Whether a directory keeps its build file: it is listed, or lies below one
that is listed together with those below it. -/
def keepsBuildFile (a : Allowlist) (dir : String) : Bool :=
  a.kept.contains dir ||
    Text.startsWithAny ((a.kept.entries.filter (·.2)).map (·.1 ++ "/")) dir

end Allowlist

/-! ## Directory defaults -/

namespace DirDefault

/-- The directories from the outermost component down to the package itself. -/
def lineage (package : String) : List String :=
  let grow : List String × String → String → List String × String :=
    fun (found, path) part =>
      let longer := if path = "" then part else path ++ "/" ++ part
      (found ++ [longer], longer)
  ((Text.split '/' package).foldl grow ([], "")).1

/-- Whether a package converts by default, and the directory that says so: its
own entry decides, or else the deepest directory above it with a recursive
entry; without either it does not convert. -/
def resolve (package : String) (table : NameMap DirDefault) : Bool × String :=
  match table.get? package with
  | some entry => (entry.converts, package)
  | none =>
    (lineage package).foldl
      (fun found dir =>
        match (table.get? dir).bind below? with
        | some value => (value, dir)
        | none => found)
      (false, package)

end DirDefault

end TargetGen
