import TargetGen.Text

/-!
# Label — addresses of build targets

An address is absolute (`//pkg/dir:target`, or `//pkg/dir` for the target named
like its package), relative to the package of the module that refers to it
(`:target`), or a path that stays inside that package (`dir/file.c`).

A label pairs an address with the spelling it came from. Order and sets of
labels look at the address alone.
-/

namespace TargetGen

structure Label where
  address : String
  spelling : String
  deriving DecidableEq, Inhabited

namespace Label

/-- The label spelled like its address. -/
def ofAddress (address : String) : Label := ⟨address, address⟩

def isAbsolute (l : Label) : Bool := Text.startsWith "//" l.address

/-- The package of an absolute address: all up to the first `:`. -/
def package? (l : Label) : Option String :=
  (Text.afterStart "//" l.address).map fun rest =>
    match Text.splitFirst ':' rest with
    | some (package, _) => package
    | none => rest

/-- The target of an address: what follows the last `:`, or else the last
path component. -/
def targetName (l : Label) : String :=
  match Text.splitLast ':' l.address with
  | some (_, name) => name
  | none =>
    match Text.splitLast '/' l.address with
    | some (_, name) => name
    | none => l.address

/-- Two labels denote the same target. -/
def same (a b : Label) : Bool := a.address = b.address

def compare (a b : Label) : Ordering := Ord.compare a.address b.address

end Label

end TargetGen
