import TargetGen.Ordered
import TargetGen.Path
import TargetGen.SourceTree.Basic

/-!
# Listings — a source tree given by its files

Directories are there because files lie below them; a directory can also be
marked as a symbolic link, which makes it be there. Every path is brought to
normal form on the way in.
-/

namespace TargetGen

structure Listing where
  files : NameSet
  links : NameSet
  deriving DecidableEq, Inhabited

namespace Listing

def empty : Listing := ⟨NameSet.empty, NameSet.empty⟩

def addFile (l : Listing) (path : String) : Listing :=
  { l with files := l.files.insert (Path.clean path) }

def addLink (l : Listing) (path : String) : Listing :=
  { l with links := l.links.insert (Path.clean path) }

def ofFiles (paths : List String) : Listing := paths.foldl addFile empty

/-- Whether a path in normal form is a directory. -/
def isDirectory (l : Listing) (path : String) : Bool :=
  path = Path.top || Text.anyStartsWith (path ++ "/") l.files.names || l.links.contains path

def contains (l : Listing) (path : String) : Bool :=
  let path := Path.clean path
  l.files.contains path || l.isDirectory path

def isLink (l : Listing) (path : String) : Bool := l.links.contains (Path.clean path)

def glob (l : Listing) (pattern : String) (excludes : List String) :
    Except TreeError (List String) := do
  let filter ← Glob.Filter.compile pattern excludes
  return l.files.names.filter filter.keeps

def sourceTree (l : Listing) : SourceTree := ⟨l.contains, l.isLink, l.glob⟩

end Listing

end TargetGen
