import TargetGen.Ordered
import TargetGen.Path
import TargetGen.SourceTree.Basic

/-!
# Disks — a source tree with directories and symbolic links

A disk holds files, directories and links whose targets are given from its top.
Paths are followed component by component: `..` goes to the parent of where a
link led, and a link is followed wherever more of the path comes after it. A
name, a whole path and the number of links on it are bounded.

* `Disk.follow`: where a path leads;
* `Disk.walkFrom`: all files below a directory, links followed, each directory
  before the next name; a link that leads nowhere or to an open directory ends
  the walk;
* `Mount`: a directory of a disk as a source tree.
-/

namespace TargetGen

namespace Disk

inductive Entry where
  | file
  | directory
  /-- A link to the given components, read from the top of the disk. -/
  | link (target : List String)
  deriving DecidableEq

/-- A place on a disk: names from the top downwards, or anywhere outside. -/
inductive Location where
  | inside (names : List String)
  | outside
  deriving DecidableEq

/-- Why following a path fails. -/
inductive Failure where
  | noEntry
  | notDirectory
  | nameTooLong
  | tooManyLinks
  /-- The path holds a character that ends names. -/
  | zeroByte
  deriving DecidableEq

def Failure.message : Failure → String
  | .noEntry => "No such file or directory (os error 2)"
  | .notDirectory => "Not a directory (os error 20)"
  | .nameTooLong => "File name too long (os error 36)"
  | .tooManyLinks => "Too many levels of symbolic links (os error 40)"
  | .zeroByte => "file name contained an unexpected NUL byte"

def Location.parent : Location → Location
  | .inside [] => .outside
  | .inside names => .inside names.dropLast
  | .outside => .outside

def Location.child (name : String) : Location → Location
  | .inside names => .inside (names ++ [name])
  | .outside => .outside

/-! ## Limits -/

/-- The bytes that a name may take. -/
def nameLimit : Nat := 255

/-- The bytes that a path may take, with a zero byte at its end. -/
def pathLimit : Nat := 4096

/-- The links that may be followed on the way of one path. -/
def linkLimit : Nat := 40

end Disk

structure Disk where
  /-- How the top of the disk is printed. -/
  title : String
  /-- The bytes that the path of the top takes. -/
  titleBytes : Nat
  entries : List (List String × Disk.Entry)

namespace Disk

/-- What is at a location; the top is a directory. -/
def entry? (d : Disk) : Location → Option Entry
  | .inside [] => some .directory
  | .inside names => d.entries.lookup names
  | .outside => some .directory

/-! ## Following paths -/

/-- Where components lead from a location, and how many links may still be
followed after that. A link in the last place is followed only if `last` says
so. -/
def followFrom (d : Disk) (last : Bool) (links : Nat) (here : Location)
    (path : List String) : Except Failure (Location × Nat) :=
  match path with
  | [] => .ok (here, links)
  | name :: rest =>
    if d.entry? here ≠ some .directory then .error .notDirectory
    else if name = "" ∨ name = "." then followFrom d last links here rest
    else if name = ".." then followFrom d last links here.parent rest
    else if nameLimit < name.utf8ByteSize then .error .nameTooLong
    else
      match d.entry? (here.child name) with
      | none => .error .noEntry
      | some (.link target) =>
        if rest = [] ∧ last = false then .ok (here.child name, links)
        else
          match links with
          | 0 => .error .tooManyLinks
          | n + 1 => followFrom d last n (.inside []) (target ++ rest)
      | some _ =>
        if here = .outside then .error .noEntry
        else followFrom d last links (here.child name) rest
termination_by (links, path.length)

/-- Where components lead from a location. -/
def follow (d : Disk) (here : Location) (path : List String) :
    Except Failure (Location × Nat) :=
  d.followFrom true linkLimit here path

/-! ## Making a disk -/

/-- Put an entry where nothing is yet. -/
def put (d : Disk) (place : Location) (entry : Entry) : Disk :=
  match place with
  | .outside => d
  | .inside names =>
    if (d.entry? place).isSome then d else { d with entries := d.entries ++ [(names, entry)] }

/-- Go on by one component, making a directory where nothing is. -/
def enter (d : Disk) (here : Location) (name : String) : Disk × Location :=
  match d.follow here [name] with
  | .ok (found, _) => (d, found)
  | .error _ => (d.put (here.child name) .directory, here.child name)

/-- Go on by components, making directories where nothing is. -/
def enterAll (d : Disk) (here : Location) : List String → Disk × Location
  | [] => (d, here)
  | name :: rest =>
    let (d, here) := d.enter here name
    d.enterAll here rest

/-- Put an entry at a path, with the directories on the way. -/
def putAt (d : Disk) (path : String) (entry : Entry) : Disk :=
  let parts := (Text.split '/' path).filter (· ≠ "")
  let (d, folder) := d.enterAll (.inside []) parts.dropLast
  match parts.getLast? with
  | some name => d.put (folder.child name) entry
  | none => d

/-- Add a file, or a directory where the path ends in `/`. -/
def addFile (d : Disk) (path : String) : Disk :=
  if path.toList.getLast? = some '/' then (d.enterAll (.inside []) (Text.split '/' path)).1
  else d.putAt path .file

/-- Add a link to a path from the top. -/
def addLink (d : Disk) (path target : String) : Disk :=
  d.putAt path (.link (Text.split '/' target))

/-- The disk of files, and of links with their targets. -/
def ofFiles (title : String) (titleBytes : Nat) (files : List String)
    (links : List (String × String)) : Disk :=
  links.foldl (fun d (path, target) => d.addLink path target)
    (files.foldl addFile ⟨title, titleBytes, []⟩)

/-! ## Printed paths -/

/-- One more component at the end of a printed path. -/
def extend (shown name : String) : String :=
  if shown.toList.getLast? = some '/' then shown ++ name else shown ++ "/" ++ name

/-- Components below a printed path. Empty ones vanish, but at the end one
leaves a `/`. -/
def below (shown : String) (parts : List String) : String :=
  let path := shown ++ String.join ((parts.filter (· ≠ "")).map ("/" ++ ·))
  if parts.getLast? = some "" then path ++ "/" else path

/-- The bytes that a printed path takes, its title read as the path of the top. -/
def bytes (d : Disk) (shown : String) : Nat :=
  d.titleBytes + (shown.utf8ByteSize - d.title.utf8ByteSize)

/-- The bytes that names may take below a printed path, with the zero byte. -/
def room (d : Disk) (shown : String) : Nat := pathLimit - d.bytes (extend shown "")

/-! ## Walking -/

/-- The entries of a directory, by name. -/
def children (d : Disk) (folder : List String) : List (String × Entry) :=
  (NameMap.ofList <| d.entries.filterMap fun (names, entry) =>
    match names.getLast? with
    | some name => if names.dropLast = folder then some (name, entry) else none
    | none => none).entries

/-- A directory on the way of a walk: where it is and how it is printed. -/
structure Open where
  folder : List String
  shown : String

/-- The reason why a walk ends where following a path fails. -/
def obstacle (shown : String) (e : Failure) : String :=
  "IO error for operation on " ++ shown ++ ": " ++ e.message

/-- The reason why a walk ends at a link to an open directory. -/
def circle (shown ancestor : String) : String :=
  "File system loop found: " ++ shown ++ " points to an ancestor " ++ ancestor

/-- The files below the directory `here`, which is spelled `spelling` from the
root of the walk's tree. Names below it have `room`, and as many as `links` links
may be followed on the way to each of them. -/
def walkFrom (d : Disk) (room links : Nat) (spelling : List String) (here : Open)
    (outer : List Open) : Except String (List (List String)) := do
  let found ← (d.children here.folder).mapM fun (name, entry) =>
    let shown := extend here.shown name
    let spelling := spelling ++ [name]
    if entry = .file then .ok [spelling]
    else if _fits : name.utf8ByteSize < room then
      let left := room - (name.utf8ByteSize + 1)
      if entry = .directory then
        walkFrom d left links spelling ⟨here.folder ++ [name], shown⟩ (here :: outer)
      else
        match d.followFrom true links (.inside here.folder) [name] with
        | .error e => .error (obstacle shown e)
        | .ok (.outside, _) => .ok []
        | .ok (.inside folder, links) =>
          if d.entry? (.inside folder) ≠ some .directory then .ok [spelling]
          else
            match (here :: outer).find? (·.folder = folder) with
            | some ancestor => .error (circle shown ancestor.shown)
            | none => walkFrom d left links spelling ⟨folder, shown⟩ (here :: outer)
    else .error (obstacle shown .nameTooLong)
  return found.flatten
termination_by room

end Disk

/-! ## A directory of a disk as a source tree -/

structure Mount where
  disk : Disk
  root : Disk.Location

namespace Mount

/-- Open a directory of a disk by its path. -/
def ofPath (disk : Disk) (path : String) : Except TreeError Mount :=
  let found :=
    if path.toList.contains '\x00' then .error .zeroByte
    else disk.follow (.inside []) (Text.split '/' path)
  match found with
  | .ok (root, _) => .ok ⟨disk, root⟩
  | .error e =>
    .error (.root (if path = "" then disk.title else Disk.extend disk.title path) e.message)

/-- How the root is printed. -/
def shown (m : Mount) : String :=
  match m.root with
  | .inside names => Disk.below m.disk.title names
  | .outside => m.disk.title

/-- The components of a path below the root; the root itself has none. -/
def steps (path : String) : List String :=
  if Path.isTop path then [] else Text.split '/' path

/-- Where components below the root lead, unless the whole path is too long. -/
def follow (m : Mount) (last : Bool) (parts : List String) :
    Except Disk.Failure (Disk.Location × Nat) :=
  if m.disk.bytes (Disk.below m.shown parts) < Disk.pathLimit then
    m.disk.followFrom last Disk.linkLimit m.root parts
  else .error .nameTooLong

def contains (m : Mount) (path : String) : Bool := (m.follow true (steps path)).isOk

def isLink (m : Mount) (path : String) : Bool :=
  match m.follow false (steps path) with
  | .ok (location, _) =>
    match m.disk.entry? location with
    | some (.link _) => true
    | _ => false
  | .error _ => false

/-- The files that match, found by walking the directory below which all
matches lie. -/
def glob (m : Mount) (pattern : String) (excludes : List String) :
    Except TreeError (List String) := do
  let filter ← Glob.Filter.compile pattern excludes
  let start := steps (Path.literalStart pattern)
  match m.follow true start with
  | .ok (.inside folder, links) =>
    if m.disk.entry? (.inside folder) = some .directory then
      let shown := Disk.below m.shown start
      let spelling := start.filter fun name => name ≠ "" && name ≠ "."
      match m.disk.walkFrom (m.disk.room shown) links spelling ⟨folder, shown⟩ [] with
      | .ok found =>
        let paths := found.map (Text.join '/')
        return Ordered.ofList compareNames (paths.filter filter.keeps)
      | .error reason => .error (.walk shown reason)
    else return []
  | _ => return []

def sourceTree (m : Mount) : SourceTree := ⟨m.contains, m.isLink, m.glob⟩

end Mount

end TargetGen
