import Bitext.Files.Access

/-!
# File trees

A file tree holds directories and files at places, which are the names on the way from the root.
Paths are followed as an operating system does: every step needs a directory to start from, two dots
lead to the directory around it, and paths without a slash in front start at a working directory.

## Main definitions

* `FileTree`: what is at which place.
* `FileTree.resolve`: the place that a path leads to.
* The instance of `DirectoryListing` for programs with a file tree as their state.
-/
namespace Bitext

/-- A place in a file tree: the names from the root on. -/
abbrev Place := List Text

/-- What can be at a place. -/
inductive Node where
  | directory
  | file (content : Bytes)
  deriving DecidableEq, Repr

/-- Directories and files by their places. -/
structure FileTree where
  /-- What is at each place, the root excepted. -/
  nodes : List (Place × Node) := []
  /-- Where paths without a slash in front start. -/
  workingDirectory : Place := []
  deriving DecidableEq, Repr

namespace FileTree

/-- What is at a place; at the root there is always a directory. -/
def node? (t : FileTree) (place : Place) : Option Node :=
  if place.isEmpty then some .directory else t.nodes.lookup place

/-- There is a directory at a place. -/
def hasDirectory (t : FileTree) (place : Place) : Bool := t.node? place == some .directory

/-- Follows steps from a place on.  The place that is reached need not exist, but the directory
around it does. -/
def resolveFrom (t : FileTree) (here : Place) : (steps : List Text) → Except FileFault Place
  | [] => .ok here
  | step :: rest =>
    match t.node? here with
    | none => .error .notFound
    | some (.file _) => .error .notADirectory
    | some .directory =>
      if step = ['.'] then t.resolveFrom here rest
      else if step = "..".toList then t.resolveFrom here.dropLast rest
      else t.resolveFrom (here ++ [step]) rest

/-- The place that a path leads to. -/
def resolve (t : FileTree) (path : Text) : Except FileFault Place :=
  if path.isEmpty then .error .notFound
  else t.resolveFrom (if Path.isAbsolute path then [] else t.workingDirectory) (Path.steps path)

/-- Puts something at a place. -/
def put (t : FileTree) (place : Place) (node : Node) : FileTree :=
  { t with nodes := (place, node) :: t.nodes.filter (·.1 ≠ place) }

/-- The first place is inside the second one. -/
def isInside (place around : Place) : Bool := around.isPrefixOf place && place ≠ around

/-- Removes everything inside a place. -/
def clear (t : FileTree) (place : Place) : FileTree :=
  { t with nodes := t.nodes.filter fun n => !isInside n.1 place }

/-- Removes what is at a place. -/
def remove (t : FileTree) (place : Place) : FileTree :=
  { t with nodes := t.nodes.filter (·.1 ≠ place) }

/-- The names in a directory. -/
def namesIn (t : FileTree) (place : Place) : List Text :=
  t.nodes.filterMap fun n => if n.1.dropLast = place then n.1.getLast? else none

/-! ## Operations by path -/

/-- The bytes of a file. -/
def contentAt (t : FileTree) (path : Text) : Except FileFault Bytes := do
  match t.node? (← t.resolve path) with
  | none => .error .notFound
  | some .directory => .error .isADirectory
  | some (.file content) => .ok content

/-- The place of a path at which there is something. -/
def locate? (t : FileTree) (path : Text) : Option (Place × Node) :=
  match t.resolve path with
  | .error _ => none
  | .ok place => (t.node? place).map (place, ·)

/-- Makes a directory. -/
def withDirectory (t : FileTree) (path : Text) : Except FileFault FileTree := do
  let place ← t.resolve path
  if (t.node? place).isSome then .error .alreadyExists else .ok (t.put place .directory)

/-- Writes a file. -/
def withFile (t : FileTree) (path : Text) (content : Bytes) : Except FileFault FileTree := do
  let place ← t.resolve path
  if t.hasDirectory place then .error .isADirectory else .ok (t.put place (.file content))

/-- Moves a directory with everything in it. -/
def withMoved (t : FileTree) (source target : Text) : Except FileFault FileTree := do
  let old ← t.resolve source
  let new ← t.resolve target
  if (t.node? old).isNone then .error .notFound
  else if (t.node? new).isSome then .error .notEmpty
  else
    .ok { t with
      nodes := t.nodes.map fun n =>
        if old.isPrefixOf n.1 then (new ++ n.1.drop old.length, n.2) else n }

/-- Removes a directory with everything in it.  A path that ends with a dot or with two dots only
empties the directory: in the first case that is a fault, in the second none. -/
def withoutTree (t : FileTree) (path : Text) : Except FileFault Unit × FileTree :=
  match t.resolve path with
  | .error fault => (.error fault, t)
  | .ok place =>
    match t.node? place with
    | none => (.error .notFound, t)
    | some (.file _) => (.error .notADirectory, t)
    | some .directory =>
      let last := ((path.splitOnP (· == '/')).filter (!·.isEmpty)).getLast?
      let emptied := t.clear place
      if last == some ['.'] then (.error .invalidArgument, emptied)
      else if last == some "..".toList then (.ok (), emptied)
      else (.ok (), emptied.remove place)

end FileTree

/-! ## Programs on file trees -/

/-- Carries out an operation that leaves the tree as it is if it fails. -/
def FileTree.attempt (f : FileTree → Except FileFault FileTree) :
    StateM FileTree (Except FileFault Unit) := fun t =>
  match f t with
  | .ok t => (.ok (), t)
  | .error fault => (.error fault, t)

instance : DirectoryListing (StateM FileTree) where
  read path := return (← get).contentAt path
  isPresent path := return ((← get).locate? path).isSome
  isDirectory path := return ((← get).locate? path).any (·.2 == .directory)
  size? path := return ((← get).locate? path).bind fun (_, node) =>
    match node with
    | .directory => none
    | .file content => some content.length
  names path := return (← get).resolve path |>.map (← get).namesIn
  makeDirectory path := FileTree.attempt (·.withDirectory path)
  write path content := FileTree.attempt (·.withFile path content)
  move source target := FileTree.attempt (·.withMoved source target)
  removeTree path := fun t => t.withoutTree path

end Bitext
