import Strongroom.Disk.Script

/-! # A model of the disk

A tree of folders and files without links. Scripts run on it step by step.
-/

namespace Strongroom

/-- The names that lead from the root to a place. -/
abbrev Location := List String

/-- What stands at a place. The content of a file is kept in the pieces it was
    written in, newest first. -/
inductive FileNode where
  | folder
  | file (pieces : List Bytes)
  deriving Repr, DecidableEq

namespace FileNode

def content : FileNode → Bytes
  | .folder => []
  | .file pieces => pieces.reverse.flatten

def kind : FileNode → FileKind
  | .folder => .folder
  | .file _ => .file

end FileNode

/-- A disk, and the folder that relative paths start from. The root is always
    there. -/
structure FileTree where
  entries : List (Location × FileNode) := []
  current : Location := []

namespace FileTree

def find? (tree : FileTree) (place : Location) : Option FileNode :=
  if place = [] then some .folder else tree.entries.lookup place

def insert (tree : FileTree) (place : Location) (node : FileNode) : FileTree :=
  { tree with entries := (place, node) :: tree.entries.filter fun entry => entry.1 ≠ place }

def erase (tree : FileTree) (place : Location) : FileTree :=
  { tree with entries := tree.entries.filter fun entry => entry.1 ≠ place }

/-- Take away what stands at a place, with everything below it. -/
def eraseBelow (tree : FileTree) (place : Location) : FileTree :=
  { tree with entries := tree.entries.filter fun entry => !place.isPrefixOf entry.1 }

def hasBelow (tree : FileTree) (place : Location) : Bool :=
  tree.entries.any fun entry => place.isPrefixOf entry.1 && entry.1 ≠ place

/-- Follow names from a place. All but the last must lead to folders. -/
def walk (tree : FileTree) : Location → List String → Except DiskFault Location
  | place, [] => .ok place
  | place, name :: names =>
    match tree.find? place with
    | none => .error .notFound
    | some (.file _) => .error .notFolder
    | some .folder =>
      if name = ".." then walk tree place.dropLast names else walk tree (place ++ [name]) names

/-- The place that a path means. Something need not stand there, but the folder
    around it does. -/
def locate (tree : FileTree) (path : Path) : Except DiskFault Location :=
  if path.text.isEmpty then .error .notFound
  else tree.walk (if path.isAbsolute then [] else tree.current) path.segments

def resolve (tree : FileTree) (path : Path) : Except DiskFault (Location × FileNode) := do
  let place ← tree.locate path
  match tree.find? place with
  | none => .error .notFound
  | some (.file pieces) =>
    if path.meansFolder then .error .notFolder else .ok (place, .file pieces)
  | some .folder => .ok (place, .folder)

/-- Make a file empty, or a new one. -/
def truncate (tree : FileTree) (path : Path) : Except DiskFault FileTree := do
  let place ← tree.locate path
  if path.meansFolder then .error .isFolder
  else
    match tree.find? place with
    | some .folder => .error .isFolder
    | _ => .ok (tree.insert place (.file []))

def append (tree : FileTree) (path : Path) (data : Bytes) : FileTree :=
  match tree.resolve path with
  | .ok (place, .file pieces) => tree.insert place (.file (data :: pieces))
  | _ => tree

def makeFolder (tree : FileTree) (path : Path) : Except DiskFault FileTree := do
  let place ← tree.locate path
  match tree.find? place with
  | some _ => .error .exists
  | none => .ok (tree.insert place .folder)

def rename (tree : FileTree) (source target : Path) : Except DiskFault FileTree := do
  match ← tree.resolve source with
  | (_, .folder) => .error .isFolder
  | (start, .file pieces) =>
    let place ← tree.locate target
    match tree.find? place with
    | some .folder => .error .isFolder
    | found =>
      if target.meansFolder then .error .notFolder
      else if found.isSome && place = start then .ok tree
      else .ok ((tree.erase start).insert place (.file pieces))

def removeFile (tree : FileTree) (path : Path) : Except DiskFault FileTree := do
  match ← tree.resolve path with
  | (_, .folder) => .error .isFolder
  | (place, .file _) => .ok (tree.erase place)

def removeFolder (tree : FileTree) (path : Path) : Except DiskFault FileTree := do
  match ← tree.resolve path with
  | (_, .file _) => .error .notFolder
  | (place, .folder) => if tree.hasBelow place then .error .notEmpty else .ok (tree.erase place)

/-- Reply to a change: the disk stays as it was where it fails. -/
def settle (tree : FileTree) : Except DiskFault FileTree → Except DiskFault Unit × FileTree
  | .ok changed => (.ok (), changed)
  | .error fault => (.error fault, tree)

def perform (tree : FileTree) : (s : Step) → s.Reply × FileTree
  | .look path => ((tree.resolve path).toOption.map (·.2.kind), tree)
  | .canonical path =>
    ((tree.resolve path).map fun found => ⟨"/" ++ String.intercalate "/" found.1⟩, tree)
  | .openFile path => ((tree.resolve path).map fun _ => (), tree)
  | .read path =>
    (match tree.resolve path with
      | .error fault => .error fault
      | .ok (_, .folder) => .error .isFolder
      | .ok (_, node) => .ok node.content, tree)
  | .truncate path => tree.settle (tree.truncate path)
  | .append path data => (.ok (), tree.append path data)
  | .sync _ => (.ok (), tree)
  | .makeFolder path => tree.settle (tree.makeFolder path)
  | .rename source target => tree.settle (tree.rename source target)
  | .removeFile path => tree.settle (tree.removeFile path)
  | .removeFolder path => tree.settle (tree.removeFolder path)

end FileTree

namespace Script

variable {α : Type}

def run : Script α → FileTree → α × FileTree
  | .done value, tree => (value, tree)
  | .step s next, tree =>
    let (reply, tree) := tree.perform s
    (next reply).run tree

/-- Run at most `count` steps and see what the disk holds then. -/
def stopAfter : (count : Nat) → Script α → FileTree → FileTree
  | 0, _, tree => tree
  | _ + 1, .done _, tree => tree
  | count + 1, .step s next, tree =>
    let (reply, tree) := tree.perform s
    stopAfter count (next reply) tree

end Script

end Strongroom
