import Strongroom.Bytes
import Strongroom.Path

/-! # Scripts of disk steps

What touches the disk is written as a script: a tree of steps that branches on
the reply to each. A script does nothing by itself. It may be run on a model of
the disk, on a real one, or only for a number of its steps.
-/

namespace Strongroom

inductive DiskFault where
  | notFound
  | notFolder
  | isFolder
  | exists
  | notEmpty
  /-- The bytes of a file are no text. -/
  | notText
  | other (text : String)
  deriving Repr, DecidableEq

def DiskFault.message : DiskFault → String
  | .notFound => "No such file or directory (os error 2)"
  | .notFolder => "Not a directory (os error 20)"
  | .isFolder => "Is a directory (os error 21)"
  | .exists => "File exists (os error 17)"
  | .notEmpty => "Directory not empty (os error 39)"
  | .notText => "stream did not contain valid UTF-8"
  | .other text => text

inductive FileKind where
  | folder
  | file
  deriving Repr, DecidableEq

inductive Step where
  /-- See what a path leads to. -/
  | look (path : Path)
  /-- Find the absolute path, without anything that leads back. -/
  | canonical (path : Path)
  | openFile (path : Path)
  | read (path : Path)
  /-- Make a file empty, or a new one. -/
  | truncate (path : Path)
  /-- Write at the end of a file. What is written to one that is gone is lost. -/
  | append (path : Path) (data : Bytes)
  /-- Bring what has been written to a file to the disk itself. -/
  | sync (path : Path)
  /-- Make a folder inside one that exists. -/
  | makeFolder (path : Path)
  /-- Move a file, over another if need be. -/
  | rename (source target : Path)
  | removeFile (path : Path)
  | removeFolder (path : Path)
  deriving Repr, DecidableEq

@[reducible] def Step.Reply : Step → Type
  | .look _ => Option FileKind
  | .canonical _ => Except DiskFault Path
  | .read _ => Except DiskFault Bytes
  | .openFile _ | .truncate _ | .append _ _ | .sync _ | .makeFolder _ | .rename _ _
  | .removeFile _ | .removeFolder _ => Except DiskFault Unit

inductive Script (α : Type) where
  | done (value : α)
  | step (s : Step) (next : s.Reply → Script α)

namespace Script

variable {α β : Type}

/-- Go on with another script at the end. -/
def bind : Script α → (α → Script β) → Script β
  | .done value, f => f value
  | .step s next, f => .step s fun reply => (next reply).bind f

instance : Monad Script where
  pure := .done
  bind := bind

def ask (s : Step) : Script s.Reply :=
  .step s .done

def readText (path : Path) : Script (Except DiskFault String) := do
  match ← ask (.read path) with
  | .error fault => return .error fault
  | .ok data =>
    match Bytes.text? data with
    | some text => return .ok text
    | none => return .error .notText

/-- Whether a path leads to something. -/
def exists? (path : Path) : Script Bool := do
  return (← ask (.look path)).isSome

/-- Write a whole file: empty it, then write. -/
def write (path : Path) (data : Bytes) : Script (Except DiskFault Unit) := do
  match ← ask (.truncate path) with
  | .error fault => return .error fault
  | .ok () => ask (.append path data)

/-- Make a folder with all folders above it; it may be there already. Every
    folder on the way up spends one unit of `fuel`. -/
def makeFoldersFrom : (fuel : Nat) → Path → Script (Except DiskFault Unit)
  | 0, _ => return .error .notFound
  | fuel + 1, path => do
    if path.text.isEmpty then return .ok ()
    match ← ask (.makeFolder path) with
    | .ok () => return .ok ()
    | .error .notFound =>
      match path.parent? with
      | none => return .error .notFound
      | some parent =>
        match ← makeFoldersFrom fuel parent with
        | .error fault => return .error fault
        | .ok () =>
          match ← ask (.makeFolder path) with
          | .ok () => return .ok ()
          | .error fault => settled path fault
    | .error fault => settled path fault
where
  /-- A failure does not matter where the folder exists. -/
  settled (path : Path) (fault : DiskFault) : Script (Except DiskFault Unit) := do
    if (← ask (.look path)) == some .folder then return .ok () else return .error fault

def makeFolders (path : Path) : Script (Except DiskFault Unit) :=
  makeFoldersFrom (path.text.length + 1) path

end Script

end Strongroom
