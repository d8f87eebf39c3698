import Strongroom.Catalog.Document
import Strongroom.Disk.Script

/-! # Catalogs

A catalog is held in memory alone, or also in a file. Every change to the latter
kind is flushed before the call returns: the document is written beside the
file and then moved over it. If that fails the change is taken back, so a catalog
that alone has its file open shows no record that is not on disk. It never reads
the file again, so it does not see what another one has written since.
-/

namespace Strongroom

inductive Catalog where
  /-- It vanishes with the process. -/
  | memory (entries : Entries)
  /-- It is read from a file once, and written to it after every change. -/
  | file (path : Path) (entries : Entries)

namespace Catalog

def entries : Catalog → Entries
  | .memory entries => entries
  | .file _ entries => entries

def withEntries (catalog : Catalog) (entries : Entries) : Catalog :=
  match catalog with
  | .memory _ => .memory entries
  | .file path _ => .file path entries

def path? : Catalog → Option Path
  | .memory _ => none
  | .file path _ => some path

/-- Where a document is written before it is moved to `path`. -/
def temporary (path : Path) : Path :=
  path.withExtension "tmp"

def read (path : Path) (text : String) : Except Error Entries :=
  match (Json.parse? text).bind Entries.ofJson? with
  | none => .error (.storage s!"parsing catalog {path.text}")
  | some (version, entries) =>
    if version = Entries.documentVersion then .ok entries
    else .error (.storage s!"catalog {path.text} has unsupported version {version}")

/-- Open the catalog of a file. One that does not exist is empty. -/
def openFile (path : Path) : Script (Except Error Catalog) := do
  if ← Script.exists? path then
    match ← Script.readText path with
    | .error fault => return .error (.io fault.message)
    | .ok text => return (read path text).map (.file path)
  else return .ok (.file path {})

/-- Make the folder of a file, if its path names one. -/
def makeParent (path : Path) : Script (Except DiskFault Unit) :=
  match path.parent? with
  | some parent => if parent.text.isEmpty then return .ok () else Script.makeFolders parent
  | none => return .ok ()

/-- Replace the document at `path`: make its folder, write beside it, move over
    it. -/
def replaceDocument (path : Path) (text : String) : Script (Except Error Unit) := do
  match ← makeParent path with
  | .error fault => return .error (.io fault.message)
  | .ok () =>
    match ← Script.write (temporary path) (Bytes.ofText text) with
    | .error fault =>
      return .error (.storage
        s!"writing catalog temp {(temporary path).text}: {fault.message}")
    | .ok () =>
      match ← Script.ask (.rename (temporary path) path) with
      | .error fault =>
        return .error (.storage s!"renaming catalog into {path.text}: {fault.message}")
      | .ok () => return .ok ()

def flush : Catalog → Script (Except Error Unit)
  | .memory _ => return .ok ()
  | .file path entries => replaceDocument path entries.toText

/-- Flush a change; if that fails, give `undone` instead. -/
def settle (changed undone : Catalog) : Script (Except Error Unit × Catalog) := do
  match ← changed.flush with
  | .ok () => return (.ok (), changed)
  | .error e => return (.error e, undone)

/-- Add a file in memory, before the flush. -/
def stageFile (catalog : Catalog) (record : FileRecord) : Except Error Catalog :=
  (catalog.entries.insertFile record).map catalog.withEntries

/-- Take a file out again in memory, after a failed flush. -/
def unstageFile (catalog : Catalog) (id : FileId) : Catalog :=
  catalog.withEntries (catalog.entries.dropFile id)

/-- Add a file; its identifier must be new. -/
def insert (catalog : Catalog) (record : FileRecord) : Script (Except Error Unit × Catalog) :=
  match catalog.stageFile record with
  | .error e => return (.error e, catalog)
  | .ok staged => staged.settle (staged.unstageFile record.id)

/-- Remove a file that belongs to an owner. -/
def delete (catalog : Catalog) (id : FileId) (owner : UserId) :
    Script (Except Error Unit × Catalog) :=
  match catalog.entries.deleteFile id owner with
  | .error e => return (.error e, catalog)
  | .ok (record, entries) =>
    (catalog.withEntries entries).settle (catalog.withEntries (entries.putFile record))

def insertUser (catalog : Catalog) (user : UserRecord) :
    Script (Except Error Unit × Catalog) :=
  match catalog.entries.insertUser user with
  | .error e => return (.error e, catalog)
  | .ok entries =>
    (catalog.withEntries entries).settle (catalog.withEntries (entries.dropUser user.id))

def file? (catalog : Catalog) (id : FileId) : Option FileRecord :=
  catalog.entries.file? id

def filesOf (catalog : Catalog) (owner : UserId) : List FileRecord :=
  catalog.entries.filesOf owner

def wrappedKey? (catalog : Catalog) (user : UserId) : Option Bytes :=
  catalog.entries.wrappedKey? user

end Catalog

end Strongroom
