import Strongroom.Disk.Script
import Strongroom.Error
import Strongroom.Text.Blank

/-! # Blob stores

Named byte objects, in memory or as the files of a folder. An object is written
through a draft. Nothing is left under its name if the writing is given up, not
even an older object.
-/

namespace Strongroom

inductive BlobStore where
  /-- Objects in process memory, by name. -/
  | memory (objects : List (String × Bytes))
  /-- Objects as files below a folder. -/
  | folder (root : Path)

structure BlobDraft where
  /-- The name as it was given. -/
  name : String
  /-- The name under which it is stored. -/
  key : String
  taken : Nat
  /-- What has been taken and not been written to disk, newest first. In a
      folder it is the last piece alone. -/
  held : List Bytes

namespace BlobStore

/-- Put the names of a path together again, without the empty ones. -/
def joinNames (names : List (List Char)) : String :=
  String.ofList (['/'].intercalate (names.filter fun name => !name.isEmpty))

/-- Whether a key means a folder: a slash stands at its end. -/
def meansFolder (key : String) : Bool :=
  key.toList.getLast? == some '/'

/-- The name that an object is stored under: blanks around it and needless
    slashes do not count. Nothing at all means the root. -/
def storedName (name : String) : String :=
  match (Text.trim name).toList.dropWhile (· == '/') with
  | [] => "/"
  | name => joinNames (Path.split name) ++ if name.getLast? == some '/' then "/" else ""

def filePath (root : Path) (key : String) : Path :=
  if key == "/" then root else root.join ⟨key⟩

def faultName : DiskFault → String
  | .notFound => "NotFound"
  | .notFolder => "NotADirectory"
  | .isFolder => "IsADirectory"
  | _ => "Unexpected"

def errorOf (name doing : String) (fault : DiskFault) : Error :=
  .storage s!"blob {name}: {faultName fault} (permanent) at {doing}"

/-- Begin to write an object. In a folder its file is there from now on. -/
def begin (store : BlobStore) (name : String) : Script (Except Error BlobDraft) := do
  let key := storedName name
  let draft : BlobDraft := { name, key, taken := 0, held := [] }
  if meansFolder key then return .error (errorOf name "write" .isFolder)
  else
    match store with
    | .memory _ => return .ok draft
    | .folder root =>
      let path := filePath root key
      match ← Script.makeFolders (path.parent?.getD ⟨""⟩) with
      | .error fault => return .error (errorOf name "write" fault)
      | .ok () =>
        match ← Script.ask (.truncate path) with
        | .error fault => return .error (errorOf name "write" fault)
        | .ok () => return .ok draft

/-- Write the pieces that a draft holds to its file. -/
def writeHeld (root : Path) (draft : BlobDraft) : Script (Except DiskFault Unit) :=
  match draft.held with
  | [] => return .ok ()
  | pieces => Script.ask (.append (filePath root draft.key) pieces.reverse.flatten)

/-- Take one more piece. A folder writes each piece when the next one comes. -/
def take (store : BlobStore) (draft : BlobDraft) (piece : Bytes) :
    Script (Except Error BlobDraft) := do
  let taken := draft.taken + piece.length
  match store with
  | .memory _ => return .ok { draft with taken, held := piece :: draft.held }
  | .folder root =>
    match ← writeHeld root draft with
    | .error fault => return .error (errorOf draft.name "write" fault)
    | .ok () => return .ok { draft with taken, held := [piece] }

/-- Remove an object. One that is not there is removed already. -/
def remove (store : BlobStore) (name : String) : Script (Except Error Unit × BlobStore) := do
  let key := storedName name
  match store with
  | .memory objects => return (.ok (), .memory (objects.filter fun object => object.1 ≠ key))
  | .folder root =>
    let path := filePath root key
    let result ←
      if (← Script.ask (.look path)) == some .folder then Script.ask (.removeFolder path)
      else Script.ask (.removeFile path)
    match result with
    | .ok () | .error .notFound => return (.ok (), store)
    | .error fault => return (.error (errorOf name "delete" fault), store)

/-- Give up writing: nothing stays under the name. -/
def discard (store : BlobStore) (draft : BlobDraft) : Script BlobStore := do
  let (_, store) ← store.remove draft.name
  return store

/-- Finish an object; gives its size. -/
def close (store : BlobStore) (draft : BlobDraft) : Script (Except Error Nat × BlobStore) := do
  match store with
  | .memory objects =>
    let data := draft.held.reverse.flatten
    return (.ok draft.taken,
      .memory ((draft.key, data) :: objects.filter fun object => object.1 ≠ draft.key))
  | .folder root =>
    match ← writeHeld root draft with
    | .ok () => return (.ok draft.taken, store)
    | .error fault =>
      let store ← store.discard draft
      return (.error (errorOf draft.name "close" fault), store)

/-- The error of a source that broke while an object was written from it. -/
def sourceFailed (name text : String) : Error :=
  .storage s!"blob {name}: source failed: {text}"

/-- Take all pieces of a source, and finish the object. If the source breaks
    the object is given up. -/
def fill (store : BlobStore) (draft : BlobDraft) :
    List (Except String Bytes) → Script (Except Error Nat × BlobStore)
  | [] => store.close draft
  | .error text :: _ => do
    let store ← store.discard draft
    return (.error (sourceFailed draft.name text), store)
  | .ok piece :: rest => do
    match ← store.take draft piece with
    | .error e =>
      let store ← store.discard draft
      return (.error e, store)
    | .ok draft => store.fill draft rest

def put (store : BlobStore) (name : String) (source : List (Except String Bytes)) :
    Script (Except Error Nat × BlobStore) := do
  match ← store.begin name with
  | .error e => return (.error e, store)
  | .ok draft => store.fill draft source

/-- Look an object up before it is read. -/
def find (store : BlobStore) (name : String) : Script (Except Error Unit) := do
  let key := storedName name
  match store with
  | .memory objects =>
    if (objects.lookup key).isSome then return .ok ()
    else if key == "/" ||
        objects.any (fun object => meansFolder key && object.1.startsWith key) then
      return .error (errorOf name "read" .isFolder)
    else return .error (.notFound s!"blob {name}")
  | .folder root =>
    match ← Script.ask (.openFile (filePath root key)) with
    | .error .notFound => return .error (.notFound s!"blob {name}")
    | .error fault => return .error (errorOf name "stat" fault)
    | .ok () =>
      if meansFolder key then return .error (errorOf name "read" .isFolder) else return .ok ()

def read (store : BlobStore) (name : String) : Script (Except String Bytes) := do
  let key := storedName name
  match store with
  | .memory objects =>
    match objects.lookup key with
    | some data => return .ok data
    | none => return .error s!"{faultName .notFound} (permanent) at read"
  | .folder root =>
    match ← Script.ask (.read (filePath root key)) with
    | .ok data => return .ok data
    | .error fault => return .error s!"{faultName fault} (permanent) at read"

end BlobStore

end Strongroom
