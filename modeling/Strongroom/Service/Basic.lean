import Strongroom.Blob.Store
import Strongroom.Config
import Strongroom.Service.Conduct
import Strongroom.Stream.Encoder
import Strongroom.Vault

/-! # The service

What all uploads and downloads share: the stores, the master key, the
configuration, and the sources of random bytes and identifiers.
-/

namespace Strongroom

structure Service where
  blobs : BlobStore
  catalog : Catalog
  master : MasterKey
  config : TransferConfig
  random : Entropy
  ids : IdSupply
  /-- Seconds since 1970. -/
  clock : Nat
  conduct : Conduct := {}
  /-- The calls made to the stores, newest first. -/
  journal : List Event := []

/-- Why a call gives no value. -/
inductive Halt where
  | failed (e : Error)
  /-- A buffer was asked for that no machine can have. -/
  | panicked
  deriving Repr, DecidableEq

def maxFileName : Nat := 255

inductive FileNameFault where
  | empty
  | tooLong
  | control
  deriving Repr, DecidableEq

def FileNameFault.message : FileNameFault → String
  | .empty => "file name must not be empty"
  | .tooLong => s!"file name longer than {maxFileName} bytes"
  | .control => "file name contains control characters"

/-- The name of a file without blanks around it. It must not be empty, too long,
    or hold controls, and the first of these faults is reported. -/
def checkFileName (name : String) : Except FileNameFault String :=
  let name := Text.trim name
  if name.isEmpty then .error .empty
  else if maxFileName < name.utf8ByteSize then .error .tooLong
  else if name.toList.any Text.isControl then .error .control
  else .ok name

namespace Service

/-- A service, if its configuration has no fault. -/
def create (blobs : BlobStore) (catalog : Catalog) (master : MasterKey) (config : TransferConfig)
    (random : Entropy) (ids : IdSupply) (clock : Nat) : Except Error Service :=
  match config.validate with
  | .error e => .error e
  | .ok () => .ok { blobs, catalog, master, config, random, ids, clock }

def note (service : Service) (verb : Verb) (name : String) : Service :=
  { service with journal := ⟨verb, name⟩ :: service.journal }

def keyOf (service : Service) (user : UserId) : Except Error DataKey :=
  Vault.resolve service.master service.catalog user

/-- Add a user with a fresh data key. -/
def enroll (service : Service) (id : UserId) (login : String) :
    Script (Except Error UserRecord × Service) := do
  let (result, catalog, random) ←
    Vault.enroll service.master service.catalog id login service.random
  return (result, { service with catalog, random })

def removeBlob (service : Service) (name : String) : Script (Except Error Unit × Service) := do
  let service := service.note .remove name
  match service.conduct.remove with
  | some e => return (.error e, service)
  | none =>
    let (result, blobs) ← service.blobs.remove name
    return (result, { service with blobs })

/-- The record of a file that a user may touch. -/
def ownedRecord (service : Service) (id : FileId) (user : UserId) : Except Error FileRecord :=
  match service.catalog.file? id with
  | none => .error (.notFound s!"file {id}")
  | some record =>
    if record.owner = user then .ok record else .error (.permissionDenied s!"file {id}")

/-- Delete a file: first its record, then its blob. A blob that cannot be
    removed is left behind. -/
def deleteFile (service : Service) (id : FileId) (user : UserId) :
    Script (Except Error Unit × Service) := do
  match service.ownedRecord id user with
  | .error e => return (.error e, service)
  | .ok record =>
    let service := service.note .delete (toString id)
    match service.conduct.delete with
    | some e => return (.error e, service)
    | none =>
      let (result, catalog) ← service.catalog.delete record.id record.owner
      let service := { service with catalog }
      match result with
      | .error e => return (.error e, service)
      | .ok () =>
        let (_, service) ← service.removeBlob record.blobName
        return (.ok (), service)

def listFiles (service : Service) (user : UserId) : List FileRecord :=
  service.catalog.filesOf user

end Service

end Strongroom
