import Strongroom.Upload.Caller
import Strongroom.Upload.Writer

/-! # Transfers in progress

The service with all its uploads, and the order in which their tasks run: the
caller's task goes on until it has to wait, then the tasks in the background go
on until all of them rest, and so forth. A call that still waits when nothing
can go on is blocked.
-/

namespace Strongroom

/-- The service and its uploads. An upload stays here after it is dropped, for
    the sake of its tasks. -/
structure Transfers where
  service : Service
  uploads : List Upload := []

namespace Transfers

def upload? (transfers : Transfers) (id : FileId) : Option Upload :=
  transfers.uploads.find? fun upload => upload.fileId = id

def modify (transfers : Transfers) (id : FileId) (change : Upload → Upload) : Transfers :=
  { transfers with
    uploads := transfers.uploads.map fun upload =>
      if upload.fileId = id then change upload else upload }

/-- Put the outcome of a step back. -/
def store (transfers : Transfers) (service : Service) (upload : Upload) : Transfers :=
  { transfers.modify upload.fileId fun _ => upload with service }

/-- One step of a task in the background, of the first upload that has one. -/
def backgroundStep (transfers : Transfers) : Option (Script Transfers) :=
  transfers.uploads.findSome? fun upload =>
    ((upload.writerStep transfers.service).or (upload.cleanupStep transfers.service)).map
      fun script => do
        let (service, upload) ← script
        return transfers.store service upload

/-- A bound on the steps that tasks in the background can do. -/
def backgroundFuel (transfers : Transfers) : Nat :=
  transfers.uploads.foldl (fun bound upload => bound + upload.queue.length + 8) 0

/-- Run the tasks in the background until all of them rest. -/
def settleFor : (fuel : Nat) → Transfers → Script Transfers
  | 0, transfers => return transfers
  | fuel + 1, transfers =>
    match transfers.backgroundStep with
    | none => return transfers
    | some script => do settleFor fuel (← script)

def settle (transfers : Transfers) : Script Transfers :=
  settleFor transfers.backgroundFuel transfers

def callerStep (transfers : Transfers) (id : FileId) : Option (Script Transfers) := do
  let upload ← transfers.upload? id
  let script ← upload.callerStep transfers.service
  return do
    let (service, upload) ← script
    return transfers.store service upload

/-- A bound on the steps of the caller's task, and on how often it has to wait. -/
def callerFuel (transfers : Transfers) (id : FileId) : Nat :=
  match transfers.upload? id with
  | none => 0
  | some upload =>
    let records := match upload.call with
      | .handOff records => records.length
      | _ => 0
    let pending := (upload.encoder.map fun encoder => encoder.pending.length).getD 0
    let items := upload.inbound.getD []
    let bytes := items.foldl (fun count item => match item.content with
      | .ok data => count + data.length
      | .error _ => count) 0
    let path := (transfers.service.catalog.path?.map fun path => path.text.length).getD 0
    4 * (records + pending + bytes + items.length) + 4 * path + 64

/-- Run the caller's task of an upload, and the others where it has to wait,
    until its call is over or nothing can go on. -/
def driveFor (id : FileId) : (fuel : Nat) → Transfers → Script Transfers
  | 0, transfers => return transfers
  | fuel + 1, transfers =>
    match transfers.callerStep id with
    | some script => do driveFor id fuel (← script)
    | none =>
      match transfers.backgroundStep with
      | none => return transfers
      | some _ => do
        if ((transfers.upload? id).bind Upload.answer?).isSome then return transfers
        else driveFor id fuel (← transfers.settle)

/-- Run the caller's task of an upload until its call is over or blocked. -/
def drive (transfers : Transfers) (id : FileId) : Script Transfers :=
  driveFor id (transfers.callerFuel id) transfers

/-- The answer of the last call on an upload; nothing while it is blocked. -/
def answer? (transfers : Transfers) (id : FileId) :
    Option (Except Error (Option FileRecord)) :=
  (transfers.upload? id).bind Upload.answer?

def start (transfers : Transfers) (owner : UserId) (fileName : String) :
    Except Halt FileId × Transfers :=
  match Upload.start transfers.service owner fileName with
  | (.error halt, service) => (.error halt, { transfers with service })
  | (.ok upload, service) =>
    (.ok upload.fileId, ⟨service, transfers.uploads ++ [upload]⟩)

def call (transfers : Transfers) (id : FileId) (begin : Service → Upload → Service × Upload) :
    Script Transfers :=
  match transfers.upload? id with
  | none => return transfers
  | some upload =>
    let (service, upload) := begin transfers.service upload
    (transfers.store service upload).drive id

def write (transfers : Transfers) (id : FileId) (data : Bytes) : Script Transfers :=
  transfers.call id fun service upload => upload.write service data

def commit (transfers : Transfers) (id : FileId) : Script Transfers :=
  transfers.call id fun service upload => upload.commit service

def abort (transfers : Transfers) (id : FileId) (reason : Error) : Script Transfers :=
  transfers.call id fun service upload => (service, upload.abort reason)

/-- Feed an upload from a stream, and commit it at the end. -/
def feed (transfers : Transfers) (id : FileId) (items : List Inbound) : Script Transfers :=
  transfers.call id fun service upload =>
    (service, { upload with call := .idle, inbound := some items })

/-- Upload a whole stream. Should the upload be blocked for good, it is dropped
    like one whose request was cancelled. -/
def upload (transfers : Transfers) (owner : UserId) (fileName : String) (items : List Inbound) :
    Script (Except Halt FileRecord × Transfers) := do
  match transfers.start owner fileName with
  | (.error halt, transfers) => return (.error halt, transfers)
  | (.ok id, transfers) =>
    let transfers ← transfers.feed id items
    match transfers.answer? id with
    | some (.ok (some record)) => return (.ok record, transfers)
    | some (.error e) => return (.error (.failed e), transfers)
    | _ =>
      let transfers ← (transfers.modify id fun upload => upload.drop true).settle
      return (.error (.failed .cancelled), transfers)

def cancel (transfers : Transfers) (id : FileId) : Transfers :=
  transfers.modify id fun upload => { upload with cancelled := true }

/-- Let one more upload through the gate of the store. -/
def release (transfers : Transfers) : Transfers :=
  { transfers with
    service := { transfers.service with conduct := transfers.service.conduct.release } }

end Transfers

end Strongroom
