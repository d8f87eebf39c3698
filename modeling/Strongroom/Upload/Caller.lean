import Strongroom.Upload.Basic

/-! # The caller's task

Writes, commits and aborts as small steps. A call that waits is a value, so it
can be given up half way.
-/

namespace Strongroom.Upload

/-- Begin to abort: the encoder goes, the writer is told to stop, the queue is
    closed. -/
def abort (upload : Upload) (reason : Error) : Upload :=
  { upload with
    encoder := none
    stopped := true
    sending := false
    held := false
    call := .joinForAbort upload.held reason }

def answer (upload : Upload) (result : Except Error (Option FileRecord)) : Upload :=
  { upload with call := .answered result }

/-- The error of a call on an upload that is over. -/
def closedError (phase : Phase) : Error :=
  .invalidInput s!"upload is not accepting data (state: {phase.name})"

/-- The error of a call after a write that was given up half way. -/
def interruptedError : Error :=
  .invalidInput "an earlier write was interrupted before its data was stored"

/-- What becomes of an upload that a call is refused on: it must still be open,
    its token must not have fired, and no write must have been interrupted, in
    this order. Nothing if the call may begin. -/
def refuse? (upload : Upload) : Option Upload :=
  match upload.phase with
  | .receiving => if upload.cancelled then some (upload.abort .cancelled) else none
  | .writing =>
    some (upload.abort (if upload.cancelled then .cancelled else interruptedError))
  | phase => some (upload.answer (.error (closedError phase)))

/-- Begin a write. Random bytes are drawn for the records it completes. -/
def write (service : Service) (upload : Upload) (data : Bytes) : Service × Upload :=
  match upload.refuse? with
  | some upload => (service, upload)
  | none =>
    let upload := { upload with phase := .writing }
    match upload.encoder with
    | none => (service, upload.abort (.invalidInput "upload is closed"))
    | some encoder =>
      match encoder.write data service.random with
      | (.error e, encoder, random) =>
        ({ service with random }, { upload with encoder := some encoder }.abort e)
      | (.ok records, encoder, random) =>
        ({ service with random },
          { upload with encoder := some encoder, call := .handOff records })

/-- Begin a commit. A random nonce is drawn for the last record. -/
def commit (service : Service) (upload : Upload) : Service × Upload :=
  match upload.refuse? with
  | some upload => (service, upload)
  | none =>
    match upload.encoder with
    | none =>
      (service, { upload with phase := .committing }.abort (.invalidInput "upload is closed"))
    | some encoder =>
      let upload := { upload with phase := .committing, encoder := none }
      match encoder.finish service.random with
      | (.error e, random) => ({ service with random }, upload.abort e)
      | (.ok record, random) =>
        ({ service with random },
          { upload with call := .handOffFinal record encoder.received })

/-- Hand over one record: the token comes first, then the end of the writer,
    then the room in the queue. `next` is the call after that; nothing happens
    while there is no room. -/
def handOver (upload : Upload) (record : Bytes) (next : Upload → Upload) : Option Upload :=
  if !upload.sending then some (upload.abort (.invalidInput "upload is closed"))
  else if upload.cancelled then some (upload.abort .cancelled)
  else if upload.writer.isOver then
    some { upload with sending := false, held := false, call := .joinForCause upload.held }
  else if upload.queue.length < upload.capacity then
    some (next { upload with queue := upload.queue ++ [record] })
  else none

/-- The result of the writer's task, once it is there; none if the task is not
    held any more. -/
def joined (upload : Upload) (held : Bool) : Option (Except Error Nat) :=
  if held then upload.writer.result?
  else some (.error (.storage "blob writer already joined"))

/-- The record of an upload whose blob is stored. -/
def recordOf (service : Service) (upload : Upload) (fileSize blobSize : Nat) : FileRecord where
  id := upload.fileId
  owner := upload.owner
  fileName := upload.fileName
  fileSize := fileSize
  blobName := upload.blobName
  blobSize := blobSize
  createdAt := service.clock

/-- Ask the catalog to take the record. In memory it is there before the flush. -/
def insertRecord (service : Service) (upload : Upload) (record : FileRecord) :
    Service × Upload :=
  let service := service.note .insert (toString record.id)
  match service.conduct.insert with
  | some e => (service, { upload with call := .withdraw e })
  | none =>
    let stored := { record with createdAt := service.conduct.stamp.getD record.createdAt }
    match service.catalog.stageFile stored with
    | .error e => (service, { upload with call := .withdraw e })
    | .ok catalog =>
      ({ service with catalog }, { upload with call := .flushing record catalog.flush })

/-- The next thing of an inbound stream; the token is looked at first. -/
def feed (service : Service) (upload : Upload) (items : List Inbound) : Service × Upload :=
  if upload.cancelled then (service, { upload with inbound := none }.abort .cancelled)
  else
    match items with
    | [] => commit service { upload with inbound := none }
    | item :: rest =>
      let upload :=
        { upload with inbound := some rest, cancelled := upload.cancelled || item.fires }
      match item.content with
      | .ok data => write service upload data
      | .error text => (service, upload.abort (.io text))

/-- One step of the caller's task, if it can do any. -/
def callerStep (service : Service) (upload : Upload) : Option (Script (Service × Upload)) :=
  match upload.call with
  | .idle => upload.inbound.map fun items => return feed service upload items
  | .handOff [] =>
    let upload := { upload with phase := .receiving }
    some (return (service,
      if upload.inbound.isSome then { upload with call := .idle } else upload.answer (.ok none)))
  | .handOff (record :: rest) =>
    (upload.handOver record fun u => { u with call := .handOff rest }).map
      fun upload => return (service, upload)
  | .handOffFinal record size =>
    (upload.handOver record fun u =>
      { u with sending := false, held := false, call := .joinForSize size }).map
        fun upload => return (service, upload)
  | .joinForSize size =>
    match upload.writer.result? with
    | none => none
    | some (.error e) => some (return (service, upload.abort e))
    | some (.ok blobSize) =>
      some (return insertRecord service upload (upload.recordOf service size blobSize))
  | .flushing record (.done (.ok ())) =>
    some (return (service, { upload with phase := .done }.answer (.ok (some record))))
  | .flushing record (.done (.error e)) =>
    some (return ({ service with catalog := service.catalog.unstageFile record.id },
      { upload with call := .withdraw e }))
  | .flushing record (.step s next) =>
    some (.step s fun reply =>
      return (service, { upload with call := .flushing record (next reply) }))
  | .withdraw e =>
    some do
      let (_, service) ← service.removeBlob upload.blobName
      return (service, { upload with phase := .failed }.answer (.error e))
  | .joinForCause held =>
    match upload.joined held with
    | none => none
    | some (.error e) => some (return (service, upload.abort e))
    | some (.ok _) =>
      some (return (service, upload.abort (.storage "blob writer exited early")))
  | .joinForAbort held reason =>
    if held && !upload.writer.isOver then none
    else
      some do
        let (_, service) ← service.removeBlob upload.blobName
        return (service, { upload with phase := .failed }.answer (.error reason))
  | .answered _ => none

/-- Give up a call half way. What a write had not handed over is lost. -/
def giveUp (upload : Upload) : Upload :=
  { upload with call := .idle, inbound := none }

/-- Drop an upload. One that is not over tells the writer to stop; inside the
    runtime a task is left behind that waits for it and removes the blob. -/
def drop (upload : Upload) (inside : Bool) : Upload :=
  match upload.phase with
  | .done | .failed => { upload with call := .idle, inbound := none, held := false }
  | _ =>
    { upload with
      call := .idle
      inbound := none
      encoder := none
      stopped := true
      sending := false
      held := false
      cleanup := if inside then .pending upload.held else .none }

/-- One step of the task that cleans up after a dropped upload, if it can do
    any. -/
def cleanupStep (service : Service) (upload : Upload) : Option (Script (Service × Upload)) :=
  match upload.cleanup with
  | .pending held =>
    if held && !upload.writer.isOver then none
    else
      some do
        let (_, service) ← service.removeBlob upload.blobName
        return (service, { upload with cleanup := .finished })
  | _ => none

end Strongroom.Upload
