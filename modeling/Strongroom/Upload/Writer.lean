import Strongroom.Upload.Basic

/-! # The writer's task

One step of the task that takes records out of the queue. It looks at the stop
signal first, whatever else it could do.
-/

namespace Strongroom.Upload

def endWriter (upload : Upload) (result : Except Error Nat) : Upload :=
  { upload with writer := .ended result }

/-- Begin to store, and go on as `next` says. -/
def openDraft (service : Service) (upload : Upload) (verb : Verb) (next : BlobDraft → Writer) :
    Script (Service × Upload) := do
  match ← service.blobs.begin upload.blobName with
  | .error e => return (service.note verb upload.blobName, upload.endWriter (.error e))
  | .ok draft => return (service, { upload with writer := next draft })

def firstStep (service : Service) (upload : Upload) : Script (Service × Upload) :=
  match service.conduct.put with
  | .store => openDraft service upload .put .storing
  | .gate =>
    return ({ service with conduct := service.conduct.arrive upload.fileId },
      { upload with writer := .waiting })
  | .fail after e => return (service, { upload with writer := .draining after 0 (.fail e) })
  | .early after => return (service, { upload with writer := .draining after 0 .early })
  | .stall after => return (service, { upload with writer := .draining after 0 .stall })
  | .panic after => return (service, { upload with writer := .draining after 0 .panic })
  | .cut after text => openDraft service upload .putCut (.cutting after text)

def storeRecord (service : Service) (upload : Upload) (draft : BlobDraft) (record : Bytes)
    (verb : Verb) (next : BlobDraft → Writer) : Script (Service × Upload) := do
  match ← service.blobs.take draft record with
  | .ok draft => return (service, { upload with writer := next draft })
  | .error e =>
    let blobs ← service.blobs.discard draft
    return ({ service with blobs }.note verb upload.blobName, upload.endWriter (.error e))

/-- All records are stored: finish the object. -/
def closeDraft (service : Service) (upload : Upload) (draft : BlobDraft) :
    Script (Service × Upload) := do
  let (result, blobs) ← service.blobs.close draft
  return ({ service with blobs }.note .put upload.blobName, upload.endWriter result)

/-- The source breaks: give the object up. -/
def breakDraft (service : Service) (upload : Upload) (draft : BlobDraft) (text : String) :
    Script (Service × Upload) := do
  let blobs ← service.blobs.discard draft
  return ({ service with blobs }.note .putCut upload.blobName,
    upload.endWriter (.error (BlobStore.sourceFailed draft.name text)))

/-- A store that took enough without storing it ends as it will. -/
def endDraining (service : Service) (upload : Upload) (taken : Nat) : Ending → Service × Upload
  | .fail e => (service.note .putFailed upload.blobName, upload.endWriter (.error e))
  | .early => (service.note .putEarly upload.blobName, upload.endWriter (.ok taken))
  | .stall => (service.note .putStalled upload.blobName, { upload with writer := .stalled })
  | .panic => (service.note .putPanicked upload.blobName, { upload with writer := .panicked })

/-- One step of the task, if it can do any. -/
def writerStep (service : Service) (upload : Upload) : Option (Script (Service × Upload)) :=
  if upload.writer.isOver then none
  else if upload.stopped then
    some (return ({ service with conduct := service.conduct.leave upload.fileId },
      upload.endWriter (.error .cancelled)))
  else
    match upload.writer with
    | .fresh => some (firstStep service upload)
    | .waiting =>
      if service.conduct.mayPass upload.fileId then
        some (openDraft { service with conduct := service.conduct.pass } upload .put .storing)
      else none
    | .storing draft =>
      match upload.queue with
      | record :: queue =>
        some (storeRecord service { upload with queue } draft record .put .storing)
      | [] => if upload.sending then none else some (closeDraft service upload draft)
    | .cutting 0 text draft => some (breakDraft service upload draft text)
    | .cutting (left + 1) text draft =>
      match upload.queue with
      | record :: queue =>
        some (storeRecord service { upload with queue } draft record .putCut (.cutting left text))
      | [] => if upload.sending then none else some (breakDraft service upload draft text)
    | .draining 0 taken ending => some (return endDraining service upload taken ending)
    | .draining (left + 1) taken ending =>
      match upload.queue with
      | record :: queue =>
        some (return (service,
          { upload with queue, writer := .draining left (taken + record.length) ending }))
      | [] => if upload.sending then none else some (return endDraining service upload taken ending)
    | .stalled | .ended _ | .panicked => none

end Strongroom.Upload
