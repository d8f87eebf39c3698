import Strongroom.Service.Basic

/-! # Uploads

An upload is a pipeline of two tasks. The caller's task encodes plaintext and
hands the records over through a bounded queue; the writer's task takes them
from there into the blob store. The file record is added only after the writer
has ended with success.
-/

namespace Strongroom

inductive Phase where
  /-- Waiting for plaintext. -/
  | receiving
  /-- Handing over the records of a write. -/
  | writing
  | committing
  | done
  | failed
  deriving Repr, DecidableEq

def Phase.name : Phase → String
  | .receiving => "Receiving"
  | .writing => "Writing"
  | .committing => "Committing"
  | .done => "Done"
  | .failed => "Failed"

/-- What a store that only takes records does in the end. -/
inductive Ending where
  | fail (e : Error)
  | early
  | stall
  | panic
  deriving Repr, DecidableEq

inductive Writer where
  | fresh
  /-- It waits at the gate. -/
  | waiting
  /-- It stores all records. -/
  | storing (draft : BlobDraft)
  /-- It stores `left` more records, and then its source breaks. -/
  | cutting (left : Nat) (text : String) (draft : BlobDraft)
  /-- It takes `left` more records without storing them. -/
  | draining (left taken : Nat) (ending : Ending)
  | stalled
  | ended (result : Except Error Nat)
  | panicked

namespace Writer

/-- How the task ended, if it has. A breakdown counts as a failure. -/
def result? : Writer → Option (Except Error Nat)
  | .ended result => some result
  | .panicked => some (.error (.storage "blob writer task failed"))
  | _ => none

/-- Whether the task has ended, and with it its side of the queue. -/
def isOver (writer : Writer) : Bool :=
  writer.result?.isSome

end Writer

/-- One thing that an inbound stream hands over. -/
structure Inbound where
  content : Except String Bytes
  /-- Whether the request's token fires as it is handed over. -/
  fires : Bool := false

inductive Call where
  /-- No call, or the next thing of an inbound stream is due. -/
  | idle
  /-- A write hands over its records. -/
  | handOff (records : List Bytes)
  /-- A commit hands over the last record; `size` bytes were received. -/
  | handOffFinal (record : Bytes) (size : Nat)
  | joinForSize (size : Nat)
  /-- A commit brings the new record to the catalog's file. -/
  | flushing (record : FileRecord) (rest : Script (Except Error Unit))
  /-- A commit removes the blob of a record that was refused. -/
  | withdraw (e : Error)
  /-- A call that found the queue closed waits for the writer, to learn why. -/
  | joinForCause (held : Bool)
  /-- An abort waits for the writer, if the task is still held, and removes the
      blob. -/
  | joinForAbort (held : Bool) (reason : Error)
  /-- The call is over. A commit gives the new record. -/
  | answered (result : Except Error (Option FileRecord))

/-- What is left to do for an upload that was dropped. -/
inductive Cleanup where
  | none
  /-- Wait for the writer, if the task is still held, and remove the blob. -/
  | pending (held : Bool)
  | finished
  deriving Repr, DecidableEq

structure Upload where
  owner : UserId
  fileId : FileId
  fileName : String
  blobName : String
  phase : Phase := .receiving
  encoder : Option Stream.Encoder
  /-- Whether the caller's side of the queue is open. -/
  sending : Bool := true
  /-- Records that wait for the writer, the oldest first. -/
  queue : List Bytes := []
  capacity : Nat
  writer : Writer := .fresh
  /-- Whether the writer's task is still held. -/
  held : Bool := true
  /-- Whether the writer has been told to stop. -/
  stopped : Bool := false
  /-- Whether the request's token has fired. -/
  cancelled : Bool := false
  call : Call := .idle
  /-- The stream that feeds the upload, if it is fed from one. -/
  inbound : Option (List Inbound) := .none
  cleanup : Cleanup := .none

/-- Records that a queue can have room for at all. -/
def maxQueue : Nat := 0x1FFFFFFFFFFFFFFF

namespace Upload

/-- Bytes of plaintext received so far; an upload that has given up its encoder
    counts none. -/
def received (upload : Upload) : Nat :=
  (upload.encoder.map Stream.Encoder.received).getD 0

def answer? (upload : Upload) : Option (Except Error (Option FileRecord)) :=
  match upload.call with
  | .answered result => some result
  | _ => none

/-- Start an upload. The name is checked first, then the key is resolved. -/
def start (service : Service) (owner : UserId) (fileName : String) :
    Except Halt Upload × Service :=
  match checkFileName fileName with
  | .error fault => (.error (.failed (.invalidInput fault.message)), service)
  | .ok fileName =>
    match service.keyOf owner with
    | .error e => (.error (.failed e), service)
    | .ok key =>
      match Stream.Encoder.create key service.config.blockSize with
      | .error e => (.error (.failed e), service)
      | .ok encoder =>
        let (fileId, ids) := service.ids.draw
        let (blobId, ids) := ids.draw
        let service := { service with ids }
        if maxQueue < service.config.handoffDepth then (.error .panicked, service)
        else
          (.ok {
            owner
            fileId := ⟨fileId⟩
            fileName
            blobName := blobId.toText
            encoder := some encoder
            capacity := service.config.handoffDepth }, service)

end Upload

end Strongroom
