import Strongroom.Proofs.Disk.Runs
import Strongroom.Service.Transfers

/-! # What can happen to an upload

An upload is called through its handle, its token fires, its handle is dropped,
and its three tasks go on in small steps. Each of these is an act. An act ends
in one of a few moves, and a move says all that it changes.
-/

namespace Strongroom

variable {δ : Type}

/-- What can happen to an upload. -/
inductive Act where
  | write (data : Bytes)
  | commit
  | abort (reason : Error)
  /-- A stream is given to the upload, which is then fed from it. -/
  | feed (items : List Inbound)
  /-- The call is given up half way. -/
  | giveUp
  /-- The handle is dropped, inside the runtime or outside. -/
  | drop (inside : Bool)
  /-- The token fires. -/
  | cancel
  /-- One step of the caller's task. -/
  | caller
  /-- One step of the writer's task. -/
  | writer
  /-- One step of the task that cleans up. -/
  | cleanup

def Act.takesHandle : Act → Bool
  | .write _ | .commit | .abort _ | .feed _ | .giveUp | .drop _ => true
  | .cancel | .caller | .writer | .cleanup => false

namespace Upload

/-- No call is under way. -/
def IsReady (upload : Upload) : Prop :=
  match upload.call with
  | .idle => upload.inbound = none
  | .answered _ => True
  | _ => False

/-- A call may begin. A commit that succeeds uses the handle up. -/
def MayCall (upload : Upload) : Prop :=
  upload.IsReady ∧ upload.phase ≠ .done

/-- Calls run to their end, but for a write that may be given up while a record
    of it waits. The handle is dropped between two calls. -/
def Behaves (upload : Upload) : Act → Prop
  | .giveUp => ∃ record rest, upload.call = .handOff (record :: rest)
  | .drop _ => upload.IsReady
  | _ => True

section

variable {upload : Upload} {inside : Bool}

@[simp] theorem drop_phase : (upload.drop inside).phase = upload.phase := by
  unfold drop
  split <;> rfl

@[simp] theorem drop_call : (upload.drop inside).call = .idle := by
  unfold drop
  split <;> rfl

@[simp] theorem drop_inbound : (upload.drop inside).inbound = none := by
  unfold drop
  split <;> rfl

@[simp] theorem drop_held : (upload.drop inside).held = false := by
  unfold drop
  split <;> rfl

@[simp] theorem drop_writer : (upload.drop inside).writer = upload.writer := by
  unfold drop
  split <;> rfl

@[simp] theorem drop_queue : (upload.drop inside).queue = upload.queue := by
  unfold drop
  split <;> rfl

theorem drop_cleanup (upload : Upload) (inside : Bool) :
    ((upload.phase = .done ∨ upload.phase = .failed) ∧
        (upload.drop inside).cleanup = upload.cleanup) ∨
      (upload.drop inside).cleanup = if inside then .pending upload.held else .none := by
  unfold drop
  split
  · rename_i done
    exact .inl ⟨.inl done, rfl⟩
  · rename_i failed
    exact .inl ⟨.inr failed, rfl⟩
  · exact .inr rfl

end

/-- The script of an act, if it can happen. -/
inductive Offers (service : Service) (upload : Upload) :
    Act → Script (Service × Upload) → Prop where
  | write {data : Bytes} :
    upload.MayCall → Offers service upload (.write data) (pure (upload.write service data))
  | commit : upload.MayCall → Offers service upload .commit (pure (upload.commit service))
  | abort {reason : Error} :
    upload.MayCall → Offers service upload (.abort reason) (pure (service, upload.abort reason))
  | feed {items : List Inbound} :
    upload.MayCall →
      Offers service upload (.feed items)
        (pure (service, { upload with call := .idle, inbound := some items }))
  | giveUp : Offers service upload .giveUp (pure (service, upload.giveUp))
  | drop {inside : Bool} :
    Offers service upload (.drop inside) (pure (service, upload.drop inside))
  | cancel :
    Offers service upload .cancel (pure (service, { upload with cancelled := true }))
  | caller {script : Script (Service × Upload)} :
    upload.callerStep service = some script → Offers service upload .caller script
  | writer {script : Script (Service × Upload)} :
    upload.writerStep service = some script → Offers service upload .writer script
  | cleanup {script : Script (Service × Upload)} :
    upload.cleanupStep service = some script → Offers service upload .cleanup script

/-- A write of some data, or a commit, is entered with an upload: from outside
    with the one there is, and from a stream with what it handed over. -/
inductive Enters (upload : Upload) : Act → Option Bytes → Upload → Prop where
  | write {data : Bytes} : upload.MayCall → Enters upload (.write data) (some data) upload
  | commit : upload.MayCall → Enters upload .commit none upload
  | item {data : Bytes} {fires : Bool} {rest : List Inbound} :
    upload.call = .idle → upload.inbound = some (⟨.ok data, fires⟩ :: rest) →
      upload.cancelled = false →
        Enters upload .caller (some data)
          { upload with inbound := some rest, cancelled := upload.cancelled || fires }
  | finish :
    upload.call = .idle → upload.inbound = some [] → upload.cancelled = false →
      Enters upload .caller none { upload with inbound := none }

/-- Why an upload is aborted, and how it looks just before. -/
inductive Stops (upload : Upload) : Act → Upload → Error → Prop where
  | asked {reason : Error} : upload.MayCall → Stops upload (.abort reason) upload reason
  /-- The token has fired before a call. -/
  | fired {act : Act} {asked : Option Bytes} {entered : Upload} :
    upload.Enters act asked entered → entered.phase = .receiving ∨ entered.phase = .writing →
      entered.cancelled = true → Stops upload act entered .cancelled
  | interrupted {act : Act} {asked : Option Bytes} {entered : Upload} :
    upload.Enters act asked entered → entered.phase = .writing → entered.cancelled = false →
      Stops upload act entered interruptedError
  /-- The encoder is gone, or fails. -/
  | unsealed {act : Act} {asked : Option Bytes} {entered : Upload}
      {encoder : Option Stream.Encoder} {reason : Error} :
    upload.Enters act asked entered → entered.phase = .receiving →
      entered.cancelled = false →
        Stops upload act
          { entered with phase := if asked.isSome then .writing else .committing, encoder }
          reason
  /-- The token has fired before the stream hands anything over. -/
  | unfed {items : List Inbound} :
    upload.call = .idle → upload.inbound = some items → upload.cancelled = true →
      Stops upload .caller { upload with inbound := none } .cancelled
  /-- The stream hands over a failure. -/
  | broken {text : String} {fires : Bool} {rest : List Inbound} :
    upload.call = .idle → upload.inbound = some (⟨.error text, fires⟩ :: rest) →
      upload.cancelled = false →
        Stops upload .caller
          { upload with inbound := some rest, cancelled := upload.cancelled || fires } (.io text)
  /-- The queue is closed while records wait for it. -/
  | unsent :
    (∃ records, upload.call = .handOff records) ∨
        (∃ record size, upload.call = .handOffFinal record size) →
      upload.sending = false → Stops upload .caller upload (.invalidInput "upload is closed")
  /-- The token fires while records wait for the queue. -/
  | overtaken :
    (∃ records, upload.call = .handOff records) ∨
        (∃ record size, upload.call = .handOffFinal record size) →
      upload.cancelled = true → Stops upload .caller upload .cancelled
  /-- The writer has failed. -/
  | failed {size : Nat} {e : Error} :
    upload.call = .joinForSize size → upload.writer.result? = some (.error e) →
      Stops upload .caller upload e
  /-- The reason for a closed queue is known. -/
  | learned {held : Bool} {result : Except Error Nat} :
    upload.call = .joinForCause held → upload.joined held = some result →
      Stops upload .caller upload
        (match result with
          | .ok _ => .storage "blob writer exited early"
          | .error e => e)

/-- The removal of the blob is due, and then an answer with an error. -/
def Clears (upload : Upload) (e : Error) : Prop :=
  upload.call = .withdraw e ∨
    ∃ held, upload.call = .joinForAbort held e ∧ (held = true → upload.writer.isOver = true)

/-- The record that goes to the catalog, with the age that the catalog gives. -/
def filedRecord (service : Service) (upload : Upload) (size blobSize : Nat) : FileRecord :=
  { upload.recordOf service size blobSize with
    createdAt := service.conduct.stamp.getD service.clock }

/-- A record that an upload brings to the catalog, once its writer has ended with
    success. -/
def Files (service : Service) (upload : Upload) (record : FileRecord) : Prop :=
  ∃ size blobSize, upload.call = .joinForSize size ∧
    upload.writer.result? = some (.ok blobSize) ∧
      record = upload.filedRecord service size blobSize

namespace Files

variable {service : Service} {upload : Upload} {record : FileRecord}

theorem id (files : upload.Files service record) : record.id = upload.fileId := by
  obtain ⟨size, blobSize, _, _, rfl⟩ := files
  rfl

theorem blobName (files : upload.Files service record) : record.blobName = upload.blobName := by
  obtain ⟨size, blobSize, _, _, rfl⟩ := files
  rfl

end Files

end Upload

/-- An upload with what it shares with the others. -/
structure Spot (δ : Type) where
  service : Service
  upload : Upload
  disk : δ

end Strongroom
