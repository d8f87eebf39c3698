import Strongroom.Proofs.Blob.Shelf
import Strongroom.Proofs.Transfer.CallerMoves

/-! # Moves of the tasks in the background

What a step of the writer's task comes down to, and the one step of the task
that cleans up. With the moves of the caller these are all moves of an upload.
-/

namespace Strongroom

variable {δ : Type}

/-- How an object that is being written goes on. -/
inductive Continues : Writer → (BlobDraft → Writer) → BlobDraft → Prop where
  | storing {draft : BlobDraft} : Continues (.storing draft) .storing draft
  | cutting {left : Nat} {text : String} {draft : BlobDraft} :
    Continues (.cutting (left + 1) text draft) (.cutting left text) draft

/-- How an object that is begun goes on, by the conduct of the store. -/
inductive Opens (service : Service) (upload : Upload) :
    Service → Verb → (BlobDraft → Writer) → Prop where
  | store : upload.writer = .fresh → service.conduct.put = .store →
    Opens service upload service .put .storing
  | cut {after : Nat} {text : String} : upload.writer = .fresh →
    service.conduct.put = .cut after text →
      Opens service upload service .putCut (.cutting after text)
  /-- It is let through the gate. -/
  | pass : upload.writer = .waiting → service.conduct.mayPass upload.fileId = true →
    Opens service upload { service with conduct := service.conduct.pass } .put .storing

/-- How a store that only takes records behaves. -/
inductive Drains : PutConduct → Nat → Ending → Prop where
  | fail {after : Nat} {e : Error} : Drains (.fail after e) after (.fail e)
  | early {after : Nat} : Drains (.early after) after .early
  | stall {after : Nat} : Drains (.stall after) after .stall
  | panic {after : Nat} : Drains (.panic after) after .panic

/-- What a step of the writer's task changes. -/
inductive WriterMoves (disk : Disk δ) (s : Spot δ) : Spot δ → Prop where
  | halted :
    s.upload.writer.isOver = false → s.upload.stopped = true →
      WriterMoves disk s
        { s with
          service := { s.service with conduct := s.service.conduct.leave s.upload.fileId }
          upload := s.upload.endWriter (.error .cancelled) }
  | arrived :
    s.upload.writer = .fresh → s.upload.stopped = false → s.service.conduct.put = .gate →
      WriterMoves disk s
        { s with
          service := { s.service with conduct := s.service.conduct.arrive s.upload.fileId }
          upload := { s.upload with writer := .waiting } }
  | began {service : Service} {verb : Verb} {next : BlobDraft → Writer} {draft : BlobDraft}
      {d : δ} :
    Opens s.service s.upload service verb next → s.upload.stopped = false →
      Script.Runs disk s.disk (service.blobs.begin s.upload.blobName) (.ok draft) d →
        WriterMoves disk s ⟨service, { s.upload with writer := next draft }, d⟩
  | notBegun {service : Service} {verb : Verb} {next : BlobDraft → Writer} {e : Error} {d : δ} :
    Opens s.service s.upload service verb next → s.upload.stopped = false →
      Script.Runs disk s.disk (service.blobs.begin s.upload.blobName) (.error e) d →
        WriterMoves disk s
          ⟨service.note verb s.upload.blobName, s.upload.endWriter (.error e), d⟩
  | stored {next : BlobDraft → Writer} {draft draft' : BlobDraft} {record : Bytes}
      {queue : List Bytes} {d : δ} :
    Continues s.upload.writer next draft → s.upload.stopped = false →
      s.upload.queue = record :: queue →
        Script.Runs disk s.disk (s.service.blobs.take draft record) (.ok draft') d →
          WriterMoves disk s
            { s with upload := { s.upload with queue, writer := next draft' }, disk := d }
  /-- A record could not be stored: the object is removed. -/
  | notStored {next : BlobDraft → Writer} {draft : BlobDraft} {record : Bytes}
      {queue : List Bytes} {verb : Verb} {e : Error} {result : Except Error Unit}
      {blobs : BlobStore} {d d' : δ} :
    Continues s.upload.writer next draft → s.upload.stopped = false →
      s.upload.queue = record :: queue → verb = .put ∨ verb = .putCut →
        Script.Runs disk s.disk (s.service.blobs.take draft record) (.error e) d →
          Script.Runs disk d (s.service.blobs.remove draft.name) (result, blobs) d' →
            WriterMoves disk s
              ⟨{ s.service with blobs }.note verb s.upload.blobName,
                { s.upload with queue }.endWriter (.error e), d'⟩
  | closed {draft : BlobDraft} {result : Except Error Nat} {blobs : BlobStore} {d : δ} :
    s.upload.writer = .storing draft → s.upload.stopped = false → s.upload.queue = [] →
      s.upload.sending = false →
        Script.Runs disk s.disk (s.service.blobs.close draft) (result, blobs) d →
          WriterMoves disk s
            ⟨{ s.service with blobs }.note .put s.upload.blobName, s.upload.endWriter result, d⟩
  /-- The source breaks: the object is removed. -/
  | broke {left : Nat} {text : String} {draft : BlobDraft} {result : Except Error Unit}
      {blobs : BlobStore} {d : δ} :
    s.upload.writer = .cutting left text draft → s.upload.stopped = false →
      Script.Runs disk s.disk (s.service.blobs.remove draft.name) (result, blobs) d →
        WriterMoves disk s
          ⟨{ s.service with blobs }.note .putCut s.upload.blobName,
            s.upload.endWriter (.error (BlobStore.sourceFailed draft.name text)), d⟩
  /-- It only takes records from now on. -/
  | drains {left : Nat} {ending : Ending} :
    s.upload.writer = .fresh → s.upload.stopped = false →
      Drains s.service.conduct.put left ending →
        WriterMoves disk s { s with upload := { s.upload with writer := .draining left 0 ending } }
  | drained {left taken : Nat} {ending : Ending} {record : Bytes} {queue : List Bytes} :
    s.upload.writer = .draining (left + 1) taken ending → s.upload.stopped = false →
      s.upload.queue = record :: queue →
        WriterMoves disk s
          { s with upload := { s.upload with
            queue, writer := .draining left (taken + record.length) ending } }
  | endedDraining {left taken : Nat} {ending : Ending} {service : Service} {upload : Upload} :
    s.upload.writer = .draining left taken ending → s.upload.stopped = false →
      left = 0 ∨ s.upload.queue = [] ∧ s.upload.sending = false →
        s.upload.endDraining s.service taken ending = (service, upload) →
          WriterMoves disk s ⟨service, upload, s.disk⟩

def Writer.draft? : Writer → Option BlobDraft
  | .storing draft | .cutting _ _ draft => some draft
  | _ => none

theorem Continues.draft? {writer : Writer} {next : BlobDraft → Writer} {draft : BlobDraft}
    (continues : Continues writer next draft) :
    writer.draft? = some draft ∧ ∀ draft', (next draft').draft? = some draft' := by
  cases continues <;> exact ⟨rfl, fun _ => rfl⟩

theorem Opens.draft? {service opened : Service} {upload : Upload} {verb : Verb}
    {next : BlobDraft → Writer} (opens : Opens service upload opened verb next)
    (draft : BlobDraft) : (next draft).draft? = some draft := by
  cases opens <;> rfl

theorem Continues.isOver {writer : Writer} {next : BlobDraft → Writer} {draft : BlobDraft}
    (continues : Continues writer next draft) : writer.isOver = false := by
  cases continues <;> rfl

theorem Opens.isOver {service opened : Service} {upload : Upload} {verb : Verb}
    {next : BlobDraft → Writer} (opens : Opens service upload opened verb next) :
    upload.writer.isOver = false := by
  cases opens with
  | store fresh | cut fresh =>
      rw [fresh]
      rfl
  | pass waiting =>
      rw [waiting]
      rfl

/-- The writer's task changes the queue and itself, and goes on only while it is
    not over. -/
theorem WriterMoves.same {disk : Disk δ} {s s' : Spot δ} (moves : WriterMoves disk s s') :
    s.upload.writer.isOver = false ∧
      s'.upload = { s.upload with queue := s'.upload.queue, writer := s'.upload.writer } := by
  cases moves with
  | halted running => exact ⟨running, rfl⟩
  | began opens | notBegun opens => exact ⟨opens.isOver, rfl⟩
  | stored continues | notStored continues => exact ⟨continues.isOver, rfl⟩
  | arrived writer | closed writer | broke writer | drains writer | drained writer =>
      refine ⟨?_, rfl⟩
      rw [writer]
      rfl
  | @endedDraining left taken ending service upload writer stopped enough ended =>
      refine ⟨by rw [writer]; rfl, ?_⟩
      cases ending
      all_goals
        cases ended
        rfl

section

open Upload

variable {disk : Disk δ} {service service' : Service} {upload next : Upload} {d d' : δ}

theorem moves_of_openDraft {opened : Service} {verb : Verb} {writer : BlobDraft → Writer}
    (opens : Opens service upload opened verb writer) (running : upload.stopped = false)
    (runs : Script.Runs disk d (openDraft opened upload verb writer) (service', next) d') :
    WriterMoves disk ⟨service, upload, d⟩ ⟨service', next, d'⟩ := by
  obtain ⟨result, d₁, begun, rest⟩ := Script.runs_bind.1 runs
  cases result with
  | error e =>
      obtain ⟨⟨⟩, rfl⟩ := Script.runs_pure.1 rest
      exact .notBegun opens running begun
  | ok draft =>
      obtain ⟨⟨⟩, rfl⟩ := Script.runs_pure.1 rest
      exact .began opens running begun

theorem moves_of_firstStep (fresh : upload.writer = .fresh) (running : upload.stopped = false)
    (runs : Script.Runs disk d (firstStep service upload) (service', next) d') :
    WriterMoves disk ⟨service, upload, d⟩ ⟨service', next, d'⟩ := by
  unfold firstStep at runs
  split at runs
  case h_1 conduct => exact moves_of_openDraft (.store fresh conduct) running runs
  case h_2 conduct =>
    obtain ⟨⟨⟩, rfl⟩ := Script.runs_pure.1 runs
    exact .arrived fresh running conduct
  case h_7 after text conduct => exact moves_of_openDraft (.cut fresh conduct) running runs
  all_goals
    rename_i conduct
    obtain ⟨⟨⟩, rfl⟩ := Script.runs_pure.1 runs
    refine .drains fresh running ?_
    rw [conduct]
    constructor

theorem moves_of_storeRecord {draft : BlobDraft} {record : Bytes} {queue : List Bytes} {verb : Verb}
    {writer : BlobDraft → Writer} (continues : Continues upload.writer writer draft)
    (running : upload.stopped = false) (waits : upload.queue = record :: queue)
    (noted : verb = .put ∨ verb = .putCut)
    (runs : Script.Runs disk d (storeRecord service { upload with queue } draft record verb writer)
      (service', next) d') :
    WriterMoves disk ⟨service, upload, d⟩ ⟨service', next, d'⟩ := by
  obtain ⟨result, d₁, taken, rest⟩ := Script.runs_bind.1 runs
  cases result with
  | ok draft' =>
      obtain ⟨⟨⟩, rfl⟩ := Script.runs_pure.1 rest
      exact .stored continues running waits taken
  | error e =>
      obtain ⟨blobs, d₂, discarded, rest⟩ := Script.runs_bind.1 rest
      obtain ⟨⟨⟩, rfl⟩ := Script.runs_pure.1 rest
      obtain ⟨result, removed⟩ := BlobStore.runs_discard.1 discarded
      exact .notStored continues running waits noted taken removed

theorem moves_of_breakDraft {draft : BlobDraft} {left : Nat} {text : String}
    (cutting : upload.writer = .cutting left text draft) (running : upload.stopped = false)
    (runs : Script.Runs disk d (breakDraft service upload draft text) (service', next) d') :
    WriterMoves disk ⟨service, upload, d⟩ ⟨service', next, d'⟩ := by
  obtain ⟨blobs, d₁, discarded, rest⟩ := Script.runs_bind.1 runs
  obtain ⟨⟨⟩, rfl⟩ := Script.runs_pure.1 rest
  obtain ⟨result, removed⟩ := BlobStore.runs_discard.1 discarded
  exact .broke cutting running removed

theorem moves_of_writerStep {script : Script (Service × Upload)}
    (offered : upload.writerStep service = some script)
    (runs : Script.Runs disk d script (service', next) d') :
    WriterMoves disk ⟨service, upload, d⟩ ⟨service', next, d'⟩ := by
  unfold writerStep at offered
  split at offered
  · cases offered
  · rename_i live
    have live : upload.writer.isOver = false := by simpa using live
    split at offered
    · rename_i stopped
      obtain rfl := Option.some.inj offered
      obtain ⟨⟨⟩, rfl⟩ := Script.runs_pure.1 runs
      exact .halted live stopped
    · rename_i running
      have running : upload.stopped = false := by simpa using running
      split at offered
      case h_1 fresh =>
        obtain rfl := Option.some.inj offered
        exact moves_of_firstStep fresh running runs
      case h_2 waiting =>
        split at offered
        · rename_i passes
          obtain rfl := Option.some.inj offered
          exact moves_of_openDraft (.pass waiting passes) running runs
        · cases offered
      case h_3 draft storing =>
        split at offered
        · rename_i record queue waits
          obtain rfl := Option.some.inj offered
          exact moves_of_storeRecord (storing ▸ .storing) running waits (.inl rfl) runs
        · rename_i empty
          split at offered
          · cases offered
          · rename_i closed
            obtain rfl := Option.some.inj offered
            obtain ⟨⟨result, blobs⟩, d₁, finished, rest⟩ := Script.runs_bind.1 runs
            obtain ⟨⟨⟩, rfl⟩ := Script.runs_pure.1 rest
            exact .closed storing running empty (by simpa using closed) finished
      case h_4 text draft cutting =>
        obtain rfl := Option.some.inj offered
        exact moves_of_breakDraft cutting running runs
      case h_5 left text draft cutting =>
        split at offered
        · rename_i record queue waits
          obtain rfl := Option.some.inj offered
          exact moves_of_storeRecord (cutting ▸ .cutting) running waits (.inr rfl) runs
        · split at offered
          · cases offered
          · cases offered
            exact moves_of_breakDraft cutting running runs
      case h_6 taken ending draining =>
        obtain rfl := Option.some.inj offered
        obtain ⟨ended, rfl⟩ := Script.runs_pure.1 runs
        exact .endedDraining draining running (.inl rfl) ended.symm
      case h_7 left taken ending draining =>
        split at offered
        · rename_i record queue waits
          obtain rfl := Option.some.inj offered
          obtain ⟨⟨⟩, rfl⟩ := Script.runs_pure.1 runs
          exact .drained draining running waits
        · rename_i empty
          split at offered
          · cases offered
          · rename_i closed
            obtain rfl := Option.some.inj offered
            obtain ⟨ended, rfl⟩ := Script.runs_pure.1 runs
            exact .endedDraining draining running (.inr ⟨empty, by simpa using closed⟩) ended.symm
      all_goals cases offered

end

inductive Moves (disk : Disk δ) (s : Spot δ) : Act → Spot δ → Prop where
  | caller {act : Act} {s' : Spot δ} : CallerMoves disk s act s' → Moves disk s act s'
  | writer {s' : Spot δ} : WriterMoves disk s s' → Moves disk s .writer s'
  /-- The blob of a dropped upload is removed. -/
  | cleared {held : Bool} {result : Except Error Unit} {service : Service} {d : δ} :
    s.upload.cleanup = .pending held → (held = true → s.upload.writer.isOver = true) →
      Script.Runs disk s.disk (s.service.removeBlob s.upload.blobName) (result, service) d →
        Moves disk s .cleanup ⟨service, { s.upload with cleanup := .finished }, d⟩

/-- Every act is a move. -/
theorem moves_of_offers {disk : Disk δ} {s : Spot δ} {act : Act}
    {script : Script (Service × Upload)} {service : Service} {upload : Upload} {d : δ}
    (offers : s.upload.Offers s.service act script)
    (runs : Script.Runs disk s.disk script (service, upload) d) :
    Moves disk s act ⟨service, upload, d⟩ := by
  cases offers with
  | write mayCall =>
      obtain ⟨result, rfl⟩ := Script.runs_pure.1 runs
      exact .caller (moves_of_write (.write mayCall) result.symm)
  | commit mayCall =>
      obtain ⟨result, rfl⟩ := Script.runs_pure.1 runs
      exact .caller (moves_of_commit (.commit mayCall) result.symm)
  | abort mayCall =>
      obtain ⟨⟨⟩, rfl⟩ := Script.runs_pure.1 runs
      exact .caller (.stop (.asked mayCall))
  | feed mayCall =>
      obtain ⟨⟨⟩, rfl⟩ := Script.runs_pure.1 runs
      exact .caller (.fed mayCall)
  | giveUp =>
      obtain ⟨⟨⟩, rfl⟩ := Script.runs_pure.1 runs
      exact .caller .gaveUp
  | drop =>
      obtain ⟨⟨⟩, rfl⟩ := Script.runs_pure.1 runs
      exact .caller .dropped
  | cancel =>
      obtain ⟨⟨⟩, rfl⟩ := Script.runs_pure.1 runs
      exact .caller .cancelled
  | caller offered => exact .caller (moves_of_callerStep offered runs)
  | writer offered => exact .writer (moves_of_writerStep offered runs)
  | cleanup offered =>
      unfold Upload.cleanupStep at offered
      split at offered
      · rename_i held pending
        split at offered
        · cases offered
        · rename_i free
          obtain rfl := Option.some.inj offered
          obtain ⟨⟨result, cleared⟩, d₁, removed, rest⟩ := Script.runs_bind.1 runs
          obtain ⟨⟨⟩, rfl⟩ := Script.runs_pure.1 rest
          refine .cleared pending ?_ removed
          rintro rfl
          simpa using free
      · cases offered

end Strongroom
