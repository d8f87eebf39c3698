import Strongroom.Proofs.Stream.Encoding
import Strongroom.Proofs.Transfer.Account

/-! # What becomes of the plaintext

What the writer has stored, with the records that wait for it, carries the
plaintext of the writes that succeeded, but for what the encoder still holds. So
a blob is the whole stream once the last record was handed over and the writer
has ended with success.
-/

namespace Strongroom

variable {δ : Type}

/-- A writer that may still store the whole blob, or has. -/
def Writer.IsFaithful : Writer → Prop
  | .fresh | .waiting | .storing _ | .ended (.ok _) => True
  | _ => False

namespace Upload

/-- What a faithful writer has stored, with what stands under the name of the
    blob. -/
inductive Stores {disk : Disk δ} {root path : Option Path} (shelf : ConformingShelf disk root path)
    (upload : Upload) (object : Option Bytes) : Bytes → Prop where
  | nothing :
    upload.writer = .fresh ∨ upload.writer = .waiting → Stores shelf upload object []
  | draft {draft : BlobDraft} {bytes : Bytes} :
    upload.writer = .storing draft → shelf.Holds draft object bytes →
      Stores shelf upload object bytes
  | whole {bytes : Bytes} :
    upload.writer = .ended (.ok bytes.length) → object = some bytes → upload.queue = [] →
      Stores shelf upload object bytes

/-- Bytes that were handed over carry the plaintext that was written, as far as
    the call under way tells. -/
inductive Covers (upload : Upload) (key : DataKey) (sent payload chunk : Bytes) : Prop where
  | receiving {encoder : Stream.Encoder} :
    upload.phase = .receiving → upload.encoder = some encoder →
      encoder.HasSent key sent payload → Covers upload key sent payload chunk
  | writing {encoder : Stream.Encoder} {records : List Bytes} :
    upload.call = .handOff records → upload.encoder = some encoder →
      encoder.HasSent key (sent ++ records.flatten) (payload ++ chunk) →
        Covers upload key sent payload chunk
  | interrupted :
    upload.phase = .writing → upload.call = .idle → Covers upload key sent payload chunk
  | sealing {record : Bytes} :
    upload.call = .handOffFinal record payload.length → Stream.Whole key (sent ++ record) payload →
      Covers upload key sent payload chunk
  | joining :
    upload.call = .joinForSize payload.length → Stream.Whole key sent payload →
      Covers upload key sent payload chunk

/-- The plaintext of an upload that has asked for nothing is on its way. -/
def Flows {disk : Disk δ} {root path : Option Path} (shelf : ConformingShelf disk root path)
    (key : DataKey) (upload : Upload) (object : Option Bytes) (payload chunk : Bytes) : Prop :=
  upload.Unfiled → upload.writer.IsFaithful →
    ∃ bytes, upload.Stores shelf object bytes ∧
      upload.Covers key (bytes ++ upload.queue.flatten) payload chunk

section

variable {disk : Disk δ} {root path : Option Path} {shelf : ConformingShelf disk root path}
  {upload next : Upload} {key : DataKey} {object : Option Bytes} {sent payload chunk : Bytes}

theorem Covers.of_same (covers : upload.Covers key sent payload chunk)
    (phase : next.phase = upload.phase) (call : next.call = upload.call)
    (encoder : next.encoder = upload.encoder) : next.Covers key sent payload chunk := by
  cases covers with
  | receiving here present has => exact .receiving (phase.trans here) (encoder.trans present) has
  | writing here present has => exact .writing (call.trans here) (encoder.trans present) has
  | interrupted here idle => exact .interrupted (phase.trans here) (call.trans idle)
  | sealing here whole => exact .sealing (call.trans here) whole
  | joining here whole => exact .joining (call.trans here) whole

theorem Stores.of_same {bytes : Bytes} (stores : upload.Stores shelf object bytes)
    (writer : next.writer = upload.writer) (running : next.writer.isOver = false ∨
      next.queue = upload.queue) : next.Stores shelf object bytes := by
  cases stores with
  | nothing early => exact .nothing (writer ▸ early)
  | draft storing holds => exact .draft (writer.trans storing) holds
  | whole ended there nothing =>
      refine .whole (writer.trans ended) there ?_
      rcases running with running | same
      · rw [writer, ended] at running
        cases running
      · exact same.trans nothing

end

section

variable {disk : Disk δ} {root path : Option Path} {shelf : ConformingShelf disk root path}
  {s s' : Spot δ} {act : Act} {gone : Prop} {key : DataKey} {bytes payload chunk : Bytes}

/-- A step of a writer that stays faithful. -/
inductive Advances (disk : Disk δ) (s : Spot δ) : Spot δ → Prop where
  | waits {service : Service} :
    s.upload.writer = .fresh → service.blobs = s.service.blobs →
      Advances disk s ⟨service, { s.upload with writer := .waiting }, s.disk⟩
  | begins {service : Service} {draft : BlobDraft} {d : δ} :
    s.upload.writer = .fresh ∨ s.upload.writer = .waiting →
      service.blobs = s.service.blobs →
        Script.Runs disk s.disk (service.blobs.begin s.upload.blobName) (.ok draft) d →
          Advances disk s ⟨service, { s.upload with writer := .storing draft }, d⟩
  | stores {draft draft' : BlobDraft} {record : Bytes} {queue : List Bytes} {d : δ} :
    s.upload.writer = .storing draft → s.upload.queue = record :: queue →
      Script.Runs disk s.disk (s.service.blobs.take draft record) (.ok draft') d →
        Advances disk s
          { s with upload := { s.upload with queue, writer := .storing draft' }, disk := d }
  | closes {draft : BlobDraft} {size : Nat} {service : Service} {d : δ} :
    s.upload.writer = .storing draft → s.upload.queue = [] →
      Script.Runs disk s.disk (s.service.blobs.close draft) (.ok size, service.blobs) d →
        Advances disk s ⟨service, { s.upload with writer := .ended (.ok size) }, d⟩

theorem advances_of_writerMoves
    (late : ∀ left taken, s.upload.writer ≠ .draining left taken .early)
    (moves : WriterMoves disk s s') (faithful : s'.upload.writer.IsFaithful) :
    Advances disk s s' := by
  cases moves with
  | halted | notBegun | notStored | broke | drains | drained => exact faithful.elim
  | arrived fresh => exact .waits fresh rfl
  | began opens _ begun =>
      cases opens with
      | store fresh => exact .begins (.inl fresh) rfl begun
      | cut => exact faithful.elim
      | pass waiting => exact .begins (.inr waiting) rfl begun
  | stored continues _ waits taken =>
      generalize here : s.upload.writer = writer at continues
      cases continues with
      | storing => exact .stores here waits taken
      | cutting => exact faithful.elim
  | @closed _ result _ _ storing _ empty _ finished =>
      cases result with
      | ok size => exact .closes storing empty finished
      | error e => exact faithful.elim
  | @endedDraining _ _ ending _ _ draining _ _ ended =>
      cases ending with
      | early => exact absurd draining (late _ _)
      | fail | stall | panic =>
          cases ended
          exact faithful.elim

theorem Advances.faithful (advances : Advances disk s s') : s.upload.writer.IsFaithful := by
  cases advances with
  | waits here | stores here | closes here =>
      rw [here]
      trivial
  | begins early =>
      rcases early with here | here
      all_goals
        rw [here]
        trivial

/-- A writer that advances moves what it takes from the queue to the blob. -/
theorem Stores.advances
    (stores : s.upload.Stores shelf (shelf.object s.service.blobs s.disk s.upload.blobName) bytes)
    (rooted : s.service.blobs.root? = root) (named : IsBlobName s.upload.blobName)
    (owns : s.upload.OwnsDraft) (advances : Advances disk s s') :
    ∃ popped, s.upload.queue = popped ++ s'.upload.queue ∧
      s'.upload.Stores shelf
        (shelf.object s'.service.blobs s'.disk s'.upload.blobName) (bytes ++ popped.flatten) := by
  have empty (early : s.upload.writer = .fresh ∨ s.upload.writer = .waiting) : bytes = [] := by
    cases stores with
    | nothing => rfl
    | draft here | whole here =>
        rw [here] at early
        simp at early
  have drawn {draft : BlobDraft} (storing : s.upload.writer = .storing draft) :
      draft.IsOf s.upload.blobName ∧
        shelf.Holds draft (shelf.object s.service.blobs s.disk s.upload.blobName) bytes := by
    refine ⟨owns draft (by rw [storing]; rfl), ?_⟩
    cases stores with
    | nothing early =>
        rw [storing] at early
        simp at early
    | draft here holds =>
        cases storing.symm.trans here
        exact holds
    | whole here => cases storing.symm.trans here
  cases advances with
  | waits fresh =>
      obtain rfl := empty (.inl fresh)
      exact ⟨[], rfl, .nothing (.inr rfl)⟩
  | begins early same begun =>
      obtain rfl := empty early
      exact ⟨[], rfl, .draft rfl (shelf.begun (same ▸ rooted) named begun)⟩
  | @stores _ _ record queue _ storing waits taken =>
      obtain ⟨own, holds⟩ := drawn storing
      refine ⟨[record], waits, .draft rfl ?_⟩
      rw [List.flatten_singleton]
      exact shelf.taken rooted named own holds taken
  | closes storing nothing finished =>
      obtain ⟨own, holds⟩ := drawn storing
      obtain ⟨there, rfl⟩ := shelf.closed rooted named own holds finished
      refine ⟨[], rfl, ?_⟩
      rw [List.flatten_nil, List.append_nil]
      exact .whole rfl there nothing

theorem Covers.of_receiving {upload : Upload} {sent : Bytes}
    (covers : upload.Covers key sent payload chunk) (stands : upload.Stands gone)
    (phase : upload.phase = .receiving) :
    ∃ encoder, upload.encoder = some encoder ∧ encoder.HasSent key sent payload := by
  have midway := stands.midway
  cases covers with
  | receiving _ present has => exact ⟨_, present, has⟩
  | writing call | sealing call =>
      rw [call] at midway
      cases midway.2.symm.trans phase
  | interrupted here => cases here.symm.trans phase
  | joining call =>
      rw [call] at midway
      cases midway.1.symm.trans phase

section

variable {upload entered : Upload} {asked : Option Bytes}

theorem Enters.encoder (enters : upload.Enters act asked entered) :
    entered.encoder = upload.encoder := by
  rw [enters.same]

theorem Enters.queue (enters : upload.Enters act asked entered) :
    entered.queue = upload.queue := by
  rw [enters.same]

theorem payloadAfter_wrote (call : upload.call = .handOff []) :
    upload.payloadAfter .caller chunk payload = payload ++ chunk := by
  simp only [Upload.payloadAfter, call]

theorem payloadAfter_of_call (call : upload.call ≠ .handOff []) :
    upload.payloadAfter act chunk payload = payload := by
  unfold Upload.payloadAfter
  split
  · rename_i here
    exact absurd here call
  · rfl

theorem chunkAfter_of_call (call : upload.call ≠ .idle) :
    upload.chunkAfter .caller chunk = chunk := by
  unfold Upload.chunkAfter
  dsimp only
  split
  · rename_i here _
    exact absurd here call
  · rfl

theorem Enters.payloadAfter (enters : upload.Enters act asked entered) :
    upload.payloadAfter act chunk payload = payload := by
  cases enters with
  | write | commit => rfl
  | item idle | finish idle => exact payloadAfter_of_call (by simp [idle])

theorem Enters.chunkAfter {data : Bytes} (enters : upload.Enters act (some data) entered) :
    upload.chunkAfter act chunk = data := by
  cases enters with
  | write => rfl
  | item idle inbound => simp only [Upload.chunkAfter, idle, inbound]

end

theorem Covers.callerMoves {sent : Bytes} (stands : s.upload.Stands gone)
    (handle : act.takesHandle = true → ¬ gone) (behaves : s.upload.Behaves act)
    (moves : CallerMoves disk s act s') (unfiled : s'.upload.Unfiled)
    (covers : s.upload.Covers key (sent ++ s.upload.queue.flatten) payload chunk) :
    s'.upload.Covers key (sent ++ s'.upload.queue.flatten)
      (s.upload.payloadAfter act chunk payload) (s.upload.chunkAfter act chunk) := by
  have midway := stands.midway
  -- After the moves up to `dropped` the upload has asked for its record or never will.
  cases moves with
  | stop =>
      refine absurd unfiled (not_unfiled (fun streams _ => ?_) (by simp [abort]) (by simp [abort]))
      cases streams.sending
  | deny enters notReceiving notWriting =>
      refine absurd unfiled (not_unfiled (fun _ phase => ?_) (by simp [answer]) (by simp [answer]))
      exact phase.elim notReceiving notWriting
  | hungUp =>
      refine absurd unfiled (not_unfiled (fun streams _ => ?_) (by simp) (by simp))
      cases streams.sending
  | refused call | staged call | flushed call | unstaged call =>
      rw [call] at midway
      exact absurd unfiled (not_unfiled (by simp [midway.1]) (by simp) (by simp))
  | filed | removed =>
      exact absurd unfiled (not_unfiled (by simp) (by simp) (by simp))
  | dropped =>
      refine absurd unfiled (not_unfiled (fun streams _ => ?_) (by simp) (by simp))
      cases drop_held.symm.trans streams.held
  | fed mayCall =>
      have ready := mayCall.1
      cases covers with
      | receiving phase present has => exact .receiving phase present has
      | interrupted phase => exact .interrupted phase rfl
      | writing call | sealing call | joining call =>
          rw [IsReady, call] at ready
          exact ready.elim
  | opened enters phase _ present wrote =>
      rw [enters.phase] at phase
      obtain ⟨encoder, here, has⟩ := covers.of_receiving stands phase
      rw [enters.encoder, here] at present
      cases present
      rw [enters.payloadAfter, enters.chunkAfter, enters.queue]
      exact .writing rfl rfl (has.write wrote)
  | sealed enters phase _ present finished =>
      rw [enters.phase] at phase
      obtain ⟨encoder, here, has⟩ := covers.of_receiving stands phase
      rw [enters.encoder, here] at present
      cases present
      rw [enters.payloadAfter, enters.queue, has.count]
      exact .sealing rfl (has.finish finished)
  | wrote call =>
      rw [payloadAfter_wrote call]
      cases covers with
      | writing here present has =>
          cases call.symm.trans here
          exact .receiving rfl present (by simpa using has)
      | receiving phase =>
          rw [call] at midway
          cases midway.2.symm.trans phase
      | interrupted _ here | sealing here | joining here => cases call.symm.trans here
  | @handed record rest call =>
      rw [payloadAfter_of_call (by simp [call]), chunkAfter_of_call (by simp [call])]
      cases covers with
      | writing here present has =>
          cases call.symm.trans here
          exact .writing rfl present (by simpa using has)
      | receiving phase =>
          rw [call] at midway
          cases midway.2.symm.trans phase
      | interrupted _ here | sealing here | joining here => cases call.symm.trans here
  | @handedFinal record size call =>
      rw [payloadAfter_of_call (by simp [call]), chunkAfter_of_call (by simp [call])]
      cases covers with
      | sealing here whole =>
          cases call.symm.trans here
          exact .joining rfl (by simpa using whole)
      | receiving phase =>
          rw [call] at midway
          cases midway.2.symm.trans phase
      | interrupted _ here | writing here | joining here => cases call.symm.trans here
  | gaveUp =>
      obtain ⟨record, rest, call⟩ := behaves
      rw [call] at midway
      exact .interrupted midway.2 rfl
  | cancelled => exact covers.of_same rfl rfl rfl

/-- The caller adds to the queue only while there is room and the writer runs. -/
theorem queue_callerMoves (moves : CallerMoves disk s act s') :
    s'.upload.queue = s.upload.queue ∨
      ∃ record, s'.upload.queue = s.upload.queue ++ [record] ∧
        s.upload.queue.length < s.upload.capacity ∧ s'.upload.writer.isOver = false := by
  cases moves with
  | stop stops =>
      rw [stops.same]
      exact .inl rfl
  | deny enters | opened enters | sealed enters =>
      rw [enters.same]
      exact .inl rfl
  | handed _ _ _ running room | handedFinal _ _ _ running room =>
      exact .inr ⟨_, rfl, room, running⟩
  | dropped => exact .inl drop_queue
  | _ => exact .inl rfl

theorem blobs_callerMoves (stands : s.upload.Stands gone) (moves : CallerMoves disk s act s')
    (unfiled : s'.upload.Unfiled) :
    s'.service.blobs = s.service.blobs ∧ s'.disk = s.disk := by
  cases moves with
  | removed =>
      exact absurd unfiled (not_unfiled (by simp) (by simp) (by simp))
  | flushed call =>
      have midway := stands.midway
      rw [call] at midway
      exact absurd unfiled (not_unfiled (by simp [midway.1]) (by simp) (by simp))
  | _ => exact ⟨rfl, rfl⟩

/-- A move keeps the plaintext on its way. -/
theorem Flows.moves (stands : s.upload.Stands gone) (handle : act.takesHandle = true → ¬ gone)
    (behaves : s.upload.Behaves act) (rooted : s.service.blobs.root? = root)
    (named : IsBlobName s.upload.blobName) (owns : s.upload.OwnsDraft)
    (late : ∀ left taken, s.upload.writer ≠ .draining left taken .early)
    (flows : s.upload.Flows shelf key
      (shelf.object s.service.blobs s.disk s.upload.blobName) payload chunk)
    (moves : Moves disk s act s') :
    s'.upload.Flows shelf key (shelf.object s'.service.blobs s'.disk s'.upload.blobName)
      (s.upload.payloadAfter act chunk payload) (s.upload.chunkAfter act chunk) := by
  intro unfiled faithful
  obtain ⟨before, _⟩ := stands.unfiled_moves handle behaves moves unfiled
  have name := (Footprint.of_moves owns moves).file.blobName
  cases moves with
  | cleared pending =>
      obtain ⟨_, _, _, call, _⟩ := stands.pending pending
      refine absurd unfiled (not_unfiled (fun streams _ => ?_) (by simp [call]) (by simp [call]))
      cases streams.cleanup
  | writer moves =>
      have advances := advances_of_writerMoves late moves faithful
      obtain ⟨bytes, stores, covers⟩ := flows before advances.faithful
      obtain ⟨popped, split, stores⟩ := stores.advances rooted named owns advances
      refine ⟨_, stores, ?_⟩
      rw [List.append_assoc, ← List.flatten_append, ← split, moves.same.2]
      exact covers.of_same rfl rfl rfl
  | caller moves =>
      rw [moves.writer] at faithful
      obtain ⟨bytes, stores, covers⟩ := flows before faithful
      refine ⟨bytes, ?_, covers.callerMoves stands handle behaves moves unfiled⟩
      obtain ⟨blobs, disk⟩ := blobs_callerMoves stands moves unfiled
      rw [name, blobs, disk]
      refine stores.of_same moves.writer ?_
      exact (queue_callerMoves moves).elim .inr fun ⟨_, _, _, running⟩ => .inl running

/-- Where the store claims no early success, no writer is about to. -/
theorem late_moves (conforms : ∀ after, s.service.conduct.put ≠ .early after)
    (late : ∀ left taken, s.upload.writer ≠ .draining left taken .early)
    (moves : Moves disk s act s') :
    ∀ left taken, s'.upload.writer ≠ .draining left taken .early := by
  intro left taken
  cases moves with
  | caller moves =>
      rw [moves.writer]
      exact late left taken
  | cleared => exact late left taken
  | writer moves =>
      cases moves with
      | halted | arrived | notBegun | notStored | closed | broke => simp [endWriter]
      | began opens => cases opens <;> simp
      | stored continues =>
          generalize s.upload.writer = writer at continues
          cases continues <;> simp
      | drains _ _ drains =>
          intro same
          cases same
          generalize here : s.service.conduct.put = put at drains
          cases drains
          exact conforms _ here
      | drained draining =>
          intro same
          cases same
          exact late _ _ draining
      | @endedDraining _ _ ending _ _ _ _ _ ended =>
          cases ending
          all_goals
            cases ended
            simp [endWriter]

theorem drained_moves (late : ∀ left taken, s.upload.writer ≠ .draining left taken .early)
    (drained : ∀ size, s.upload.writer = .ended (.ok size) → s.upload.queue = [])
    (moves : Moves disk s act s') :
    ∀ size, s'.upload.writer = .ended (.ok size) → s'.upload.queue = [] := by
  intro size ended
  cases moves with
  | caller moves =>
      rcases queue_callerMoves moves with same | ⟨_, _, _, running⟩
      · rw [moves.writer] at ended
        rw [same]
        exact drained size ended
      · rw [ended] at running
        cases running
  | cleared => exact drained size ended
  | writer moves =>
      cases advances_of_writerMoves late moves (by rw [ended]; trivial) with
      | waits | begins | stores => cases ended
      | closes _ empty => exact empty

/-- Where the writer has ended with success, all that it has taken is in the blob. -/
theorem Stores.of_ended {object : Option Bytes} {upload : Upload} {size : Nat}
    (stores : upload.Stores shelf object bytes) (ended : upload.writer = .ended (.ok size)) :
    object = some bytes ∧ bytes.length = size ∧ upload.queue = [] := by
  cases stores with
  | nothing early =>
      rw [ended] at early
      simp at early
  | draft storing => cases ended.symm.trans storing
  | whole here there empty =>
      cases ended.symm.trans here
      exact ⟨there, rfl, empty⟩

/-- When the catalog is asked, the blob is the whole stream. -/
theorem Flows.whole {object : Option Bytes} {upload : Upload} {size blobSize : Nat}
    (flows : upload.Flows shelf key object payload chunk) (stands : upload.Stands gone)
    (joins : upload.call = .joinForSize size)
    (stored : upload.writer.result? = some (.ok blobSize)) :
    ∃ data, object = some data ∧ data.length = blobSize ∧ Stream.Whole key data payload ∧
      payload.length = size := by
  have midway := stands.midway
  rw [joins] at midway
  have ended := ended_of_result stored
  obtain ⟨bytes, stores, covers⟩ := flows (.inr (.inr ⟨size, joins⟩)) (by rw [ended]; trivial)
  obtain ⟨there, length, empty⟩ := stores.of_ended ended
  refine ⟨bytes, there, length, ?_⟩
  cases covers with
  | joining here whole =>
      cases joins.symm.trans here
      refine ⟨?_, rfl⟩
      rw [empty] at whole
      simpa using whole
  | receiving phase => cases midway.1.symm.trans phase
  | writing here | interrupted _ here | sealing here => cases joins.symm.trans here

end

end Upload

end Strongroom
