import Strongroom.Proofs.Transfer.Ledger
import Strongroom.Proofs.Transfer.Lifecycle

/-! # The pipeline and the encoder alone

Two tasks with a queue between them do what an encoder does alone. At every
moment the records that were taken, those that wait in the queue and those that
are still to be handed over are what an encoder makes of the same plaintext,
however that is cut, if it draws the same random bytes. What was taken is in the
store, so a commit that succeeds leaves the very stream of the encoder.
-/

namespace Strongroom

variable {δ : Type}

namespace Stream

/-- What an encoder alone makes of some pieces of plaintext: the records of the
    full blocks, and the last one with them once it is told to finish. -/
inductive EncodesTo (key : DataKey) (size : Nat) (pieces : List Bytes) (random : Entropy) :
    Bool → List Bytes → Prop where
  | soFar {encoder next : Encoder} {records : List Bytes} {random' : Entropy} :
    Encoder.create key size = .ok encoder →
      encoder.writes pieces random = (.ok records, next, random') →
        EncodesTo key size pieces random false records
  | whole {encoder next : Encoder} {records : List Bytes} {last : Bytes}
      {random' random'' : Entropy} :
    Encoder.create key size = .ok encoder →
      encoder.writes pieces random = (.ok records, next, random') →
        next.finish random' = (.ok last, random'') →
          EncodesTo key size pieces random true (records ++ [last])

end Stream

namespace Passage

/-- An encoder alone makes the records that were made, however the plaintext is
    cut, from any source that gives the bytes that were drawn. -/
def IsEncoderOutput (passage : Passage) (key : DataKey) (size : Nat) (plaintext : Bytes)
    (whole : Bool) : Prop :=
  ∀ (pieces : List Bytes) (random : Entropy), pieces.flatten = plaintext →
    random.peek passage.drawn.length = passage.drawn →
      Stream.EncodesTo key size pieces random whole passage.made

section

variable {passage : Passage} {key : DataKey} {size : Nat} {plaintext : Bytes}
  (pos : 0 < size) (le : size ≤ Block.maxSize)

include pos le

theorem isEncoderOutput_of_hasMade {encoder : Stream.Encoder}
    (has : encoder.HasMade key size passage.drawn passage.made plaintext) :
    passage.IsEncoderOutput key size plaintext false := by
  rintro pieces random rfl same
  obtain ⟨alone, _, records, _, random', _, created, wrote, _⟩ :=
    Stream.Encoder.encode_eq_layout key pos le pieces random
  obtain ⟨_, alike⟩ := (Stream.Encoder.HasMade.of_create created).writes wrote
  simp only [List.nil_append] at alike
  have count : random'.used - random.used = passage.drawn.length := by
    have length := alike.drew
    rw [← has.drew, Entropy.drawn, Entropy.length_peek] at length
    exact length
  have made := alike.made
  rw [Entropy.drawn, count, same, ← has.made] at made
  exact made ▸ .soFar created wrote

theorem IsWhole.isEncoderOutput (whole : passage.IsWhole key size plaintext) :
    passage.IsEncoderOutput key size plaintext true := by
  rintro pieces random rfl same
  obtain ⟨_, _, records, last, _, random'', created, wrote, finished, _, made, length⟩ :=
    Stream.Encoder.encode_eq_layout key pos le pieces random
  have count : random''.used - random.used = passage.drawn.length := by
    rw [← whole.drew, Entropy.drawn, Entropy.length_peek] at length
    exact length
  rw [Entropy.drawn, count, same, ← whole.made] at made
  exact made ▸ .whole created wrote finished

end

end Passage

namespace Upload

/-- The plaintext that an upload was given so far. A write that is under way
    counts as well. -/
def given (upload : Upload) (payload chunk : Bytes) : Bytes :=
  match upload.call with
  | .handOff _ => payload ++ chunk
  | _ => payload

/-- What a faithful writer has taken is in the store, until the record has come
    to the catalog. -/
def Retains {disk : Disk δ} {root path : Option Path} (shelf : ConformingShelf disk root path)
    (upload : Upload) (object : Option Bytes) (taken : List Bytes) : Prop :=
  upload.Unfiled ∨ (∃ record rest, upload.call = .flushing record rest) →
    upload.writer.IsFaithful → upload.Stores shelf object taken.flatten

/-- An upload stands between an encoder and the store like a queue: nothing is
    lost, doubled or put in another order. -/
structure Pipes {disk : Disk δ} {root path : Option Path} (shelf : ConformingShelf disk root path)
    (upload : Upload) (key : DataKey) (config : TransferConfig) (passage : Passage)
    (payload chunk : Bytes) (object : Option Bytes) : Prop where
  room : upload.queue.length ≤ config.handoffDepth
  /-- What is not sent yet will be, unless the upload has given up. -/
  order : ∃ plaintext unsent whole, passage.taken ++ upload.queue ++ unsent = passage.made ∧
    passage.IsEncoderOutput key config.blockSize plaintext whole ∧
      (¬ upload.GivesUp → unsent = upload.waiting ∧ plaintext = upload.given payload chunk ∧
        (whole = true ↔ upload.phase ≠ .receiving ∧ upload.phase ≠ .writing))
  retains : upload.Retains shelf object passage.taken

section

variable {upload : Upload} {gone : Prop} {key : DataKey} {size : Nat} {passage : Passage}
  {payload chunk : Bytes}

theorem Stands.calm (stands : upload.Stands gone) (writing : upload.phase ≠ .writing)
    (committing : upload.phase ≠ .committing) (payload chunk : Bytes) :
    upload.waiting = [] ∧ upload.given payload chunk = payload := by
  have midway := stands.midway
  unfold waiting given
  split
  · rename_i call
    rw [call] at midway
    exact absurd midway.2 writing
  · rename_i call
    rw [call] at midway
    exact absurd midway.2 committing
  · rename_i noWrite _
    refine ⟨rfl, ?_⟩
    split
    · rename_i call
      exact absurd call (noWrite _)
    · rfl

/-- The encoder is in the middle of its work while an upload is open, and has made
    its last record once a commit has begun. -/
theorem Makes.order (makes : upload.Makes key size passage payload chunk)
    (stands : upload.Stands gone) (pos : 0 < size) (le : size ≤ Block.maxSize) :
    ∃ plaintext unsent whole, passage.taken ++ upload.queue ++ unsent = passage.made ∧
      passage.IsEncoderOutput key size plaintext whole ∧
        (¬ upload.GivesUp → unsent = upload.waiting ∧ plaintext = upload.given payload chunk ∧
          (whole = true ↔ upload.phase ≠ .receiving ∧ upload.phase ≠ .writing)) := by
  have midway := stands.midway
  cases makes with
  | receiving phase _ has same =>
      obtain ⟨waiting, given⟩ :=
        stands.calm (by simp [phase]) (by simp [phase]) payload chunk
      exact ⟨_, [], false, by rw [List.append_nil, same],
        Passage.isEncoderOutput_of_hasMade pos le has,
        fun _ => ⟨waiting.symm, given.symm, by simp [phase]⟩⟩
  | writing call _ has same =>
      rw [call] at midway
      exact ⟨_, _, false, same, Passage.isEncoderOutput_of_hasMade pos le has, fun _ =>
        ⟨by rw [waiting, call], by rw [given, call], by simp [midway.2]⟩⟩
  | sealing call whole same =>
      rw [call] at midway
      exact ⟨_, _, true, same, whole.isEncoderOutput pos le, fun _ =>
        ⟨by rw [waiting, call], by rw [given, call], by simp [midway.2]⟩⟩
  | joining call whole same | filing call _ whole same =>
      rw [call] at midway
      exact ⟨_, [], true, by rw [List.append_nil, same], whole.isEncoderOutput pos le, fun _ =>
        ⟨by rw [waiting, call], by rw [given, call], by simp [midway.1]⟩⟩
  | filed done _ whole same =>
      obtain ⟨waiting, given⟩ := stands.calm (by simp [done]) (by simp [done]) payload chunk
      exact ⟨_, [], true, by rw [List.append_nil, same], whole.isEncoderOutput pos le,
        fun _ => ⟨waiting.symm, given.symm, by simp [done]⟩⟩
  | givenUp gives encodes same =>
      rcases encodes with ⟨_, has⟩ | whole
      · exact ⟨_, _, false, same, Passage.isEncoderOutput_of_hasMade pos le has,
          fun kept => absurd gives kept⟩
      · exact ⟨_, _, true, same, whole.isEncoderOutput pos le, fun kept => absurd gives kept⟩

end

section

variable {disk : Disk δ} {root path : Option Path} {shelf : ConformingShelf disk root path}
  {s s' : Spot δ} {act : Act} {gone gone' : Prop} {passage : Passage}

theorem Stands.busy_moves (stands : s.upload.Stands gone) (stands' : s'.upload.Stands gone')
    (handle : act.takesHandle = true → ¬ gone) (behaves : s.upload.Behaves act)
    (moves : Moves disk s act s')
    (busy : s'.upload.Unfiled ∨ ∃ record rest, s'.upload.call = .flushing record rest) :
    s.upload.Unfiled ∨ ∃ record rest, s.upload.call = .flushing record rest := by
  rcases busy with unfiled | ⟨record, rest, call⟩
  · exact .inl (stands.unfiled_moves handle behaves moves unfiled).1
  · rcases stands.inCatalog_of_moves handle moves (.inr ⟨_, _, call⟩) with
      ⟨done | flushing, _⟩ | ⟨unfiled, _⟩
    · have midway := stands'.midway
      rw [call] at midway
      cases midway.1.symm.trans (stands.done_moves handle moves done)
    · exact .inr flushing
    · exact .inl unfiled

/-- What is taken in a move arrives in the store. -/
theorem Retains.moves
    (retains : s.upload.Retains shelf
      (shelf.object s.service.blobs s.disk s.upload.blobName) passage.taken)
    (stands : s.upload.Stands gone) (stands' : s'.upload.Stands gone')
    (handle : act.takesHandle = true → ¬ gone) (behaves : s.upload.Behaves act)
    (rooted : s.service.blobs.root? = root) (named : IsBlobName s.upload.blobName)
    (owns : s.upload.OwnsDraft) (late : ∀ left taken, s.upload.writer ≠ .draining left taken .early)
    (shown : s'.upload.InCatalog → shelf.object s'.service.blobs s'.disk s.upload.blobName =
      shelf.object s.service.blobs s.disk s.upload.blobName)
    (moves : Moves disk s act s') :
    s'.upload.Retains shelf (shelf.object s'.service.blobs s'.disk s'.upload.blobName)
      (passage.after s.service s'.service s.upload s'.upload).taken := by
  intro busy faithful
  have earlier := stands.busy_moves stands' handle behaves moves busy
  have name := (Footprint.of_moves owns moves).file.blobName
  cases moves with
  | cleared pending =>
      obtain ⟨_, _, _, call, _, stopped, _⟩ := stands.pending pending
      rcases earlier with unfiled | ⟨_, _, flushing⟩
      · refine absurd unfiled (not_unfiled (fun streams _ => ?_) (by simp [call]) (by simp [call]))
        cases streams.running.symm.trans stopped
      · cases call.symm.trans flushing
  | writer moves =>
      have advances := advances_of_writerMoves late moves faithful
      obtain ⟨popped, split, stores⟩ :=
        (retains earlier advances.faithful).advances rooted named owns advances
      have calm : s'.upload.handsOver = true → s.upload.handsOver = true := by
        rw [moves.same.2]
        exact id
      rw [Passage.after_popped calm split, List.flatten_append]
      exact stores
  | caller moves =>
      rw [moves.writer] at faithful
      have object : shelf.object s'.service.blobs s'.disk s.upload.blobName =
          shelf.object s.service.blobs s.disk s.upload.blobName := by
        rcases busy with unfiled | flushing
        · obtain ⟨blobs, disk⟩ := blobs_callerMoves stands moves unfiled
          rw [blobs, disk]
        · exact shown (.inr flushing)
      rw [taken_callerMoves moves, name, object]
      exact (retains earlier faithful).of_same moves.writer
        ((queue_callerMoves moves).elim .inr fun ⟨_, _, _, running⟩ => .inl running)

theorem returns_moves {record : FileRecord} (moves : Moves disk s .caller s')
    (answered : s'.upload.answer? = some (.ok (some record))) :
    s.upload.call = .flushing record (.done (.ok ())) ∧ s'.upload.phase = .done ∧
      s'.upload.handsOver = false ∧ s'.upload.queue = s.upload.queue := by
  cases moves with
  | caller moves =>
      cases moves with
      | filed call =>
          cases answered
          exact ⟨call, rfl, rfl, rfl⟩
      | wrote =>
          by_cases fed : s.upload.inbound.isSome = true
          all_goals simp [answer?, fed] at answered
      | _ => cases answered

end

end Upload

section

variable {disk : Disk δ} {root path : Option Path} {shelf : ConformingShelf disk root path}
  {limit : Nat} {scene scene' opening : Scene δ} {deed : Deed} {ledger : Ledger}

/-- What the writers of a scene have taken is in the store. -/
def Scene.Retains (shelf : ConformingShelf disk root path) (scene : Scene δ) (ledger : Ledger) :
    Prop :=
  ∀ upload ∈ scene.uploads,
    upload.Retains shelf (shelf.shows scene upload.blobName) (ledger upload.fileId).taken

namespace Scene

theorem Retains.turns (retains : scene.Retains shelf ledger) (tracks : Tracks limit scene ledger)
    (books : Books limit scene) (books' : Books limit scene')
    (shelved : Shelved shelf.toShelf scene) (behaves : scene.Behaves limit deed)
    (timely : scene.Timely) (turns : scene.Turns disk deed scene') :
    scene'.Retains shelf (ledger.after scene scene') := by
  intro upload member
  cases turns.comes behaves shelved books member with
  | fresh begins more =>
      have nobody : ∀ other ∈ scene.uploads, other.fileId ≠ upload.fileId :=
        fun other old same => books.unlike more begins old (.inl same.symm)
      rw [Tracks.blank_after nobody, tracks.blank _ nobody]
      exact fun _ _ => .nothing (.inl begins.writer.1)
  | aside old aside =>
      rw [Tracks.aside_after books books' old member]
      intro busy
      have undone : upload.phase ≠ .done := by
        rcases busy with unfiled | ⟨_, _, call⟩
        · exact (books.stands upload old).undone unfiled
        · have midway := (books.stands upload old).midway
          rw [call] at midway
          simp [midway.1]
      rw [aside.object undone]
      exact retains upload old busy
  | @moved before act same moved =>
      subst same
      rw [(moved.file books).fileId, Tracks.moved_after books books' moved]
      exact (retains before moved.member).moves (books.stands before moved.member)
        (books'.stands upload member) moved.handle (behaves before moved.member rfl) shelved.root
        (books.isBlobName moved.member) (books.drafts before moved.member)
        (timely.late before moved.member)
        (fun filed => moved.shows books shelved filed (books.isBlobName moved.member))
        moved.moves

theorem Retains.traces (opens : opening.OpensOn shelf limit)
    (traces : Traces disk (Conforms limit) opening scene ledger) :
    scene.Retains shelf ledger := by
  induction traces with
  | refl =>
      intro upload member
      rw [opens.uploads] at member
      cases member
  | step traced conforms steps ih =>
      have books := opens.books.reaches traced.reaches.conforms
      have behaves := traced.mono fun _ _ conforms => conforms.1
      exact ih.turns ((Tracks.opening opens.toOpens opens.unwritten).traces opens.books
          opens.shelved behaves) books (books.steps conforms.1 steps)
        (opens.shelved.reaches opens.books behaves.reaches) conforms.1
        (opens.custody.timely.reaches opens.books opens.shelved traced.reaches) steps.turns

/-- A commit has left the very stream that an encoder makes of the payload, and a
    record that tells of it. -/
structure LeavesStream (shelf : ConformingShelf disk root path) (scene : Scene δ) (upload : Upload)
    (passage : Passage) (record : FileRecord) : Prop where
  alone : ∃ key, scene.service.keyOf upload.owner = .ok key ∧
    passage.IsEncoderOutput key scene.service.config.blockSize (scene.payload upload.fileId) true
  own : record.id = upload.fileId ∧ record.owner = upload.owner ∧ record.blobName = upload.blobName
  stored : shelf.shows scene record.blobName = some passage.made.flatten
  fileSize : record.fileSize = (scene.payload upload.fileId).length
  blobSize : record.blobSize = passage.made.flatten.length
  overhead : record.blobSize = record.fileSize +
    32 * (record.fileSize / scene.service.config.blockSize + 1)

/-- A commit returns with its record in the step that ends its flush. -/
theorem leavesStream_of_returns {upload : Upload} {record : FileRecord}
    (retains : scene.Retains shelf ledger) (tracks : Tracks limit scene ledger)
    (books : Books limit scene) (books' : Books limit scene')
    (shelved : Shelved shelf.toShelf scene)
    (sized : 0 < scene.service.config.blockSize ∧ scene.service.config.blockSize ≤ Block.maxSize)
    (steps : scene.Steps disk (.act upload.fileId .caller) scene')
    (present : upload ∈ scene'.uploads)
    (answered : upload.answer? = some (.ok (some record))) :
    scene'.LeavesStream shelf upload (ledger.after scene scene' upload.fileId) record := by
  obtain ⟨before, moved⟩ := steps.turns.moved books present
  obtain ⟨call, done, calm, queue⟩ := Upload.returns_moves moved.moves answered
  simp only at call calm queue
  have stands := books.stands before moved.member
  have midway := stands.midway
  rw [call] at midway
  have file := moved.file books
  obtain ⟨key, known, passes⟩ := tracks.passes before moved.member
  have made := passes.makes.midway stands
  rw [call] at made
  obtain ⟨fits, whole, order⟩ := made
  obtain ⟨size, ended⟩ := midway.2.1
  have shown := moved.shows books shelved (.inl done) (books.isBlobName moved.member)
  have payload := moved.payload.trans (Upload.payloadAfter_of_call (by simp [call]))
  -- The writer has ended with success, so nothing waits any more.
  obtain ⟨there, _, empty⟩ :=
    (retains before moved.member (.inr ⟨_, _, call⟩) (by rw [ended]; trivial)).of_ended ended
  rw [empty, List.append_nil] at order
  have after : ledger.after scene scene' upload.fileId = ledger before.fileId := by
    rw [file.fileId, Tracks.moved_after books books' moved]
    exact Passage.after_beside (by simp [calm]) (by simp [queue])
  have config := steps.turns.config books
  have blobSize := fits.blobSize
  rw [order] at there blobSize
  rw [after]
  refine ⟨⟨key, ?_, ?_⟩, ⟨?_, ?_, ?_⟩, ?_, ?_, blobSize, ?_⟩
  · rw [file.owner]
    exact steps.turns.keyOf books known
  · rw [config, file.fileId, payload]
    exact whole.isEncoderOutput sized.1 sized.2
  · rw [file.fileId, fits.id]
  · rw [file.owner, fits.owner]
  · rw [file.blobName, fits.blobName]
  · rw [fits.blobName, shown, there]
  · rw [file.fileId, payload, fits.fileSize]
  · rw [blobSize, whole.made, config, fits.fileSize]
    exact Stream.length_flatten_layout sized.1 whole.drew

/-- Between encoder and store nothing is lost, doubled or put in another order,
    however the tasks take turns: at every moment the records that were taken,
    those in the queue, of which there are no more than it has room for, and those
    that are still to be sent are what an encoder alone makes. When a commit
    returns with a record, the object is the concatenation of all that an encoder
    makes of the payload, and the record tells the sizes of both. -/
theorem pipeline_refines_encoder (opens : opening.OpensOn shelf limit)
    (traces : Traces disk (Conforms limit) opening scene ledger) :
    (∀ upload ∈ scene.uploads, ∃ key, scene.service.keyOf upload.owner = .ok key ∧
        upload.Pipes shelf key scene.service.config (ledger upload.fileId)
          (scene.payload upload.fileId) (scene.chunk upload.fileId)
          (shelf.shows scene upload.blobName)) ∧
      ∀ scene' upload record, scene.Conforms limit (.act upload.fileId .caller) →
        scene.Steps disk (.act upload.fileId .caller) scene' → upload ∈ scene'.uploads →
          upload.answer? = some (.ok (some record)) →
            scene'.LeavesStream shelf upload (ledger.after scene scene' upload.fileId) record := by
  have behaves := traces.mono fun _ _ conforms => conforms.1
  have books := opens.books.reaches behaves.reaches
  have tracks := (Tracks.opening opens.toOpens opens.unwritten).traces opens.books opens.shelved
    behaves
  have retains := Retains.traces opens traces
  have sized : 0 < scene.service.config.blockSize ∧
      scene.service.config.blockSize ≤ Block.maxSize := by
    rw [behaves.reaches.config opens.books]
    exact (TransferConfig.bounds_of_validate opens.valid).1
  refine ⟨fun upload member => ?_, fun scene' upload record conforms steps present answered => ?_⟩
  · obtain ⟨key, known, passes⟩ := tracks.passes upload member
    exact ⟨key, known, tracks.capacity upload member ▸ passes.room,
      passes.makes.order (books.stands upload member) sized.1 sized.2, retains upload member⟩
  · exact leavesStream_of_returns retains tracks books (books.steps conforms.1 steps)
      (opens.shelved.reaches opens.books behaves.reaches) sized steps present answered

end Scene

end

/-- The commit of three bytes returns with a record of 35 bytes, the stream that an
    encoder makes of them. -/
theorem Scene.pipeline_refines_encoder_three_bytes :
    ∃ (scene final : Scene FileTree) (ledger : Ledger) (upload : Upload) (record : FileRecord),
      let shelf := ConformingShelf.memory FileTree.disk none
      sample.OpensOn shelf 2 ∧ Traces FileTree.disk (Conforms 2) sample scene ledger ∧
        scene.Conforms 2 (.act upload.fileId .caller) ∧
          scene.Steps FileTree.disk (.act upload.fileId .caller) final ∧
            upload ∈ final.uploads ∧ upload.answer? = some (.ok (some record)) ∧
              (∀ other ∈ scene.uploads, other.queue.length ≤ scene.service.config.handoffDepth) ∧
                final.LeavesStream shelf upload (ledger.after scene final upload.fileId) record ∧
                  record.fileSize = 3 ∧ record.blobSize = 35 := by
  obtain ⟨scene, final, upload, record, reaches, conforms, steps, uploads, own, _, answered, _,
    payload⟩ := sample_returns
  obtain ⟨ledger, traces⟩ := reaches.traces
  have present : upload ∈ final.uploads := by simp [uploads]
  obtain ⟨pipes, returns⟩ := pipeline_refines_encoder sample_opensOn traces
  have leaves := returns final upload record conforms steps present answered
  have fileSize := leaves.fileSize
  rw [own, payload] at fileSize
  have blobSize := leaves.overhead
  rw [fileSize, (Reaches.step reaches conforms steps).conforms.config sample_opensOn.books]
    at blobSize
  exact ⟨scene, final, ledger, upload, record, sample_opensOn, traces, conforms, steps, present,
    answered, fun other member => (pipes other member).choose_spec.2.room, leaves, fileSize,
    blobSize⟩

end Strongroom
