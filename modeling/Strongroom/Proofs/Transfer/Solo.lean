import Strongroom.Proofs.Transfer.Aside
import Strongroom.Proofs.Transfer.Blind
import Strongroom.Proofs.Transfer.Custody

/-! # What an upload comes to alone

The caller's task looks at the queue and at the writer only to see whether it
has to wait, as long as the store does not fail. So a call comes to the same
as if there were room for every record at once.
-/

namespace Strongroom

variable {δ : Type}

namespace Upload

/-- One step of the caller's task where the queue has room for every record and
    nobody takes any out of it. The blob is what was handed over. -/
def soloStep (service : Service) (upload : Upload) : Option (Service × Upload) :=
  match upload.call with
  | .idle => upload.inbound.map fun items => feed service upload items
  | .handOff [] => some (service, upload.wrote)
  | .handOff (record :: rest) =>
    some (service,
      if upload.cancelled then upload.abort .cancelled
      else { upload with queue := upload.queue ++ [record], call := .handOff rest })
  | .handOffFinal record size =>
    some (service,
      if upload.cancelled then upload.abort .cancelled
      else { upload with
        queue := upload.queue ++ [record], sending := false, held := false
        call := .joinForSize size })
  | .joinForSize size =>
    some (service, { upload with phase := .done }.answer
      (.ok (some (upload.recordOf service size upload.queue.flatten.length))))
  | .joinForAbort _ reason =>
    some (service, { upload with phase := .failed }.answer (.error reason))
  | _ => none

section

variable {disk : Disk δ} {root path : Option Path}

/-- How an upload of a store that does not fail goes along with one that is
    alone. The blob of the latter is the former's in the making; and once the
    record is filed, only its flush is still to come. -/
inductive Follows (shelf : ConformingShelf disk root path) (upload : Upload)
    (object : Option Bytes) (alone : Upload) : Prop where
  | streams {bytes : Bytes} :
    upload = alone.beside upload.queue upload.writer → upload.stopped = false →
      upload.phase ≠ .done → upload.phase ≠ .failed → upload.Stores shelf object bytes →
        bytes ++ upload.queue.flatten = alone.queue.flatten →
          (upload.sending = true → upload.writer.isOver = false) →
            Follows shelf upload object alone
  | stops :
    upload = alone.beside upload.queue upload.writer → upload.stopped = true →
      upload.phase ≠ .done → Follows shelf upload object alone
  | files {record : FileRecord} {rest : Script (Except Error Unit)} :
    upload = { alone with
        phase := .committing, call := .flushing record rest
        queue := upload.queue, writer := upload.writer } →
      alone.phase = .done → alone.call = .answered (.ok (some record)) →
        rest.Asks shelf.Spares → Follows shelf upload object alone
  | done :
    upload = alone.beside upload.queue upload.writer → upload.phase = .done →
      Follows shelf upload object alone

/-- What a store does that does not fail: the writer of an upload that goes on ends
    with success, and so does the flush of a record. -/
def Thrives (upload : Upload) : Prop :=
  (∀ e, upload.writer = .ended (.error e) → upload.stopped = true) ∧
    ∀ record e, upload.call ≠ .flushing record (.done (.error e))

end

section

variable {disk : Disk δ} {root path : Option Path} {shelf : ConformingShelf disk root path}
  {object : Option Bytes} {alone upload : Upload} {s s' : Spot δ}

theorem Follows.beside_of_unfiled (follows : upload.Follows shelf object alone)
    (unfiled : ¬ upload.InCatalog) : upload = alone.beside upload.queue upload.writer := by
  cases follows with
  | streams same | stops same => exact same
  | files same =>
      rw [same] at unfiled
      exact absurd (.inr ⟨_, _, rfl⟩) unfiled
  | done _ done => exact absurd (.inl done) unfiled

theorem Follows.of_inCatalog {object' : Option Bytes} (follows : upload.Follows shelf object alone)
    (filed : upload.InCatalog) (plain : alone.IsPlain) : upload.Follows shelf object' alone := by
  cases follows with
  | streams same _ undone =>
      rcases filed with done | ⟨record, rest, call⟩
      · exact absurd done undone
      · rw [same] at call
        rw [IsPlain, show alone.call = .flushing record rest from call] at plain
        exact plain.elim
  | stops same stopped undone => exact .stops same stopped undone
  | files same done answered spares => exact .files same done answered spares
  | done same done => exact .done same done

theorem Follows.begins {begin : Service → Upload → Service × Upload} (blind : Blind begin)
    (follows : upload.Follows shelf object alone) (unfiled : ¬ upload.InCatalog)
    (rest : upload.Streams ∨ upload.phase = .failed) {service solo : Service}
    (random : service.random = solo.random) :
    ∃ random' next upload', begin solo alone = ({ solo with random := random' }, next) ∧
      begin service upload = ({ service with random := random' }, upload') ∧ next.IsPlain ∧
        upload'.Follows shelf object next := by
  obtain ⟨random', next, keeps, same⟩ := blind alone service.random
  have beside := follows.beside_of_unfiled unfiled
  have phase : upload.phase = alone.phase := by rw [beside]; rfl
  have begun : begin service upload =
      ({ service with random := random' }, next.beside upload.queue upload.writer) :=
    (congrArg (begin service) beside).trans (same service rfl upload.queue upload.writer)
  refine ⟨random', next.beside alone.queue alone.writer, _,
    same solo random.symm alone.queue alone.writer, begun, keeps.plain, ?_⟩
  cases follows with
  | streams _ running undone unfailed stores bytes live =>
      have still : next.phase ≠ .done := by
        exact fun done => undone (phase.trans ((keeps.final (.inl done)).symm.trans done))
      cases stopped : next.stopped with
      | true => exact .stops rfl stopped still
      | false =>
          refine .streams rfl stopped still ?_ (stores.of_same rfl (.inr rfl)) bytes ?_
          · intro failed
            exact unfailed (phase.trans ((keeps.final (.inr failed)).symm.trans failed))
          · exact fun _ => live (rest.resolve_right unfailed).sending
  | stops _ stopped undone =>
      refine .stops rfl (keeps.stopped ?_) ?_
      · rw [beside] at stopped
        exact stopped
      · exact fun done => undone (phase.trans ((keeps.final (.inl done)).symm.trans done))
  | files same =>
      rw [same] at unfiled
      exact absurd (.inr ⟨_, _, rfl⟩) unfiled
  | done _ done => exact absurd (.inl done) unfiled

theorem Stores.result?_ne_error {bytes : Bytes} (stores : upload.Stores shelf object bytes)
    (e : Error) : upload.writer.result? ≠ some (.error e) := by
  cases stores with
  | nothing early =>
      rcases early with early | early
      all_goals simp [early, Writer.result?]
  | draft storing | whole storing => simp [storing, Writer.result?]

theorem Follows.stored (follows : upload.Follows shelf object alone) (unfiled : ¬ upload.InCatalog)
    (running : upload.stopped = false) :
    ∃ bytes, upload.Stores shelf object bytes ∧
      bytes ++ upload.queue.flatten = alone.queue.flatten := by
  cases follows with
  | streams _ _ _ _ stores order => exact ⟨_, stores, order⟩
  | stops _ stopped => cases running.symm.trans stopped
  | files same =>
      rw [same] at unfiled
      exact absurd (.inr ⟨_, _, rfl⟩) unfiled
  | done _ done => exact absurd (.inl done) unfiled

/-- How a step of the caller's task compares with one of the upload that is alone. -/
inductive Mimics (shelf : ConformingShelf disk root path) (solo : Service) (s : Spot δ)
    (alone : Upload) (s' : Spot δ) : Prop where
  /-- The flush of the record goes on. -/
  | flushes :
    s.upload.InCatalog → s'.service = s.service →
      s'.upload.Follows shelf (shelf.object s'.service.blobs s'.disk s.upload.blobName) alone →
        (s'.disk = s.disk ∨ ∃ step reply,
          shelf.Spares step ∧ disk.replies s.disk step reply s'.disk) →
          Mimics shelf solo s alone s'
  | moves {random : Entropy} {next : Upload} :
    ¬ s.upload.InCatalog → (∀ size, alone.call ≠ .joinForSize size) →
      alone.soloStep solo = some ({ solo with random }, next) → next.IsPlain →
        s'.service.random = random → s'.service.catalog = s.service.catalog →
          s'.service.conduct = s.service.conduct → s'.service.clock = s.service.clock →
            s'.upload.Follows shelf (shelf.object s'.service.blobs s'.disk s.upload.blobName)
                next →
              Mimics shelf solo s alone s'
  /-- The record is filed. -/
  | files {size : Nat} {catalog : Catalog} :
    ¬ s.upload.InCatalog → alone.call = .joinForSize size →
      s.service.catalog.stageFile
          (alone.recordOf solo size alone.queue.flatten.length) = .ok catalog →
        shelf.object s.service.blobs s.disk s.upload.blobName = some alone.queue.flatten →
          s' = { s with
            service := { s.service.note .insert (toString s.upload.fileId) with catalog }
            upload := { s.upload with
              call := .flushing (alone.recordOf solo size alone.queue.flatten.length)
                catalog.flush } } →
            Mimics shelf solo s alone s'

/-- A record of a new file is staged, and its flush begins. -/
theorem insertRecord_of_new {service : Service} (record : FileRecord)
    (conduct : service.conduct = {}) (new : service.catalog.file? record.id = none) :
    ∃ catalog, service.catalog.stageFile record = .ok catalog ∧
      upload.insertRecord service record =
        ({ service.note .insert (toString record.id) with catalog },
          { upload with call := .flushing record catalog.flush }) := by
  have inserts : service.catalog.entries.insertFile record =
      .ok { service.catalog.entries with files := service.catalog.entries.files ++ [record] } := by
    rw [Entries.insertFile, if_neg]
    rw [show service.catalog.entries.file? record.id = none from new]
    simp
  have stages := congrArg (Except.map service.catalog.withEntries) inserts
  refine ⟨_, stages, ?_⟩
  have stages : service.catalog.stageFile { record with createdAt := record.createdAt } = _ :=
    stages
  simp only [insertRecord, Service.note, conduct, Option.getD_none, stages, Except.map]

theorem callerStep_of_isReady (ready : upload.IsReady) (service : Service) :
    upload.callerStep service = none := by
  unfold IsReady at ready
  split at ready
  · rename_i idle
    simp [callerStep, idle, ready]
  · rename_i result answered
    simp [callerStep, answered]
  · exact ready.elim

theorem soloStep_of_isReady (ready : upload.IsReady) (service : Service) :
    upload.soloStep service = none := by
  unfold IsReady at ready
  split at ready
  · rename_i idle
    simp [soloStep, idle, ready]
  · rename_i result answered
    simp [soloStep, answered]
  · exact ready.elim

theorem Stands.isReady_of_done {gone : Prop} (stands : upload.Stands gone)
    (done : upload.phase = .done) : upload.IsReady := by
  rw [IsReady]
  cases stands with
  | done _ call =>
      rcases call with ⟨idle, nothing⟩ | ⟨record, answered⟩
      · rw [idle]
        exact nothing
      · rw [answered]
        trivial
  | receiving _ phase | writing _ phase | interrupted _ phase | sealing _ phase
  | joining phase | filing phase | withdrawing phase | failed phase => cases phase.symm.trans done
  | asking phase =>
      rcases phase with phase | phase
      all_goals cases phase.symm.trans done
  | stopping undone | leaving _ undone | left _ undone | lost _ undone => exact absurd done undone

theorem Mimics.of_files {solo service : Service} {next : Upload} {d : δ}
    {script : Script (Service × Upload)} {record : FileRecord} {rest : Script (Except Error Unit)}
    (same : s.upload = { alone with
      phase := .committing, call := .flushing record rest
      queue := s.upload.queue, writer := s.upload.writer })
    (done : alone.phase = .done) (answered : alone.call = .answered (.ok (some record)))
    (spares : rest.Asks shelf.Spares) (thrives : s.upload.Thrives)
    (offered : s.upload.callerStep s.service = some script)
    (runs : Script.Runs disk s.disk script (service, next) d) :
    Mimics shelf solo s alone ⟨service, next, d⟩ := by
  have call : s.upload.call = .flushing record rest := by rw [same]
  have filed : s.upload.InCatalog := .inr ⟨_, _, call⟩
  unfold callerStep at offered
  rw [call] at offered
  cases rest with
  | done result =>
      cases result with
      | error e => exact absurd call (thrives.2 record e)
      | ok =>
          cases offered
          obtain ⟨⟨⟩, rfl⟩ := Script.runs_pure.1 runs
          refine .flushes filed rfl (.done ?_ rfl) (.inl rfl)
          rw [same]
          cases alone
          cases done
          cases answered
          rfl
  | step step more =>
      cases offered
      obtain ⟨reply, d₁, replied, rest⟩ := Script.runs_step.1 runs
      obtain ⟨⟨⟩, rfl⟩ := Script.runs_pure.1 rest
      refine .flushes filed rfl (.files ?_ done answered (spares.2 reply))
        (.inr ⟨step, reply, spares.1, replied⟩)
      rw [same]

theorem Mimics.of_same {solo : Service} {next upload' : Upload} {d : δ}
    (unfiled : ¬ s.upload.InCatalog) (random : s.service.random = solo.random)
    (step : alone.soloStep solo = some (solo, next))
    (joins : ∀ size, alone.call ≠ .joinForSize size) (plain : next.IsPlain)
    (follows : upload'.Follows shelf (shelf.object s.service.blobs d s.upload.blobName) next) :
    Mimics shelf solo s alone ⟨s.service, upload', d⟩ :=
  .moves unfiled joins step plain random rfl rfl rfl follows

theorem Follows.handOver {record : Bytes} {change : Upload → Upload} {next : Upload}
    (follows : upload.Follows shelf object alone) (unfiled : ¬ upload.InCatalog)
    (streams : upload.Streams) (handed : upload.handOver record change = some next)
    (blind : ∀ upload queue writer,
      change (upload.beside queue writer) = (change upload).beside queue writer)
    (kept : ∀ upload, (change upload).phase = upload.phase ∧
      (change upload).stopped = upload.stopped ∧ (change upload).queue = upload.queue) :
    next.Follows shelf object
      (if alone.cancelled then alone.abort .cancelled
        else change { alone with queue := alone.queue ++ [record] }) := by
  have beside := follows.beside_of_unfiled unfiled
  have fired : upload.cancelled = alone.cancelled := by rw [beside]; rfl
  have phase : upload.phase = alone.phase := by rw [beside]; rfl
  have stopped : upload.stopped = alone.stopped := by rw [beside]; rfl
  cases follows with
  | files same =>
      rw [same] at unfiled
      exact absurd (.inr ⟨_, _, rfl⟩) unfiled
  | done _ done => exact absurd (.inl done) unfiled
  | stops _ stopped => cases streams.running.symm.trans stopped
  | @streams bytes _ running undone unfailed stores order live =>
      have live := live streams.sending
      unfold Upload.handOver at handed
      rw [if_neg (by simp [streams.sending])] at handed
      split at handed
      · rename_i yes
        rw [if_pos (fired ▸ yes)]
        cases handed
        refine .stops ?_ rfl undone
        rw [beside]
        rfl
      · rename_i no
        rw [if_neg (fired ▸ no)]
        rw [if_neg (by simp [live])] at handed
        split at handed
        · cases handed
          have same : change { upload with queue := upload.queue ++ [record] } =
              (change { alone with queue := alone.queue ++ [record] }).beside
                (upload.queue ++ [record]) upload.writer := by
            rw [← blind]
            refine congrArg change ?_
            rw [beside]
            rfl
          obtain ⟨phase', stopped', queue'⟩ := kept { alone with queue := alone.queue ++ [record] }
          have phase' := phase'.trans phase.symm
          rw [same]
          refine .streams rfl (stopped'.trans (stopped.symm.trans running))
            (fun here => undone (phase'.symm.trans here))
            (fun here => unfailed (phase'.symm.trans here)) (stores.of_same rfl (.inl live)) ?_
            fun _ => live
          rw [queue']
          simp only [Upload.beside, List.flatten_append, List.flatten_singleton, ← order,
            List.append_assoc]
        · cases handed

theorem Mimics.of_join {solo service : Service} {next : Upload} {d : δ}
    {script : Script (Service × Upload)} {size : Nat}
    (follows : s.upload.Follows shelf (shelf.object s.service.blobs s.disk s.upload.blobName) alone)
    (unfiled : ¬ s.upload.InCatalog) (running : s.upload.stopped = false)
    (clock : s.service.clock = solo.clock) (conduct : s.service.conduct = {})
    (free : s.service.catalog.file? s.upload.fileId = none)
    (call : s.upload.call = .joinForSize size)
    (offered : s.upload.callerStep s.service = some script)
    (runs : Script.Runs disk s.disk script (service, next) d) :
    Mimics shelf solo s alone ⟨service, next, d⟩ := by
  have beside := follows.beside_of_unfiled unfiled
  have called : alone.call = s.upload.call := by rw [beside]; rfl
  obtain ⟨bytes, stores, order⟩ := follows.stored unfiled running
  unfold callerStep at offered
  rw [call] at offered
  dsimp only at offered
  split at offered
  · cases offered
  · rename_i e failed
    exact absurd failed (stores.result?_ne_error e)
  · rename_i blobSize stored
    cases offered
    obtain ⟨staged, rfl⟩ := Script.runs_pure.1 runs
    obtain ⟨there, rfl, drained⟩ := stores.of_ended (ended_of_result stored)
    have same : s.upload.recordOf s.service size bytes.length =
        alone.recordOf solo size alone.queue.flatten.length := by
      rw [← order, drained, beside, recordOf, clock]
      simp [recordOf, Upload.beside]
    obtain ⟨catalog, stages, inserts⟩ :=
      insertRecord_of_new (s.upload.recordOf s.service size bytes.length) conduct free
    cases staged.trans inserts
    refine .files unfiled (called.trans call) (same ▸ stages) ?_ ?_
    · rw [there, ← order, drained, List.flatten_nil, List.append_nil]
    · rw [← same]
      rfl

theorem Mimics.of_abort {solo service : Service} {next : Upload} {d : δ}
    {script : Script (Service × Upload)} {held : Bool} {reason : Error}
    (follows : s.upload.Follows shelf (shelf.object s.service.blobs s.disk s.upload.blobName) alone)
    (unfiled : ¬ s.upload.InCatalog) (stopped : s.upload.stopped = true)
    (random : s.service.random = solo.random) (call : s.upload.call = .joinForAbort held reason)
    (offered : s.upload.callerStep s.service = some script)
    (runs : Script.Runs disk s.disk script (service, next) d) :
    Mimics shelf solo s alone ⟨service, next, d⟩ := by
  have beside := follows.beside_of_unfiled unfiled
  have called : alone.call = .joinForAbort held reason := by rw [← call, beside]; rfl
  unfold callerStep at offered
  rw [call] at offered
  dsimp only at offered
  split at offered
  · cases offered
  · cases offered
    obtain ⟨⟨result, service'⟩, d', removed, rest⟩ := Script.runs_bind.1 runs
    obtain ⟨⟨⟩, rfl⟩ := Script.runs_pure.1 rest
    obtain ⟨blobs, rfl, _⟩ := Service.runs_removeBlob removed
    have step : alone.soloStep solo =
        some (solo, { alone with phase := .failed }.answer (.error reason)) := by
      simp only [soloStep, called]
    refine .moves unfiled (by simp [called]) step (by trivial) random rfl rfl rfl
      (.stops ?_ stopped (by simp [answer]))
    rw [beside]
    rfl

theorem Mimics.of_unfiled {solo service : Service} {next : Upload} {d : δ}
    {script : Script (Service × Upload)} {gone : Prop}
    (follows : s.upload.Follows shelf (shelf.object s.service.blobs s.disk s.upload.blobName) alone)
    (plain : alone.IsPlain) (stands : s.upload.Stands gone) (unfiled : ¬ s.upload.InCatalog)
    (random : s.service.random = solo.random) (clock : s.service.clock = solo.clock)
    (conduct : s.service.conduct = {})
    (free : s.service.catalog.file? s.upload.fileId = none)
    (offered : s.upload.callerStep s.service = some script)
    (runs : Script.Runs disk s.disk script (service, next) d) :
    Mimics shelf solo s alone ⟨service, next, d⟩ := by
  have beside := follows.beside_of_unfiled unfiled
  have called : alone.call = s.upload.call := by rw [beside]; rfl
  have midway := stands.midway
  have caller := offered
  unfold callerStep at offered
  split at offered
  case h_1 idle =>
    obtain ⟨items, inbound, rfl⟩ := Option.map_eq_some_iff.1 offered
    obtain ⟨fed, rfl⟩ := Script.runs_pure.1 runs
    have inbound' : alone.inbound = some items := by
      rw [beside] at inbound
      exact inbound
    have rest : s.upload.AtRest .caller := .inr ⟨idle, items, inbound⟩
    have rest : s.upload.Streams ∨ s.upload.phase = .failed :=
      (stands.atRest rest (by simp [Act.takesHandle])).imp And.left And.left
    obtain ⟨random', next', upload', step, feeds, plain', follows'⟩ :=
      follows.begins (blind_feed items) unfiled rest random
    cases fed.trans feeds
    refine .moves unfiled (by simp [called, idle]) ?_ plain' rfl rfl rfl rfl follows'
    simp only [soloStep, called, idle, inbound', Option.map_some]
    exact congrArg some step
  case h_2 call =>
    cases offered
    obtain ⟨fed, rfl⟩ := Script.runs_pure.1 runs
    rw [call] at midway
    obtain ⟨random', next', upload', step, wrote, plain', follows'⟩ :=
      follows.begins blind_wrote unfiled (.inl midway.1) random
    cases fed.trans wrote
    refine .moves unfiled (by simp [called, call]) ?_ plain' rfl rfl rfl rfl follows'
    simp only [soloStep, called, call]
    exact congrArg some step
  case h_3 record rest call =>
    obtain ⟨handed, given, rfl⟩ := Option.map_eq_some_iff.1 offered
    obtain ⟨⟨⟩, rfl⟩ := Script.runs_pure.1 runs
    rw [call] at midway
    have follows' := follows.handOver unfiled midway.1 given (fun _ _ _ => rfl)
      fun _ => ⟨rfl, rfl, rfl⟩
    refine .of_same unfiled random ?_ (by simp [called, call]) ?_ follows'
    · simp only [soloStep, called, call]
    · split <;> trivial
  case h_4 record size call =>
    obtain ⟨handed, given, rfl⟩ := Option.map_eq_some_iff.1 offered
    obtain ⟨⟨⟩, rfl⟩ := Script.runs_pure.1 runs
    rw [call] at midway
    have follows' := follows.handOver unfiled midway.1 given (fun _ _ _ => rfl)
      fun _ => ⟨rfl, rfl, rfl⟩
    refine .of_same unfiled random ?_ (by simp [called, call]) ?_ follows'
    · simp only [soloStep, called, call]
    · split <;> trivial
  case h_5 size call =>
    rw [call] at midway
    exact .of_join follows unfiled midway.2.2.1 clock conduct free call caller runs
  case h_6 record call => exact absurd (.inr ⟨_, _, call⟩) unfiled
  case h_7 record e call => exact absurd (.inr ⟨_, _, call⟩) unfiled
  case h_8 record step more call => exact absurd (.inr ⟨_, _, call⟩) unfiled
  case h_9 e call =>
    rw [IsPlain, called, call] at plain
    exact plain.elim
  case h_10 held call =>
    rw [IsPlain, called, call] at plain
    exact plain.elim
  case h_11 held reason call =>
    rw [call] at midway
    exact .of_abort follows unfiled midway.2.1 random call caller runs
  case h_12 => cases offered

/-- A step of the caller's task goes along with one of the upload that is alone. -/
theorem Follows.callerStep {solo service : Service} {next : Upload} {d : δ}
    {script : Script (Service × Upload)} {gone : Prop}
    (follows : s.upload.Follows shelf (shelf.object s.service.blobs s.disk s.upload.blobName) alone)
    (plain : alone.IsPlain) (stands : s.upload.Stands gone) (thrives : s.upload.Thrives)
    (random : s.service.random = solo.random) (clock : s.service.clock = solo.clock)
    (conduct : s.service.conduct = {})
    (free : ¬ s.upload.InCatalog → s.service.catalog.file? s.upload.fileId = none)
    (offered : s.upload.callerStep s.service = some script)
    (runs : Script.Runs disk s.disk script (service, next) d) :
    Mimics shelf solo s alone ⟨service, next, d⟩ := by
  by_cases filed : s.upload.InCatalog
  · have waits (same : s.upload.phase = .done) : False := by
      rw [callerStep_of_isReady (stands.isReady_of_done same)] at offered
      cases offered
    cases follows with
    | files same done answered spares =>
        exact .of_files same done answered spares thrives offered runs
    | done _ done => exact (waits done).elim
    | streams same _ undone | stops same _ undone =>
        rcases filed with done | ⟨record, rest, call⟩
        · exact absurd done undone
        · rw [same] at call
          rw [IsPlain, show alone.call = .flushing record rest from call] at plain
          exact plain.elim
  · exact .of_unfiled follows plain stands filed random clock conduct (free filed) offered runs

theorem Stores.faithful {bytes : Bytes} (stores : upload.Stores shelf object bytes) :
    upload.writer.IsFaithful := by
  cases stores with
  | nothing early =>
      rcases early with early | early
      all_goals
        rw [early]
        trivial
  | draft storing | whole storing =>
      rw [storing]
      trivial

/-- A writer whose store does not fail stays faithful, and ends only once nothing
    more is to come. -/
theorem faithful_writerMoves (moves : WriterMoves disk s s') (conduct : s.service.conduct = {})
    (running : s.upload.stopped = false) (faithful : s.upload.writer.IsFaithful)
    (thrives : s'.upload.Thrives) :
    s'.upload.writer.IsFaithful ∧
      (s'.upload.sending = true → s'.upload.writer.isOver = false) := by
  cases moves with
  | halted _ stopped => cases running.symm.trans stopped
  | arrived _ _ gate =>
      rw [conduct] at gate
      cases gate
  | began opens =>
      cases opens with
      | store => exact ⟨trivial, fun _ => rfl⟩
      | cut _ put =>
          rw [conduct] at put
          cases put
      | pass _ mayPass =>
          rw [conduct] at mayPass
          cases mayPass
  | notBegun | notStored => cases running.symm.trans (thrives.1 _ rfl)
  | stored continues =>
      generalize here : s.upload.writer = writer at continues
      cases continues with
      | storing => exact ⟨trivial, fun _ => rfl⟩
      | cutting =>
          rw [here] at faithful
          exact faithful.elim
  | @closed _ result _ _ _ _ _ closed =>
      cases result with
      | ok size =>
          refine ⟨trivial, fun sending => ?_⟩
          cases closed.symm.trans sending
      | error e => cases running.symm.trans (thrives.1 _ rfl)
  | broke writer | drained writer | endedDraining writer =>
      rw [writer] at faithful
      exact faithful.elim
  | drains _ _ drains =>
      rw [conduct] at drains
      cases drains

/-- A step of the writer's task leaves the upload that is alone where it is. -/
theorem Follows.writerMoves {gone : Prop}
    (follows : s.upload.Follows shelf (shelf.object s.service.blobs s.disk s.upload.blobName) alone)
    (stands : s.upload.Stands gone) (conduct : s.service.conduct = {})
    (rooted : s.service.blobs.root? = root) (named : IsBlobName s.upload.blobName)
    (owns : s.upload.OwnsDraft) (moves : WriterMoves disk s s') (thrives : s'.upload.Thrives) :
    s'.upload.Follows shelf (shelf.object s'.service.blobs s'.disk s.upload.blobName) alone := by
  obtain ⟨goes, same⟩ := moves.same
  have unfiled : ¬ s.upload.InCatalog := by
    intro filed
    obtain ⟨size, ended⟩ := stands.stored filed
    rw [ended] at goes
    cases goes
  have beside : s'.upload = alone.beside s'.upload.queue s'.upload.writer := by
    rw [same, follows.beside_of_unfiled unfiled]
    rfl
  have phase : s'.upload.phase = s.upload.phase := by rw [same]
  have stopped : s'.upload.stopped = s.upload.stopped := by rw [same]
  have blobName : s'.upload.blobName = s.upload.blobName := by rw [same]
  cases follows with
  | streams _ running undone unfailed stores order live =>
      obtain ⟨faithful, live⟩ := faithful_writerMoves moves conduct running stores.faithful thrives
      have late (left taken : Nat) : s.upload.writer ≠ .draining left taken .early := by
        intro draining
        have faithful := stores.faithful
        rw [draining] at faithful
        exact faithful
      have advances := advances_of_writerMoves late moves faithful
      obtain ⟨popped, split, stores'⟩ := stores.advances rooted named owns advances
      refine .streams beside (stopped.trans running) (phase ▸ undone) (phase ▸ unfailed)
        (blobName ▸ stores') ?_ live
      rw [List.append_assoc, ← List.flatten_append, ← split, order]
  | stops _ halted undone => exact .stops beside (stopped.trans halted) (phase ▸ undone)
  | files same' =>
      rw [same'] at unfiled
      exact absurd (.inr ⟨_, _, rfl⟩) unfiled
  | done _ done => exact absurd (.inl done) unfiled

theorem quiet_writerMoves (moves : WriterMoves disk s s') (conduct : s.service.conduct = {}) :
    s'.service.conduct = {} ∧ s'.service.random = s.service.random ∧
      s'.service.catalog = s.service.catalog ∧ s'.service.clock = s.service.clock := by
  cases moves with
  | halted =>
      refine ⟨?_, rfl, rfl, rfl⟩
      simp only [conduct]
      rfl
  | arrived _ _ gate =>
      rw [conduct] at gate
      cases gate
  | began opens | notBegun opens =>
      cases opens with
      | store => exact ⟨conduct, rfl, rfl, rfl⟩
      | cut _ put =>
          rw [conduct] at put
          cases put
      | pass _ mayPass =>
          rw [conduct] at mayPass
          cases mayPass
  | stored | notStored | closed | broke | drains | drained => exact ⟨conduct, rfl, rfl, rfl⟩
  | @endedDraining _ _ ending _ _ _ _ _ ended =>
      cases ending
      all_goals
        cases ended
        exact ⟨conduct, rfl, rfl, rfl⟩

end

end Upload

end Strongroom
