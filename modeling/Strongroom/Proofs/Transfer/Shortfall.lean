import Strongroom.Proofs.Transfer.Ledger
import Strongroom.Proofs.Transfer.Lifecycle

/-! # Stores that stop early

A store may claim success before it has taken everything. A call finds that out
when it has a record to hand over, and then it reports it. A commit that has
handed over its last record only asks the writer how much it has taken: records
that still wait in the queue are not missed. So a record in the catalog tells
what the store has taken, and that falls short of the stream by what was left in
the queue.
-/

namespace Strongroom

variable {δ : Type}

/-- A shelf for a store of which nothing is known. -/
def Shelf.blank (disk : Disk δ) (root path : Option Path) : Shelf disk root path where
  object _ _ _ := none
  elsewhere _ _ _ _ _ := rfl
  looking _ _ _ := rfl
  flushing _ := Script.asks_of_forall (fun _ _ _ _ _ _ _ _ _ => rfl) _
  removed _ _ _ _ := rfl

namespace Upload

/-- A record still waits to be handed over. -/
def IsSending (upload : Upload) : Prop :=
  (∃ record rest, upload.call = .handOff (record :: rest)) ∨
    ∃ record size, upload.call = .handOffFinal record size

/-- What a call reports that finds the writer gone too early. -/
def earlyExit : Error :=
  .storage "blob writer exited early"

/-- An upload that never brings a record to the catalog: it has stopped, or its
    writer is over while a call has something to hand over, or such a call was
    given up. -/
def IsLost (upload : Upload) : Prop :=
  (¬ upload.Unfiled ∧ ¬ upload.InCatalog) ∨
    (upload.IsSending ∧ upload.writer.isOver = true) ∨
      (upload.phase = .writing ∧ upload.call = .idle)

/-- A call that finds the writer gone too early, on its way to report it. -/
inductive Reports (upload : Upload) : Prop where
  | sending {size : Nat} :
    upload.IsSending → upload.sending = true → upload.held = true → upload.cancelled = false →
      upload.writer = .ended (.ok size) → Reports upload
  | asking {size : Nat} :
    upload.call = .joinForCause true → upload.writer = .ended (.ok size) → Reports upload
  | stopping {held : Bool} :
    upload.call = .joinForAbort held earlyExit → upload.writer.isOver = true → Reports upload
  | answered : upload.call = .answered (.error earlyExit) → Reports upload

section

variable {disk : Disk δ} {s s' : Spot δ} {act : Act} {gone gone' : Prop}

theorem IsSending.other {upload : Upload} {call : Call} (sending : upload.IsSending)
    (here : upload.call = call) (handOff : ∀ record rest, call ≠ .handOff (record :: rest))
    (final : ∀ record size, call ≠ .handOffFinal record size) : False := by
  rcases sending with ⟨record, rest, waits⟩ | ⟨record, size, waits⟩
  · exact handOff record rest (here.symm.trans waits)
  · exact final record size (here.symm.trans waits)

theorem IsSending.not_isReady {upload : Upload} (sending : upload.IsSending) :
    ¬ upload.IsReady := by
  unfold IsReady
  rcases sending with ⟨record, rest, call⟩ | ⟨record, size, call⟩
  all_goals simp [call]

theorem IsSending.not_atRest {upload : Upload} (sending : upload.IsSending) :
    ¬ upload.AtRest act := by
  rintro (⟨⟨ready, _⟩, _⟩ | ⟨idle, _⟩)
  · exact sending.not_isReady ready
  · exact sending.other idle (by simp) (by simp)

theorem IsSending.streams {upload : Upload} (sending : upload.IsSending)
    (stands : upload.Stands gone) : upload.Streams := by
  have midway := stands.midway
  rcases sending with ⟨record, rest, call⟩ | ⟨record, size, call⟩
  all_goals
    rw [call] at midway
    exact midway.1

theorem IsSending.undone {upload : Upload} (sending : upload.IsSending)
    (stands : upload.Stands gone) : upload.phase ≠ .done := by
  have midway := stands.midway
  rcases sending with ⟨record, rest, call⟩ | ⟨record, size, call⟩
  all_goals
    rw [call] at midway
    simp [midway.2]

theorem IsLost.not_inCatalog {upload : Upload} (lost : upload.IsLost)
    (stands : upload.Stands gone) : ¬ upload.InCatalog := by
  rcases lost with ⟨_, absent⟩ | ⟨sending, _⟩ | ⟨phase, idle⟩
  · exact absent
  · rintro (done | ⟨record, rest, call⟩)
    · exact sending.undone stands done
    · exact sending.other call (by simp) (by simp)
  · rintro (done | ⟨record, rest, call⟩)
    · cases phase.symm.trans done
    · cases idle.symm.trans call

/-- An upload that has closed its side of the queue, and does not commit, is lost. -/
theorem IsLost.of_closed {upload : Upload} (closed : upload.sending = false)
    (undone : upload.phase ≠ .done) (final : ∀ record size, upload.call ≠ .handOffFinal record size)
    (joins : ∀ size, upload.call ≠ .joinForSize size)
    (flushes : ∀ record rest, upload.call ≠ .flushing record rest) : upload.IsLost := by
  refine .inl ⟨not_unfiled (fun streams _ => ?_) final joins, ?_⟩
  · cases closed.symm.trans streams.sending
  · rintro (done | ⟨record, rest, call⟩)
    · exact undone done
    · exact flushes record rest call

theorem IsLost.drop {upload : Upload} {inside : Bool} (undone : upload.phase ≠ .done) :
    (upload.drop inside).IsLost := by
  refine .inl ⟨not_unfiled (fun streams _ => ?_) (by simp) (by simp), ?_⟩
  · cases drop_held.symm.trans streams.held
  · rintro (done | ⟨record, rest, call⟩)
    · exact undone (drop_phase.symm.trans done)
    · cases drop_call.symm.trans call

theorem IsLost.moves (lost : s.upload.IsLost) (stands : s.upload.Stands gone)
    (handle : act.takesHandle = true → ¬ gone) (behaves : s.upload.Behaves act)
    (moves : Moves disk s act s') : s'.upload.IsLost := by
  rcases lost with ⟨filed, absent⟩ | adrift
  · refine .inl ⟨fun unfiled => filed (stands.unfiled_moves handle behaves moves unfiled).1, ?_⟩
    intro there
    rcases stands.inCatalog_of_moves handle moves there with ⟨there, _⟩ | ⟨unfiled, _⟩
    · exact absent there
    · exact filed unfiled
  -- A call of another kind does not come after these.
  have other {call : Call} (here : s.upload.call = call) (busy : call ≠ .idle)
      (handOff : ∀ record rest, call ≠ .handOff (record :: rest))
      (final : ∀ record size, call ≠ .handOffFinal record size) : False := by
    rcases adrift with ⟨sending, _⟩ | ⟨_, idle⟩
    · exact sending.other here handOff final
    · exact busy (here.symm.trans idle)
  cases moves with
  | writer moves =>
      obtain ⟨running, same⟩ := moves.same
      rcases adrift with ⟨_, finished⟩ | ⟨phase, idle⟩
      · cases running.symm.trans finished
      · rw [same]
        exact .inr (.inr ⟨phase, idle⟩)
  | cleared => exact .inr adrift
  | caller moves =>
      cases moves with
      | stop stops =>
          exact .of_closed rfl (stands.stoppable handle stops).1 (by simp [abort]) (by simp [abort])
            (by simp [abort])
      | deny enters _ notWriting =>
          rcases adrift with ⟨sending, _⟩ | ⟨phase, _⟩
          · exact absurd enters.atRest sending.not_atRest
          · exact absurd (enters.phase.trans phase) notWriting
      | opened enters receiving | sealed enters receiving =>
          rcases adrift with ⟨sending, _⟩ | ⟨phase, _⟩
          · exact absurd enters.atRest sending.not_atRest
          · cases phase.symm.trans (enters.phase.symm.trans receiving)
      | fed mayCall =>
          rcases adrift with ⟨sending, _⟩ | ⟨phase, _⟩
          · exact absurd mayCall.1 sending.not_isReady
          · exact .inr (.inr ⟨phase, rfl⟩)
      | handed call _ _ running | handedFinal call _ _ running =>
          rcases adrift with ⟨_, finished⟩ | ⟨_, idle⟩
          · cases running.symm.trans finished
          · cases call.symm.trans idle
      | hungUp waits =>
          have sending : s.upload.IsSending := waits
          exact .of_closed rfl (sending.undone stands) (by simp) (by simp) (by simp)
      | wrote here | refused here | staged here | flushed here | filed here | unstaged here =>
          exact (other here (by simp) (by simp) (by simp)).elim
      | removed clears =>
          rcases clears with here | ⟨held, here, _⟩
          all_goals exact (other here (by simp) (by simp) (by simp)).elim
      | gaveUp =>
          obtain ⟨record, rest, call⟩ := behaves
          have midway := stands.midway
          rw [call] at midway
          exact .inr (.inr ⟨midway.2, rfl⟩)
      | dropped =>
          rcases adrift with ⟨sending, _⟩ | ⟨phase, _⟩
          · exact absurd behaves sending.not_isReady
          · exact .drop (by simp [phase])
      | cancelled => exact .inr adrift

theorem Reports.other {upload : Upload} {call : Call} (reports : upload.Reports)
    (here : upload.call = call) :
    match call with
    | .idle | .handOff [] | .joinForSize _ | .flushing _ _ | .withdraw _ => False
    | _ => True := by
  cases reports with
  | sending waits =>
      rcases waits with ⟨record, rest, call⟩ | ⟨record, size, call⟩
      all_goals
        cases here.symm.trans call
        trivial
  | asking call | stopping call | answered call =>
      cases here.symm.trans call
      trivial

theorem Reports.of_sending {upload : Upload} (reports : upload.Reports)
    (waits : (∃ records, upload.call = .handOff records) ∨
      ∃ record size, upload.call = .handOffFinal record size) :
    upload.sending = true ∧ upload.held = true ∧ upload.cancelled = false ∧
      ∃ size, upload.writer = .ended (.ok size) := by
  cases reports with
  | sending _ unclosed held calm ended => exact ⟨unclosed, held, calm, _, ended⟩
  | asking call | stopping call | answered call =>
      rcases waits with ⟨records, here⟩ | ⟨record, size, here⟩
      all_goals cases here.symm.trans call

/-- The report is made by the steps of the caller's task, whatever the tasks in
    the background do. -/
theorem Reports.moves (reports : s.upload.Reports) (quiet : act.takesHandle = false)
    (unfired : act ≠ .cancel) (moves : Moves disk s act s') : s'.upload.Reports := by
  have resting (rest : s.upload.AtRest act) : False := by
    rcases rest with ⟨_, takes⟩ | ⟨idle, _⟩
    · cases quiet.symm.trans takes
    · exact reports.other idle
  cases moves with
  | cleared =>
      cases reports with
      | sending waits unclosed held calm ended =>
          exact .sending waits unclosed held calm ended
      | asking call ended => exact .asking call ended
      | stopping call finished => exact .stopping call finished
      | answered call => exact .answered call
  | writer moves =>
      obtain ⟨running, same⟩ := moves.same
      cases reports with
      | sending _ _ _ _ ended | asking _ ended =>
          rw [ended] at running
          cases running
      | stopping _ finished => cases running.symm.trans finished
      | answered call =>
          rw [same]
          exact .answered call
  | caller moves =>
      cases moves with
      | stop stops =>
          cases stops with
          | asked mayCall => cases quiet
          | fired enters | interrupted enters | unsealed enters =>
              exact (resting enters.atRest).elim
          | unfed idle | broken idle => exact (reports.other idle).elim
          | failed call => exact (reports.other call).elim
          | unsent waits closed => cases closed.symm.trans (reports.of_sending waits).1
          | overtaken waits fired => cases fired.symm.trans (reports.of_sending waits).2.2.1
          | learned call joined =>
              cases reports with
              | sending waits => exact (waits.other call (by simp) (by simp)).elim
              | stopping here | answered here => cases call.symm.trans here
              | asking here ended =>
                  cases call.symm.trans here
                  simp only [Upload.joined, if_true, ended, Writer.result?, Option.some.injEq]
                    at joined
                  subst joined
                  exact .stopping rfl (by simp [abort, ended, Writer.isOver, Writer.result?])
      | deny enters | opened enters | sealed enters => exact (resting enters.atRest).elim
      | fed | gaveUp | dropped => cases quiet
      | cancelled => exact absurd rfl unfired
      | wrote call | refused call | staged call | flushed call | filed call | unstaged call =>
          exact (reports.other call).elim
      | handed call _ _ running =>
          obtain ⟨_, _, _, size, ended⟩ := reports.of_sending (.inl ⟨_, call⟩)
          simp [ended, Writer.isOver, Writer.result?] at running
      | handedFinal call _ _ running =>
          obtain ⟨_, _, _, size, ended⟩ := reports.of_sending (.inr ⟨_, _, call⟩)
          simp [ended, Writer.isOver, Writer.result?] at running
      | hungUp waits =>
          have waits : (∃ records, s.upload.call = .handOff records) ∨
              ∃ record size, s.upload.call = .handOffFinal record size := by
            rcases waits with ⟨record, rest, call⟩ | final
            · exact .inl ⟨_, call⟩
            · exact .inr final
          obtain ⟨_, held, _, size, ended⟩ := reports.of_sending waits
          exact .asking (congrArg Call.joinForCause held) ended
      | removed clears =>
          rcases clears with call | ⟨held, call, _⟩
          · exact (reports.other call).elim
          · cases reports with
            | sending waits => exact (waits.other call (by simp) (by simp)).elim
            | asking here | answered here => cases call.symm.trans here
            | stopping here =>
                cases call.symm.trans here
                exact .answered rfl

/-- A call that reports goes on until it has answered. -/
theorem Reports.goesOn {upload : Upload} (reports : upload.Reports) (service : Service) :
    (upload.answer? = none ∧ (upload.callerStep service).isSome) ∨
      upload.answer? = some (.error earlyExit) := by
  cases reports with
  | sending waits unclosed held calm ended =>
      rcases waits with ⟨record, rest, call⟩ | ⟨record, size, call⟩
      all_goals
        refine .inl ⟨by rw [answer?, call], ?_⟩
        simp [callerStep, call, handOver, unclosed, calm, ended, Writer.isOver, Writer.result?]
  | asking call ended =>
      refine .inl ⟨by rw [answer?, call], ?_⟩
      simp [callerStep, call, joined, ended, Writer.result?]
  | stopping call finished =>
      refine .inl ⟨by rw [answer?, call], ?_⟩
      simp [callerStep, call, finished]
  | answered call => exact .inr (by rw [answer?, call])

end

end Upload

namespace Scene

variable {disk : Disk δ} {limit : Nat} {opening scene scene' : Scene δ} {deed : Deed}
  {ledger : Ledger} {file : FileRecord}

/-- What is known of an upload whose record comes to the catalog. -/
structure Brings (scene : Scene δ) (passage : Passage) (upload : Upload) (file : FileRecord) :
    Prop where
  own : file.id = upload.fileId
  ended : upload.writer = .ended (.ok file.blobSize)
  /-- All records were made, the last one with them. -/
  whole : ∃ key, scene.service.keyOf upload.owner = .ok key ∧
    passage.IsWhole key scene.service.config.blockSize (scene.payload upload.fileId)
  /-- All of them were handed over. -/
  handed : passage.taken ++ upload.queue = passage.made
  room : upload.queue.length ≤ scene.service.config.handoffDepth
  fileSize : file.fileSize = (scene.payload upload.fileId).length
  blobSize : file.blobSize = passage.taken.flatten.length
  full : file.blobSize = passage.made.flatten.length ↔ upload.queue = []

/-- A record comes to the catalog in a step of the caller's task. -/
theorem brings_of_turns (tracks : Tracks limit scene ledger) (books : Books limit scene)
    (behaves : scene.Behaves limit deed) (turns : scene.Turns disk deed scene')
    (there : file ∈ scene'.service.catalog.entries.files)
    (new : file ∉ scene.service.catalog.entries.files) :
    ∃ upload ∈ scene.uploads, deed = .act upload.fileId .caller ∧
      scene.Brings (ledger upload.fileId) upload file := by
  cases turns with
  | start started =>
      obtain ⟨_, _, service, _⟩ := Transfers.start_cases started
      simp only [service] at there
      exact absurd there new
  | errand _ errand => exact absurd (errand.files file there) new
  | @act before after act service d member handle _ moves =>
      have stands := books.stands before member
      rcases books.files_act member handle (behaves before member rfl) moves file there with
        ⟨old, _⟩ | ⟨⟨size, blobSize, joins, stored, rfl⟩, filed, _⟩
      · exact absurd old new
      have caller : act = .caller := by
        rcases stands.inCatalog_of_moves handle moves filed with ⟨filed, _⟩ | ⟨_, caller, _⟩
        · exact absurd (.inr (.inr ⟨size, joins⟩)) (stands.asked filed)
        · exact caller
      subst caller
      obtain ⟨key, known, passes⟩ := tracks.passes before member
      have made := passes.makes.midway stands
      rw [joins] at made
      obtain ⟨rfl, whole, handed⟩ := made
      have ended := Upload.ended_of_result stored
      have took := passes.took
      rw [ended] at took
      have took : blobSize = (ledger before.fileId).taken.flatten.length := took
      exact ⟨before, member, rfl, rfl, ended, ⟨key, known, whole⟩, handed,
        tracks.capacity before member ▸ passes.room, rfl, took,
        took ▸ whole.taken_all_iff handed⟩

/-- The call under way of an upload is left alone: it is not given up, and its token
    does not fire. -/
def LeavesAlone (limit : Nat) (id : FileId) (scene : Scene δ) (deed : Deed) : Prop :=
  scene.Behaves limit deed ∧ ∀ act, deed = .act id act → act.takesHandle = false ∧ act ≠ .cancel

/-- A record in the catalog tells what the store has taken, whatever the store does.
    All records of the payload were made and handed over by then, and the size is
    that of the stream just if none was left in the queue. Where the store never
    claims success early, none is. A call that has a record to hand over finds
    out that the writer is over: then the file never comes to the catalog, and if
    the writer has claimed success, the call answers that it exited early. -/
theorem files_tell_what_was_taken (opens : opening.Opens limit)
    (unwritten : opening.Unwritten limit)
    (traces : Traces disk (Behaves limit) opening scene ledger) :
    (∀ deed scene', scene.Behaves limit deed → scene.Steps disk deed scene' →
        ∀ file ∈ scene'.service.catalog.entries.files,
          file ∉ scene.service.catalog.entries.files →
            ∃ upload ∈ scene.uploads, deed = .act upload.fileId .caller ∧
              scene.Brings (ledger upload.fileId) upload file ∧
                ((∀ after, opening.service.conduct.put ≠ .early after) →
                  Reaches disk (Conforms limit) opening scene → upload.queue = [])) ∧
      ∀ upload ∈ scene.uploads, upload.IsSending → upload.writer.isOver = true →
        (∀ later, Reaches disk (Behaves limit) scene later →
          ∀ file ∈ later.service.catalog.entries.files, file.id ≠ upload.fileId) ∧
        ∀ size, upload.writer = .ended (.ok size) → upload.cancelled = false →
          ∀ later, Reaches disk (LeavesAlone limit upload.fileId) scene later →
            ∀ next ∈ later.uploads, next.fileId = upload.fileId →
              (next.answer? = none ∧ (next.callerStep later.service).isSome) ∨
                next.answer? = some (.error Upload.earlyExit) := by
  have shelved := opens.shelved (Shelf.blank disk opening.service.blobs.root?
    opening.service.catalog.path?) rfl rfl
  have tracks := (Tracks.opening opens unwritten).traces opens.books shelved traces
  have books := opens.books.reaches traces.reaches
  have shelved' := shelved.reaches opens.books traces.reaches
  refine ⟨fun deed scene' behaves steps file there new => ?_,
    fun upload member sends finished => ⟨fun later reaches file there own => ?_,
      fun size ended calm later reaches next there own => ?_⟩⟩
  · obtain ⟨upload, member, acts, brings⟩ :=
      brings_of_turns tracks books behaves steps.turns there new
    refine ⟨upload, member, acts, brings, fun conforms reaches => ?_⟩
    have timely : opening.Timely :=
      ⟨conforms, by simp [opens.uploads], by simp [opens.uploads]⟩
    exact (timely.reaches opens.books shelved reaches).drained upload member _ brings.ended
  · obtain ⟨next, present, same, _, lost⟩ :=
      Books.follows (fun _ upload => upload.IsLost) (fun _ _ _ _ _ _ lost => lost)
        (fun _ _ _ _ _ books _ behaves moved lost =>
          lost.moves (books.stands _ moved.member) moved.handle behaves moved.moves)
        books shelved' reaches member (.inr (.inl ⟨sends, finished⟩))
    have books' := books.reaches reaches
    exact lost.not_inCatalog (books'.stands next present)
      (books'.kept file there next present (.inl (own.trans same.symm))).2.2
  · have streams := sends.streams (books.stands upload member)
    have reports : upload.Reports := .sending sends streams.sending streams.held calm ended
    obtain ⟨last, present, same, _, _, reports⟩ :=
      Books.follows_allowed (fun _ _ alone => alone.1)
        (fun _ other => other.fileId = upload.fileId ∧ other.Reports)
        (fun _ _ _ _ _ _ reports => reports)
        (fun _ _ _ act _ books _ alone moved ⟨same, reports⟩ => by
          obtain ⟨quiet, unfired⟩ := alone.2 act (by rw [same])
          exact ⟨(moved.file books).fileId.trans same, reports.moves quiet unfired moved.moves⟩)
        books shelved' reaches member ⟨rfl, reports⟩
    have books' := books.reaches (reaches.mono fun _ _ alone => alone.1)
    rw [books'.apart next there last present (.inl (own.trans same.symm))]
    exact reports.goesOn later.service

/-- The store of the sample claims success at once, while the one record of an empty
    payload waits in the queue. The commit then asks the catalog. -/
theorem sample_falls_short :
    ∃ (scene final : Scene FileTree) (upload : Upload) (file : FileRecord),
      Reaches FileTree.disk (Behaves 2) sample scene ∧
        scene.Behaves 2 (.act upload.fileId .caller) ∧
          scene.Steps FileTree.disk (.act upload.fileId .caller) final ∧
            scene.uploads = [upload] ∧ upload.queue ≠ [] ∧
              file ∈ final.service.catalog.entries.files ∧
                scene.service.catalog.entries.files = [] := by
  let record := Stream.record true
    (Block.encryptWith sampleEncoder.key (sample.service.random.peek Aead.nonceSize) [])
  let hasty : Service := { sampleService with conduct := { put := .early 0 } }
  let second : Service :=
    { hasty with random := (sampleService.random.draw Aead.nonceSize).2 }
  let sealing : Upload :=
    { sampleUpload with phase := .committing, encoder := none, call := .handOffFinal record 0 }
  let joining : Upload :=
    { sealing with queue := [record], sending := false, held := false, call := .joinForSize 0 }
  let draining : Upload := { joining with writer := .draining 0 0 .early }
  let third : Service := second.note .putEarly joining.blobName
  let ended : Upload := { draining with writer := .ended (.ok 0) }
  let file : FileRecord := ended.recordOf third 0 0
  let fourth : Service :=
    { third.note .insert (toString file.id) with
      catalog := .memory { sample.service.catalog.entries with files := [file] } }
  let flushing : Upload := { ended with call := .flushing file (.done (.ok ())) }
  let started : Scene FileTree := { sample with toTransfers := ⟨sampleService, [sampleUpload]⟩ }
  have one : HasOne { started with service := hasty } hasty sampleUpload {} [] [] :=
    ⟨rfl, rfl, rfl, rfl, rfl, rfl⟩
  have run : Reaches FileTree.disk (Behaves 2) sample { started with service := hasty } := by
    refine .step (.single ?_ (.start sample_start)) ?_ .conduct
    · rw [Behaves, sample_start]
      decide
    · trivial
  obtain ⟨s₁, conforms, steps, one⟩ := one.steps .commit second sealing {} rfl (by simp) trivial
    (by simp) (.commit ⟨rfl, by simp [sampleUpload]⟩) .done
  have run := run.step conforms.1 steps
  obtain ⟨s₂, conforms, steps, one⟩ := one.steps .caller second joining {} rfl (by simp) trivial
    (by simp [sealing]) (.caller rfl) .done
  have run := run.step conforms.1 steps
  obtain ⟨s₃, conforms, steps, one⟩ := one.steps .writer second draining {} rfl (by simp) trivial
    (by simp) (.writer rfl) .done
  have run := run.step conforms.1 steps
  obtain ⟨s₄, conforms, steps, one⟩ := one.steps .writer third ended {} rfl (by simp) trivial
    (by simp) (.writer rfl) .done
  have run := run.step conforms.1 steps
  have uploads := one.uploads
  have catalog := congrArg (fun service => service.catalog.entries.files) one.service
  obtain ⟨s₅, conforms, steps, one⟩ := one.steps .caller fourth flushing {} rfl (by simp) trivial
    (by simp [ended, draining, joining]) (.caller rfl) .done
  refine ⟨s₄, s₅, ended, file, run, conforms.1, steps, uploads, by simp [ended, draining, joining],
    ?_, catalog⟩
  rw [one.service]
  exact .head _

/-- A record of no bytes comes to the catalog for a stream of 32. -/
theorem files_tell_what_was_taken_of_early_exit :
    ∃ (scene final : Scene FileTree) (ledger : Ledger) (file : FileRecord),
      sample.Opens 2 ∧ sample.Unwritten 2 ∧
        Traces FileTree.disk (Behaves 2) sample scene ledger ∧
          scene.Steps FileTree.disk (.act file.id .caller) final ∧
            file ∈ final.service.catalog.entries.files ∧
              file ∉ scene.service.catalog.entries.files ∧
                file.blobSize ≠ (ledger file.id).made.flatten.length := by
  obtain ⟨scene, final, upload, file, reaches, behaves, steps, uploads, waits, there, none⟩ :=
    sample_falls_short
  obtain ⟨ledger, traces⟩ := reaches.traces
  have new : file ∉ scene.service.catalog.entries.files := by simp [none]
  obtain ⟨brought, _⟩ := files_tell_what_was_taken sample_opens sample_opensOn.unwritten traces
  obtain ⟨other, member, _, brings, _⟩ := brought _ final behaves steps file there new
  rw [uploads, List.mem_singleton] at member
  subst member
  refine ⟨scene, final, ledger, file, sample_opens, sample_opensOn.unwritten, traces, ?_, there,
    new, ?_⟩
  · rw [brings.own]
    exact steps
  · rw [brings.own]
    exact fun same => waits (brings.full.1 same)

end Scene

end Strongroom
