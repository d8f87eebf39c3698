import Strongroom.Proofs.Transfer.WriterMoves

/-! # Where an upload stands

Between two acts an upload stands in one of a few ways. What matters is who
still holds the writer's task, and whether that task is over wherever nobody
holds it. Every act of a caller who lets calls run to their end keeps to these
ways; only a write may be given up, while a record of it waits.
-/

namespace Strongroom

variable {δ : Type}

namespace Upload

/-- The caller holds the writer's task and its own side of the queue. -/
structure Streams (upload : Upload) : Prop where
  held : upload.held = true
  running : upload.stopped = false
  sending : upload.sending = true
  cleanup : upload.cleanup = .none

/-- The ways in which an upload can stand; `gone` says that its handle is
    dropped. -/
inductive Stands (gone : Prop) (upload : Upload) : Prop where
  | receiving :
    upload.Streams → upload.phase = .receiving →
      upload.call = .idle ∨ upload.call = .answered (.ok none) → Stands gone upload
  | writing {records : List Bytes} :
    upload.Streams → upload.phase = .writing → upload.call = .handOff records →
      Stands gone upload
  | interrupted :
    upload.Streams → upload.phase = .writing → upload.call = .idle → Stands gone upload
  | sealing {record : Bytes} {size : Nat} :
    upload.Streams → upload.phase = .committing → upload.call = .handOffFinal record size →
      Stands gone upload
  | joining {size : Nat} :
    upload.phase = .committing → upload.call = .joinForSize size →
      upload.sending = false → upload.stopped = false → upload.cleanup = .none →
        Stands gone upload
  | asking {held : Bool} :
    upload.phase = .writing ∨ upload.phase = .committing → upload.call = .joinForCause held →
      upload.writer.isOver = true → upload.cleanup = .none → Stands gone upload
  | stopping {held : Bool} {reason : Error} :
    upload.phase ≠ .done → upload.call = .joinForAbort held reason →
      upload.stopped = true →
        (held = false ∨ upload.phase = .failed → upload.writer.isOver = true) →
          upload.cleanup = .none → Stands gone upload
  | filing {record : FileRecord} {rest : Script (Except Error Unit)} {size : Nat} :
    upload.phase = .committing → upload.call = .flushing record rest →
      upload.writer = .ended (.ok size) → upload.cleanup = .none →
        record.id = upload.fileId → Stands gone upload
  | withdrawing {e : Error} :
    upload.phase = .committing → upload.call = .withdraw e → upload.writer.isOver = true →
      upload.cleanup = .none → Stands gone upload
  | failed :
    upload.phase = .failed → upload.call = .idle ∨ (∃ e, upload.call = .answered (.error e)) →
      upload.writer.isOver = true → upload.cleanup = .none → Stands gone upload
  | done {size : Nat} :
    upload.phase = .done →
      upload.call = .idle ∧ upload.inbound = none ∨
          (∃ record, upload.call = .answered (.ok (some record))) →
        upload.writer = .ended (.ok size) → upload.cleanup = .none → Stands gone upload
  /-- The handle was dropped inside the runtime. -/
  | leaving {held : Bool} :
    gone → upload.phase ≠ .done → upload.phase ≠ .failed → upload.cleanup = .pending held →
      upload.call = .idle → upload.inbound = none → upload.stopped = true →
        (held = false → upload.writer.isOver = true) → Stands gone upload
  | left :
    gone → upload.phase ≠ .done → upload.phase ≠ .failed → upload.cleanup = .finished →
      upload.call = .idle → upload.inbound = none → upload.writer.isOver = true →
        Stands gone upload
  | lost :
    gone → upload.phase ≠ .done → upload.phase ≠ .failed → upload.cleanup = .none →
      upload.call = .idle → upload.inbound = none → upload.stopped = true → Stands gone upload

/-- A call begins, or a stream is due to hand something over. -/
def AtRest (upload : Upload) (act : Act) : Prop :=
  (upload.MayCall ∧ act.takesHandle = true) ∨
    (upload.call = .idle ∧ ∃ items, upload.inbound = some items)

section

variable {upload entered next : Upload} {act : Act} {asked : Option Bytes} {reason : Error}
  {gone : Prop}

theorem Enters.atRest (enters : upload.Enters act asked entered) : upload.AtRest act := by
  cases enters with
  | write mayCall | commit mayCall => exact .inl ⟨mayCall, rfl⟩
  | item idle inbound | finish idle inbound => exact .inr ⟨idle, _, inbound⟩

theorem Enters.same (enters : upload.Enters act asked entered) :
    entered = { upload with inbound := entered.inbound, cancelled := entered.cancelled } := by
  cases enters <;> rfl

theorem Streams.of_same (streams : upload.Streams)
    (same : next.held = upload.held ∧ next.stopped = upload.stopped ∧
      next.sending = upload.sending ∧ next.cleanup = upload.cleanup) : next.Streams :=
  ⟨same.1.trans streams.held, same.2.1.trans streams.running, same.2.2.1.trans streams.sending,
    same.2.2.2.trans streams.cleanup⟩

/-- The token may fire at any time, and a running writer may go on as it likes. -/
theorem Stands.beside {gone' : Prop} (stands : upload.Stands gone) (more : gone → gone')
    (queue : List Bytes) (writer : Writer) (cancelled : Bool)
    (goes : upload.writer.isOver = true → writer = upload.writer) :
    { upload with queue, writer, cancelled }.Stands gone' := by
  have kept (streams : upload.Streams) : { upload with queue, writer, cancelled }.Streams :=
    streams.of_same ⟨rfl, rfl, rfl, rfl⟩
  have still (finished : upload.writer.isOver = true) : writer.isOver = true := by
    rw [goes finished]
    exact finished
  have ended {size : Nat} (finished : upload.writer = .ended (.ok size)) :
      writer = .ended (.ok size) :=
    (goes (by rw [finished]; rfl)).trans finished
  cases stands with
  | receiving streams phase call => exact .receiving (kept streams) phase call
  | writing streams phase call => exact .writing (kept streams) phase call
  | interrupted streams phase call => exact .interrupted (kept streams) phase call
  | sealing streams phase call => exact .sealing (kept streams) phase call
  | joining phase call closed running cleanup => exact .joining phase call closed running cleanup
  | asking phase call finished cleanup => exact .asking phase call (still finished) cleanup
  | stopping phase call stopped finished cleanup =>
      exact .stopping phase call stopped (fun free => still (finished free)) cleanup
  | filing phase call writer cleanup own => exact .filing phase call (ended writer) cleanup own
  | withdrawing phase call finished cleanup =>
      exact .withdrawing phase call (still finished) cleanup
  | failed phase call finished cleanup => exact .failed phase call (still finished) cleanup
  | done phase call writer cleanup => exact .done phase call (ended writer) cleanup
  | leaving dropped undone unfailed cleanup call inbound stopped finished =>
      exact .leaving (more dropped) undone unfailed cleanup call inbound stopped
        fun free => still (finished free)
  | left dropped undone unfailed cleanup call inbound finished =>
      exact .left (more dropped) undone unfailed cleanup call inbound (still finished)
  | lost dropped undone unfailed cleanup call inbound stopped =>
      exact .lost (more dropped) undone unfailed cleanup call inbound stopped

theorem Stands.mono {gone' : Prop} (stands : upload.Stands gone) (more : gone → gone') :
    upload.Stands gone' :=
  stands.beside more upload.queue upload.writer upload.cancelled fun _ => rfl

theorem Stands.atRest (stands : upload.Stands gone) (rest : upload.AtRest act)
    (handle : act.takesHandle = true → ¬ gone) :
    (upload.Streams ∧ (upload.phase = .receiving ∨ upload.phase = .writing)) ∨
      (upload.phase = .failed ∧ upload.writer.isOver = true ∧ upload.cleanup = .none) := by
  have called : upload.call = .idle ∨ ∃ result, upload.call = .answered result := by
    rcases rest with ⟨⟨ready, _⟩, _⟩ | ⟨idle, _⟩
    · unfold IsReady at ready
      split at ready
      · rename_i idle
        exact .inl idle
      · rename_i result answered
        exact .inr ⟨result, answered⟩
      · exact ready.elim
    · exact .inl idle
  have absent : gone → upload.inbound = none → False := by
    intro dropped nothing
    rcases rest with ⟨_, takes⟩ | ⟨_, items, inbound⟩
    · exact handle takes dropped
    · rw [nothing] at inbound
      cases inbound
  cases stands with
  | receiving streams phase => exact .inl ⟨streams, .inl phase⟩
  | interrupted streams phase => exact .inl ⟨streams, .inr phase⟩
  | failed phase _ finished cleanup => exact .inr ⟨phase, finished, cleanup⟩
  | done phase call =>
      rcases rest with ⟨⟨_, undone⟩, _⟩ | ⟨idle, items, inbound⟩
      · exact absurd phase undone
      · rcases call with ⟨_, nothing⟩ | ⟨record, answered⟩
        · rw [nothing] at inbound
          cases inbound
        · rw [answered] at idle
          cases idle
  | leaving dropped _ _ _ _ nothing | left dropped _ _ _ _ nothing | lost dropped _ _ _ _ nothing =>
      exact (absent dropped nothing).elim
  | writing _ _ call | sealing _ _ call | joining _ call | asking _ call | stopping _ call
  | filing _ call | withdrawing _ call =>
      rcases called with idle | ⟨result, answered⟩
      · rw [call] at idle
        cases idle
      · rw [call] at answered
        cases answered

theorem Stands.midway (stands : upload.Stands gone) :
    match upload.call with
    | .idle | .answered _ => True
    | .handOff _ => upload.Streams ∧ upload.phase = .writing
    | .handOffFinal _ _ => upload.Streams ∧ upload.phase = .committing
    | .joinForSize _ =>
        upload.phase = .committing ∧ upload.sending = false ∧ upload.stopped = false ∧
          upload.cleanup = .none
    | .joinForCause _ =>
        (upload.phase = .writing ∨ upload.phase = .committing) ∧ upload.writer.isOver = true ∧
          upload.cleanup = .none
    | .joinForAbort held _ =>
        upload.phase ≠ .done ∧ upload.stopped = true ∧
          (held = false ∨ upload.phase = .failed → upload.writer.isOver = true) ∧
            upload.cleanup = .none
    | .flushing record _ =>
        upload.phase = .committing ∧ (∃ size, upload.writer = .ended (.ok size)) ∧
          upload.cleanup = .none ∧ record.id = upload.fileId
    | .withdraw _ =>
        upload.phase = .committing ∧ upload.writer.isOver = true ∧ upload.cleanup = .none := by
  cases stands with
  | receiving _ _ call =>
      rcases call with call | call
      all_goals
        rw [call]
        trivial
  | interrupted _ _ call | leaving _ _ _ _ call | left _ _ _ _ call | lost _ _ _ _ call =>
      rw [call]
      trivial
  | failed _ call =>
      rcases call with call | ⟨e, call⟩
      all_goals
        rw [call]
        trivial
  | done _ call =>
      rcases call with ⟨call, _⟩ | ⟨record, call⟩
      all_goals
        rw [call]
        trivial
  | writing streams phase call | sealing streams phase call =>
      rw [call]
      exact ⟨streams, phase⟩
  | joining phase call closed running cleanup =>
      rw [call]
      exact ⟨phase, closed, running, cleanup⟩
  | asking phase call finished cleanup | withdrawing phase call finished cleanup =>
      rw [call]
      exact ⟨phase, finished, cleanup⟩
  | stopping phase call stopped finished cleanup =>
      rw [call]
      exact ⟨phase, stopped, finished, cleanup⟩
  | filing phase call writer cleanup own =>
      rw [call]
      exact ⟨phase, ⟨_, writer⟩, cleanup, own⟩

theorem Stands.stoppable (stands : upload.Stands gone) (handle : act.takesHandle = true → ¬ gone)
    (stops : upload.Stops act next reason) :
    next.phase ≠ .done ∧
      (next.held = false ∨ next.phase = .failed → next.writer.isOver = true) ∧
        next.cleanup = .none := by
  have streaming {upload : Upload} (streams : upload.Streams) (unfailed : upload.phase ≠ .failed) :
      upload.held = false ∨ upload.phase = .failed → upload.writer.isOver = true := by
    rintro (dropped | failed)
    · rw [streams.held] at dropped
      cases dropped
    · exact absurd failed unfailed
  have resting (rest : upload.AtRest act) :
      upload.phase ≠ .done ∧
        (upload.held = false ∨ upload.phase = .failed → upload.writer.isOver = true) ∧
          upload.cleanup = .none := by
    rcases stands.atRest rest handle with ⟨streams, phase | phase⟩ | ⟨phase, finished, cleanup⟩
    · exact ⟨by simp [phase], streaming streams (by simp [phase]), streams.cleanup⟩
    · exact ⟨by simp [phase], streaming streams (by simp [phase]), streams.cleanup⟩
    · exact ⟨by simp [phase], fun _ => finished, cleanup⟩
  have midway := stands.midway
  cases stops with
  | asked mayCall => exact resting (.inl ⟨mayCall, rfl⟩)
  | fired enters | interrupted enters =>
      rw [enters.same]
      exact resting enters.atRest
  | @unsealed act asked entered encoder reason enters receiving =>
      rw [enters.same] at receiving ⊢
      obtain ⟨_, finished, cleanup⟩ := resting enters.atRest
      refine ⟨?_, fun free => finished (free.imp_right ?_), cleanup⟩
      · cases asked with
        | none => simp
        | some data => simp
      · cases asked with
        | none => simp
        | some data => simp
  | unfed idle inbound | broken idle inbound => exact resting (.inr ⟨idle, _, inbound⟩)
  | unsent waits | overtaken waits =>
      rcases waits with ⟨records, call⟩ | ⟨record, size, call⟩
      all_goals
        rw [call] at midway
        obtain ⟨streams, phase⟩ := midway
        exact ⟨by simp [phase], streaming streams (by simp [phase]), streams.cleanup⟩
  | failed call result =>
      rw [call] at midway
      refine ⟨by simp [midway.1], fun _ => ?_, midway.2.2.2⟩
      rw [Writer.isOver, result]
      rfl
  | learned call =>
      rw [call] at midway
      obtain ⟨phase, finished, cleanup⟩ := midway
      refine ⟨?_, fun _ => finished, cleanup⟩
      rcases phase with phase | phase
      all_goals simp [phase]

theorem Stands.behind (stands : upload.Stands gone) (left : upload.cleanup ≠ .none) :
    gone ∧ upload.phase ≠ .done ∧ upload.phase ≠ .failed ∧ upload.call = .idle ∧
      upload.inbound = none ∧
        match upload.cleanup with
        | .none => True
        | .pending held =>
            upload.stopped = true ∧ (held = false → upload.writer.isOver = true)
        | .finished => upload.writer.isOver = true := by
  cases stands with
  | leaving dropped undone unfailed cleanup call inbound stopped finished =>
      rw [cleanup]
      exact ⟨dropped, undone, unfailed, call, inbound, stopped, finished⟩
  | left dropped undone unfailed cleanup call inbound finished =>
      rw [cleanup]
      exact ⟨dropped, undone, unfailed, call, inbound, finished⟩
  | receiving streams | writing streams | interrupted streams | sealing streams =>
      exact absurd streams.cleanup left
  | joining _ _ _ _ cleanup | asking _ _ _ cleanup | stopping _ _ _ _ cleanup
  | filing _ _ _ cleanup _ | withdrawing _ _ _ cleanup | failed _ _ _ cleanup
  | done _ _ _ cleanup | lost _ _ _ cleanup => exact absurd cleanup left

theorem Stands.pending {held : Bool} (stands : upload.Stands gone)
    (pending : upload.cleanup = .pending held) :
    gone ∧ upload.phase ≠ .done ∧ upload.phase ≠ .failed ∧ upload.call = .idle ∧
      upload.inbound = none ∧ upload.stopped = true ∧
        (held = false → upload.writer.isOver = true) := by
  have behind := stands.behind (by simp [pending])
  rw [pending] at behind
  exact behind

theorem Stands.over (stands : upload.Stands gone)
    (cleared : upload.phase = .failed ∨ upload.cleanup = .finished) :
    upload.writer.isOver = true := by
  rcases cleared with failed | finished
  · cases stands with
    | receiving _ phase | writing _ phase | interrupted _ phase | sealing _ phase
    | joining phase =>
        rw [phase] at failed
        cases failed
    | asking _ _ finished | withdrawing _ _ finished | failed _ _ finished => exact finished
    | filing _ _ writer | done _ _ writer =>
        rw [writer]
        rfl
    | stopping _ _ _ finished => exact finished (.inr failed)
    | leaving _ _ unfailed | left _ _ unfailed | lost _ _ unfailed => exact absurd failed unfailed
  · have behind := stands.behind (by simp [finished])
    rw [finished] at behind
    exact behind.2.2.2.2.2

/-- A blob is removed once the writer's task is over. -/
theorem Stands.clears {e : Error} (stands : upload.Stands gone) (clears : upload.Clears e) :
    upload.writer.isOver = true ∧ upload.cleanup = .none := by
  have midway := stands.midway
  rcases clears with call | ⟨held, call, free⟩
  · rw [call] at midway
    exact midway.2
  · rw [call] at midway
    obtain ⟨_, _, finished, cleanup⟩ := midway
    cases held with
    | true => exact ⟨free rfl, cleanup⟩
    | false => exact ⟨finished (.inl rfl), cleanup⟩

theorem Stands.over_of_pending {held : Bool} (stands : upload.Stands gone)
    (pending : upload.cleanup = .pending held)
    (free : held = true → upload.writer.isOver = true) : upload.writer.isOver = true := by
  cases held with
  | true => exact free rfl
  | false => exact (stands.pending pending).2.2.2.2.2.2 rfl

theorem Enters.streams (enters : upload.Enters act asked entered) (streams : upload.Streams) :
    entered.Streams := by
  rw [enters.same]
  exact streams.of_same ⟨rfl, rfl, rfl, rfl⟩

theorem Enters.phase (enters : upload.Enters act asked entered) :
    entered.phase = upload.phase := by
  rw [enters.same]

end

theorem ended_of_result {writer : Writer} {size : Nat} (result : writer.result? = some (.ok size)) :
    writer = .ended (.ok size) := by
  cases writer with
  | ended outcome =>
      cases result
      rfl
  | _ => cases result

section

variable {disk : Disk δ} {s s' : Spot δ} {act : Act} {gone : Prop}

/-- A dropped handle leaves an upload that streams to its cleanup, and one that
    is over as it is. -/
theorem Stands.drop {upload : Upload} {gone' : Prop} {inside : Bool}
    (stands : upload.Stands gone) (handle : ¬ gone) (ready : upload.IsReady) (dropped : gone') :
    (upload.drop inside).Stands gone' := by
  have leaves (streams : upload.Streams)
      (phase : upload.phase = .receiving ∨ upload.phase = .writing) :
      (upload.drop inside).Stands gone' := by
    have shape : upload.drop inside =
        { upload with
          call := .idle, inbound := none, encoder := none, stopped := true, sending := false
          held := false, cleanup := if inside then .pending true else .none } := by
      rcases phase with phase | phase
      all_goals
        rw [Upload.drop, phase, streams.held]
    have undone : upload.phase ≠ .done := by
      rcases phase with phase | phase
      all_goals simp [phase]
    have unfailed : upload.phase ≠ .failed := by
      rcases phase with phase | phase
      all_goals simp [phase]
    rw [shape]
    cases inside with
    | true => exact .leaving dropped undone unfailed rfl rfl rfl rfl (by simp)
    | false => exact .lost dropped undone unfailed rfl rfl rfl rfl
  cases stands with
  | receiving streams phase => exact leaves streams (.inl phase)
  | interrupted streams phase => exact leaves streams (.inr phase)
  | failed phase _ finished cleanup =>
      rw [Upload.drop, phase]
      exact .failed rfl (.inl rfl) finished cleanup
  | done phase _ writer cleanup =>
      rw [Upload.drop, phase]
      exact .done rfl (.inl ⟨rfl, rfl⟩) writer cleanup
  | leaving there | left there | lost there => exact absurd there handle
  | writing _ _ call | sealing _ _ call | joining _ call | asking _ call | stopping _ call
  | filing _ call | withdrawing _ call =>
      simp only [IsReady, call] at ready

theorem Stands.callerMoves {gone' : Prop} (stands : s.upload.Stands gone)
    (handle : act.takesHandle = true → ¬ gone) (behaves : s.upload.Behaves act)
    (moves : CallerMoves disk s act s') (more : gone → gone')
    (dropped : ∀ inside, act = .drop inside → gone') : s'.upload.Stands gone' := by
  -- A call that begins finds the upload at rest, one that goes on in its midst.
  have midway := stands.midway
  cases moves with
  | stop stops =>
      obtain ⟨phase, finished, cleanup⟩ := stands.stoppable handle stops
      exact .stopping phase rfl rfl finished cleanup
  | deny enters notReceiving notWriting =>
      rw [enters.phase] at notReceiving notWriting
      rcases stands.atRest enters.atRest handle with ⟨_, phase⟩ | ⟨phase, finished, cleanup⟩
      · exact (phase.elim notReceiving notWriting).elim
      · rw [enters.same]
        exact .failed phase (.inr ⟨_, rfl⟩) finished cleanup
  | fed mayCall =>
      rcases stands.atRest (.inl ⟨mayCall, rfl⟩) handle with
        ⟨streams, phase | phase⟩ | ⟨phase, finished, cleanup⟩
      · exact .receiving (streams.of_same ⟨rfl, rfl, rfl, rfl⟩) phase (.inl rfl)
      · exact .interrupted (streams.of_same ⟨rfl, rfl, rfl, rfl⟩) phase rfl
      · exact .failed phase (.inl rfl) finished cleanup
  | opened enters phase =>
      rw [enters.phase] at phase
      rcases stands.atRest enters.atRest handle with ⟨streams, _⟩ | ⟨failed, _⟩
      · exact .writing ((enters.streams streams).of_same ⟨rfl, rfl, rfl, rfl⟩) rfl rfl
      · rw [phase] at failed
        cases failed
  | sealed enters phase =>
      rw [enters.phase] at phase
      rcases stands.atRest enters.atRest handle with ⟨streams, _⟩ | ⟨failed, _⟩
      · exact .sealing ((enters.streams streams).of_same ⟨rfl, rfl, rfl, rfl⟩) rfl rfl
      · rw [phase] at failed
        cases failed
  | wrote call =>
      rw [call] at midway
      refine .receiving (midway.1.of_same ⟨rfl, rfl, rfl, rfl⟩) rfl ?_
      cases s.upload.inbound with
      | none => exact .inr rfl
      | some items => exact .inl rfl
  | handed call =>
      rw [call] at midway
      exact .writing (midway.1.of_same ⟨rfl, rfl, rfl, rfl⟩) midway.2 rfl
  | handedFinal call =>
      rw [call] at midway
      exact .joining midway.2 rfl rfl midway.1.running midway.1.cleanup
  | hungUp waits _ _ finished =>
      rcases waits with ⟨record, rest, call⟩ | ⟨record, size, call⟩
      · rw [call] at midway
        exact .asking (.inl midway.2) rfl finished midway.1.cleanup
      · rw [call] at midway
        exact .asking (.inr midway.2) rfl finished midway.1.cleanup
  | refused call stored =>
      rw [call] at midway
      exact .withdrawing midway.1 rfl (by rw [Writer.isOver, stored]; rfl) midway.2.2.2
  | staged call stored =>
      rw [call] at midway
      exact .filing midway.1 rfl (ended_of_result stored) midway.2.2.2 rfl
  | flushed call =>
      rw [call] at midway
      obtain ⟨phase, ⟨size, writer⟩, cleanup, own⟩ := midway
      exact .filing phase rfl writer cleanup own
  | filed call =>
      rw [call] at midway
      obtain ⟨_, ⟨size, writer⟩, cleanup, _⟩ := midway
      exact .done rfl (.inr ⟨_, rfl⟩) writer cleanup
  | unstaged call =>
      rw [call] at midway
      obtain ⟨phase, ⟨size, writer⟩, cleanup, _⟩ := midway
      exact .withdrawing phase rfl (by rw [writer]; rfl) cleanup
  | removed clears =>
      obtain ⟨finished, cleanup⟩ := stands.clears clears
      exact .failed rfl (.inr ⟨_, rfl⟩) finished cleanup
  | gaveUp =>
      obtain ⟨record, rest, call⟩ := behaves
      rw [call] at midway
      exact .interrupted (midway.1.of_same ⟨rfl, rfl, rfl, rfl⟩) midway.2 rfl
  | dropped => exact stands.drop (handle rfl) behaves (dropped _ rfl)
  | cancelled => exact stands.beside more _ _ true fun _ => rfl

theorem Stands.moves {gone' : Prop} (stands : s.upload.Stands gone)
    (handle : act.takesHandle = true → ¬ gone) (behaves : s.upload.Behaves act)
    (moves : Moves disk s act s') (more : gone → gone')
    (dropped : ∀ inside, act = .drop inside → gone') : s'.upload.Stands gone' := by
  cases moves with
  | caller moves => exact stands.callerMoves handle behaves moves more dropped
  | writer moves =>
      obtain ⟨runs, same⟩ := moves.same
      rw [same]
      exact stands.beside more _ _ s.upload.cancelled fun finished => by simp [runs] at finished
  | cleared pending free =>
      obtain ⟨dropped, undone, unfailed, call, inbound, _⟩ := stands.pending pending
      exact .left (more dropped) undone unfailed rfl call inbound
        (stands.over_of_pending pending free)

end

end Upload

end Strongroom
