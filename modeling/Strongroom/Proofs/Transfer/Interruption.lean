import Strongroom.Proofs.Transfer.Forwarding

/-! # Uploads with a write that was dropped

A write that is dropped before its answer leaves the upload in the midst of the
write, and that is the only trace of it. It is enough: no move takes it back, hands a
record over or leads to success, and a call can only abort the upload.
-/

namespace Strongroom

variable {δ : Type}

/-- A call is dropped, alone or with the handle. -/
inductive Act.IsDrop : Act → Prop where
  | giveUp : IsDrop .giveUp
  | drop {inside : Bool} : IsDrop (.drop inside)

/-- A call that goes on with an upload. -/
inductive Act.GoesOn : Act → Prop where
  | write {data : Bytes} : GoesOn (.write data)
  | commit : GoesOn .commit

/-- A write may wait in such a call. -/
def Call.holdsWrite : Call → Bool
  | .handOff _ | .joinForCause _ | .joinForAbort _ _ => true
  | _ => false

/-- A call that comes to no more than an error, or none. -/
def Call.isVain : Call → Bool
  | .idle | .joinForCause _ | .joinForAbort _ _ | .answered (.error _) => true
  | _ => false

namespace Upload

/-- A write waits: for room in the queue, for the writer, or for the blob to be
    removed. One that found the token fired may have left the phase as it was. -/
structure InWrite (upload : Upload) : Prop where
  phase : upload.phase = .writing ∨ upload.phase = .receiving ∧ upload.cancelled = true
  call : upload.call.holdsWrite = true

/-- A write on its own, outside a stream, waits or has its answer. -/
def Writes (upload : Upload) : Prop :=
  (upload.InWrite ∧ upload.inbound = none) ∨ (∃ e, upload.call = .answered (.error e)) ∨
    upload.call = .answered (.ok none)

/-- A write was dropped, and no call has succeeded since. -/
structure Interrupted (upload : Upload) : Prop where
  phase : upload.phase = .writing ∨ upload.phase = .receiving ∧ upload.cancelled = true ∨
    upload.phase = .failed
  call : upload.call.isVain = true

/-- What the next call tells. -/
def interruption (upload : Upload) : Error :=
  if upload.cancelled then .cancelled else interruptedError

/-- Between two calls, an upload that takes data is not fed from a stream. -/
def Unfed (upload : Upload) : Prop :=
  (∃ result, upload.call = .answered result) →
    upload.phase = .receiving ∨ upload.phase = .writing → upload.inbound = none

section

variable {disk : Disk δ} {s s' : Spot δ} {act : Act} {passage : Passage}

theorem Unfed.moves (unfed : s.upload.Unfed) (moves : Moves disk s act s') : s'.upload.Unfed := by
  rintro ⟨result, answered⟩ phase
  cases moves with
  | writer moves =>
      rw [moves.same.2] at answered phase ⊢
      exact unfed ⟨_, answered⟩ phase
  | cleared => exact unfed ⟨_, answered⟩ phase
  | caller moves =>
      cases moves with
      | deny _ notReceiving notWriting =>
          rcases phase with here | here
          · exact absurd here notReceiving
          · exact absurd here notWriting
      | wrote =>
          dsimp only at answered ⊢
          split at answered
          · cases answered
          · rename_i direct
            simpa using direct
      | filed | removed => simp at phase
      | cancelled => exact unfed ⟨_, answered⟩ phase
      | dropped => simp at answered
      | _ => cases answered

theorem Unfed.inbound {upload : Upload} (unfed : upload.Unfed) (mayCall : upload.MayCall)
    (phase : upload.phase = .receiving ∨ upload.phase = .writing) : upload.inbound = none := by
  have ready := mayCall.1
  unfold IsReady at ready
  split at ready
  · exact ready
  · rename_i result answered
    exact unfed ⟨result, answered⟩ phase
  · cases ready

theorem writes_of_begins {data : Bytes} (unfed : s.upload.Unfed)
    (moves : Moves disk s (.write data) s') : s'.upload.Writes := by
  cases moves with
  | caller moves =>
      cases moves with
      | stop stops =>
          cases stops with
          | fired enters phase fired =>
              cases enters with
              | write mayCall =>
                  refine .inl ⟨⟨?_, rfl⟩, unfed.inbound mayCall phase⟩
                  exact phase.symm.imp_right fun phase => ⟨phase, fired⟩
          | interrupted enters phase =>
              cases enters with
              | write mayCall =>
                  exact .inl ⟨⟨.inl phase, rfl⟩, unfed.inbound mayCall (.inr phase)⟩
          | unsealed enters phase =>
              cases enters with
              | write mayCall =>
                  exact .inl ⟨⟨.inl rfl, rfl⟩, unfed.inbound mayCall (.inl phase)⟩
      | deny => exact .inr (.inl ⟨_, rfl⟩)
      | opened enters phase =>
          cases enters with
          | write mayCall =>
              exact .inl ⟨⟨.inl rfl, rfl⟩, unfed.inbound mayCall (.inl phase)⟩
      | sealed enters => cases enters

theorem InWrite.not_enters {upload entered : Upload} {asked : Option Bytes}
    (inWrite : upload.InWrite) (enters : upload.Enters act asked entered)
    (held : act.takesHandle = false) : False := by
  have call := inWrite.call
  cases enters with
  | write | commit => cases held
  | item idle | finish idle =>
      rw [idle] at call
      cases call

/-- While nobody takes the handle, a write waits until it has its answer, or the
    stream goes on that feeds the upload. -/
theorem InWrite.moves (inWrite : s.upload.InWrite) (held : act.takesHandle = false)
    (moves : Moves disk s act s') :
    s'.upload.inbound = s.upload.inbound ∧
      (s'.upload.InWrite ∨ (∃ e, s'.upload.call = .answered (.error e)) ∨
        s'.upload.call = if s.upload.inbound.isSome then .idle else .answered (.ok none)) := by
  have phase := inWrite.phase
  have call := inWrite.call
  have other {here : Call} (same : s.upload.call = here) (never : here.holdsWrite = false) :
      False := by
    rw [same, never] at call
    cases call
  cases moves with
  | writer moves =>
      rw [moves.same.2]
      exact ⟨rfl, .inl ⟨phase, call⟩⟩
  | cleared => exact ⟨rfl, .inl ⟨phase, call⟩⟩
  | caller moves =>
      cases moves with
      | stop stops =>
          cases stops with
          | asked => cases held
          | fired here | interrupted here | unsealed here =>
              exact (inWrite.not_enters here held).elim
          | unfed here | broken here | failed here => exact (other here rfl).elim
          | unsent | overtaken | learned => exact ⟨rfl, .inl ⟨phase, rfl⟩⟩
      | deny here | opened here | sealed here => exact (inWrite.not_enters here held).elim
      | fed | gaveUp | dropped => cases held
      | wrote => exact ⟨rfl, .inr (.inr rfl)⟩
      | handed | hungUp => exact ⟨rfl, .inl ⟨phase, rfl⟩⟩
      | handedFinal here | refused here | staged here | flushed here | filed here
      | unstaged here => exact (other here rfl).elim
      | removed => exact ⟨rfl, .inr (.inl ⟨_, rfl⟩)⟩
      | cancelled => exact ⟨rfl, .inl ⟨phase.imp_right fun here => ⟨here.1, rfl⟩, call⟩⟩

theorem Writes.moves (writes : s.upload.Writes) (held : act.takesHandle = false)
    (moves : Moves disk s act s') : s'.upload.Writes := by
  rcases writes with ⟨inWrite, direct⟩ | ended
  · obtain ⟨inbound, goesOn⟩ := inWrite.moves held moves
    rw [direct] at inbound goesOn
    exact goesOn.imp_left fun inWrite => ⟨inWrite, inbound⟩
  · have answered : ∃ result, s.upload.call = .answered result := by
      rcases ended with ⟨e, call⟩ | call
      · exact ⟨_, call⟩
      · exact ⟨_, call⟩
    obtain ⟨result, call⟩ := answered
    rcases still_of_moves held moves (.inr ⟨result, call⟩) with
      ⟨same, _⟩ | ⟨_, _, _, _, here, _⟩
    · rw [← same] at ended
      exact .inr ended
    · cases here.symm.trans call

theorem Interrupted.handsOver {upload : Upload} (interrupted : upload.Interrupted) :
    upload.handsOver = false := by
  have call := interrupted.call
  unfold Upload.handsOver
  split
  · rename_i here
    rw [here] at call
    cases call
  · rename_i here
    rw [here] at call
    cases call
  · rfl

theorem Interrupted.not_open {upload entered : Upload} {asked : Option Bytes}
    (interrupted : upload.Interrupted) (enters : upload.Enters act asked entered)
    (receiving : entered.phase = .receiving) (quiet : entered.cancelled = false) : False := by
  have here := enters.phase.symm.trans receiving
  rcases interrupted.phase with phase | ⟨_, fired⟩ | phase
  · cases phase.symm.trans here
  · cases (enters.fired fired).symm.trans quiet
  · cases phase.symm.trans here

theorem Interrupted.phase_of_stops {upload next : Upload} {reason : Error}
    (interrupted : upload.Interrupted) (stops : upload.Stops act next reason) :
    next.phase = upload.phase := by
  cases stops with
  | fired enters | interrupted enters => exact enters.phase
  | unsealed enters receiving quiet => exact (interrupted.not_open enters receiving quiet).elim
  | _ => rfl

/-- Nothing takes back that a write was dropped, and nothing is handed over. -/
theorem Interrupted.callerMoves (interrupted : s.upload.Interrupted)
    (moves : CallerMoves disk s act s') :
    s'.upload.Interrupted ∧ s'.upload.queue = s.upload.queue := by
  have call := interrupted.call
  have other {here : Call} (same : s.upload.call = here) (never : here.isVain = false) :
      False := by
    rw [same, never] at call
    cases call
  have still {next : Upload} (same : next.phase = s.upload.phase)
      (fired : s.upload.cancelled = true → next.cancelled = true) :
      next.phase = .writing ∨ next.phase = .receiving ∧ next.cancelled = true ∨
        next.phase = .failed := by
    rw [same]
    exact interrupted.phase.imp_right fun rest => rest.imp_left fun here => ⟨here.1, fired here.2⟩
  cases moves with
  | stop stops =>
      have same := interrupted.phase_of_stops stops
      refine ⟨⟨still same stops.cancelled, rfl⟩, ?_⟩
      rw [stops.same]
      rfl
  | deny enters =>
      refine ⟨⟨still enters.phase enters.fired, rfl⟩, ?_⟩
      rw [enters.same]
      rfl
  | opened enters receiving quiet | sealed enters receiving quiet =>
      exact (interrupted.not_open enters receiving quiet).elim
  | wrote here | handed here | handedFinal here | refused here | staged here | flushed here
  | filed here | unstaged here => exact (other here rfl).elim
  | hungUp waits =>
      rcases waits with ⟨_, _, here⟩ | ⟨_, _, here⟩
      all_goals exact (other here rfl).elim
  | fed | gaveUp => exact ⟨⟨interrupted.phase, rfl⟩, rfl⟩
  | removed => exact ⟨⟨.inr (.inr rfl), rfl⟩, rfl⟩
  | @dropped inside =>
      refine ⟨⟨still drop_phase fun fired => ?_, ?_⟩, drop_queue⟩
      · unfold drop
        split
        all_goals exact fired
      · rw [drop_call]
        rfl
  | cancelled => exact ⟨⟨still rfl fun _ => rfl, call⟩, rfl⟩

theorem Interrupted.moves (interrupted : s.upload.Interrupted) (moves : Moves disk s act s') :
    s'.upload.Interrupted := by
  cases moves with
  | caller moves => exact (interrupted.callerMoves moves).1
  | writer moves =>
      rw [moves.same.2]
      exact ⟨interrupted.phase, interrupted.call⟩
  | cleared => exact ⟨interrupted.phase, interrupted.call⟩

theorem Interrupted.entered (interrupted : s.upload.Interrupted) (moves : Moves disk s act s') :
    (passage.after s.service s'.service s.upload s'.upload).entered s'.upload =
      passage.entered s.upload := by
  have calm := (interrupted.moves moves).handsOver
  cases moves with
  | caller moves =>
      rw [after_callerMoves passage moves (by simp [calm]), Passage.entered,
        (interrupted.callerMoves moves).2]
      rfl
  | writer moves =>
      obtain ⟨taken, after, same⟩ := after_writerMoves passage moves
      rw [after]
      exact same
  | cleared =>
      rw [after_cleared]
      rfl

theorem Interrupted.joins {upload : Upload} (interrupted : upload.Interrupted) (size : Nat) :
    upload.call ≠ .joinForSize size := by
  intro here
  have call := interrupted.call
  rw [here] at call
  cases call

theorem call_of_answer? {upload : Upload} {result : Except Error (Option FileRecord)}
    (answered : upload.answer? = some result) : upload.call = .answered result := by
  unfold Upload.answer? at answered
  split at answered
  · cases answered
    assumption
  · cases answered

theorem Interrupted.answer? {upload : Upload} (interrupted : upload.Interrupted)
    (result : Option FileRecord) : upload.answer? ≠ some (.ok result) := by
  intro answered
  have call := interrupted.call
  unfold Upload.answer? at answered
  split at answered
  · rename_i here
    cases answered
    rw [here] at call
    cases call
  · cases answered

/-- A call on an upload that still takes calls is refused, and aborts it. -/
theorem Interrupted.refuse? {upload : Upload} (interrupted : upload.Interrupted)
    (unfailed : upload.phase ≠ .failed) :
    upload.refuse? = some (upload.abort upload.interruption) := by
  rcases interrupted.phase with phase | ⟨phase, fired⟩ | failed
  · simp [Upload.refuse?, interruption, phase]
  · simp [Upload.refuse?, interruption, phase, fired]
  · exact absurd failed unfailed

theorem Interrupted.abortsBy {service : Service} {upload : Upload}
    (interrupted : upload.Interrupted) (unfailed : upload.phase ≠ .failed) (goesOn : act.GoesOn) :
    upload.AbortsBy service act upload.interruption := by
  have refused := interrupted.refuse? unfailed
  intro script offers
  cases goesOn with
  | write =>
      cases offers with
      | write => exact ⟨upload, by rw [Upload.write, refused]⟩
  | commit =>
      cases offers with
      | commit => exact ⟨upload, by rw [Upload.commit, refused]⟩

theorem upload_of_drops (drops : act.IsDrop) (moves : Moves disk s act s') :
    s'.upload = s.upload.giveUp ∨ ∃ inside, s'.upload = s.upload.drop inside := by
  cases drops with
  | drop => exact .inr ⟨_, drop_of_moves moves⟩
  | giveUp =>
      have begins {asked : Option Bytes} {entered : Upload}
          (enters : s.upload.Enters .giveUp asked entered) : False := by cases enters
      cases moves with
      | caller moves =>
          cases moves with
          | gaveUp => exact .inl rfl
          | deny enters | opened enters | sealed enters => exact (begins enters).elim
          | stop stops =>
              cases stops with
              | fired enters | interrupted enters | unsealed enters => exact (begins enters).elim

/-- A write that is dropped was interrupted, and leaves the upload between two calls. -/
theorem InWrite.dropped (inWrite : s.upload.InWrite) (drops : act.IsDrop)
    (moves : Moves disk s act s') :
    s'.upload.Interrupted ∧ s'.upload.phase = s.upload.phase ∧ s'.upload.call = .idle ∧
      s'.upload.inbound = none ∧ s'.upload.queue = s.upload.queue := by
  have phase := inWrite.phase.imp_right (Or.inl (b := s.upload.phase = .failed))
  rcases upload_of_drops drops moves with same | ⟨inside, same⟩
  all_goals rw [same]
  · exact ⟨⟨phase, rfl⟩, rfl, rfl, rfl, rfl⟩
  · have fired : (s.upload.drop inside).cancelled = s.upload.cancelled := by
      unfold drop
      split <;> rfl
    refine ⟨⟨?_, ?_⟩, drop_phase, drop_call, drop_inbound, drop_queue⟩
    · simpa only [drop_phase, fired] using phase
    · rw [drop_call]
      rfl

theorem drop_of_open {upload : Upload} (undone : upload.phase ≠ .done)
    (unfailed : upload.phase ≠ .failed) :
    (upload.drop true).stopped = true ∧ (upload.drop true).cleanup = .pending upload.held := by
  unfold drop
  split
  · exact absurd ‹_› undone
  · exact absurd ‹_› unfailed
  · exact ⟨rfl, rfl⟩

/-- A cleanup that is left behind comes to its end in at most two steps. -/
theorem comesWithin_of_pending {held : Bool} (stopped : s.upload.stopped = true)
    (pending : s.upload.cleanup = .pending held) :
    ComesWithin disk (fun act => act = .cleanup ∨ act = .writer) (·.cleanup = .finished) 2 s := by
  apply comesWithin_of_stopped stopped (.inr rfl)
  intro service writer ended
  have offered : ∃ script, { s.upload with writer }.cleanupStep service = some script := by
    simp [cleanupStep, pending, ended]
  obtain ⟨script, offered⟩ := offered
  refine ⟨.cleanup, script, .inl rfl, .cleanup offered, fun service' next d runs => ?_⟩
  simp only [cleanupStep, pending, ended, Bool.not_true, Bool.and_false,
    Bool.false_eq_true, if_false] at offered
  obtain rfl := Option.some.inj offered
  obtain ⟨_, _, _, rest⟩ := Script.runs_bind.1 runs
  obtain ⟨⟨⟩, rfl⟩ := Script.runs_pure.1 rest
  rfl

end

end Upload

end Strongroom
