import Strongroom.Proofs.Transfer.Aside

/-! # What an upload asks of the stores

Until its commit asks the catalog, an upload has asked neither for its record nor
for the removal of its blob. An upload whose record is in the catalog has asked
for it once, after its writer had stored the blob. One that has failed, or was
dropped, has removed its blob after its writer was over.
-/

namespace Strongroom

variable {δ : Type}

/-- Nothing is noted of a new record, or of the removal of a blob. -/
def Service.Murmurs (service service' : Service) : Prop :=
  ∃ events, service'.journal = events ++ service.journal ∧
    ∀ event ∈ events, event.verb ≠ .insert ∧ event.verb ≠ .remove

theorem Service.Murmurs.of_same {service service' : Service}
    (same : service'.journal = service.journal) : service.Murmurs service' :=
  ⟨[], same, by simp⟩

theorem WriterMoves.murmurs {disk : Disk δ} {s s' : Spot δ} (moves : WriterMoves disk s s') :
    s.service.Murmurs s'.service := by
  have noted {service : Service} {verb : Verb} {name : String}
      (same : service.journal = s.service.journal) (put : verb ≠ .insert ∧ verb ≠ .remove) :
      s.service.Murmurs (service.note verb name) :=
    ⟨[⟨verb, name⟩], congrArg (_ :: ·) same, by simpa using put⟩
  cases moves with
  | halted | arrived | stored | drains | drained => exact .of_same rfl
  | began opens => cases opens <;> exact .of_same rfl
  | notBegun opens => cases opens <;> exact noted rfl (by simp)
  | notStored _ _ _ verb =>
      rcases verb with rfl | rfl
      all_goals exact noted rfl (by simp)
  | closed | broke => exact noted rfl (by simp)
  | @endedDraining _ _ ending _ _ _ _ _ ended =>
      cases ending
      all_goals
        cases ended
        exact noted rfl (by simp)

/-- In a move the catalog is asked for the record of an upload, whose writer has
    ended with success. -/
def Asks (s s' : Spot δ) : Prop :=
  ∃ blobSize, s.upload.writer = .ended (.ok blobSize) ∧
    s'.service.journal = ⟨.insert, toString s.upload.fileId⟩ :: s.service.journal

/-- In a move the blob of an upload is removed, after its writer is over. -/
def Removes (disk : Disk δ) (s s' : Spot δ) : Prop :=
  s.upload.writer.isOver = true ∧ ∃ result,
    Script.Runs disk s.disk (s.service.removeBlob s.upload.blobName) (result, s'.service) s'.disk

namespace Upload

/-- The catalog was not asked for the record yet, and the handle is not dropped. -/
def Unfiled (upload : Upload) : Prop :=
  (upload.Streams ∧ (upload.phase = .receiving ∨ upload.phase = .writing)) ∨
    (∃ record size, upload.call = .handOffFinal record size) ∨
      ∃ size, upload.call = .joinForSize size

/-- The upload is over without a record, or was cleaned up after. -/
def IsCleared (upload : Upload) : Prop :=
  upload.phase = .failed ∨ upload.cleanup = .finished

section

variable {disk : Disk δ} {s s' : Spot δ} {act : Act} {gone : Prop}

theorem Stands.undone {upload : Upload} (stands : upload.Stands gone) (unfiled : upload.Unfiled) :
    upload.phase ≠ .done := by
  have midway := stands.midway
  rcases unfiled with ⟨_, phase | phase⟩ | ⟨_, _, call⟩ | ⟨_, call⟩
  · simp [phase]
  · simp [phase]
  · rw [call] at midway
    simp [midway.2]
  · rw [call] at midway
    simp [midway.1]

theorem not_unfiled {upload : Upload}
    (idle : upload.Streams → upload.phase = .receiving ∨ upload.phase = .writing → False)
    (final : ∀ record size, upload.call ≠ .handOffFinal record size)
    (joins : ∀ size, upload.call ≠ .joinForSize size) : ¬ upload.Unfiled := by
  rintro (⟨streams, phase⟩ | ⟨record, size, call⟩ | ⟨size, call⟩)
  · exact idle streams phase
  · exact final record size call
  · exact joins size call

/-- An upload that has asked for nothing had asked for nothing before. -/
theorem Stands.unfiled_moves (stands : s.upload.Stands gone)
    (handle : act.takesHandle = true → ¬ gone) (behaves : s.upload.Behaves act)
    (moves : Moves disk s act s') (unfiled : s'.upload.Unfiled) :
    s.upload.Unfiled ∧ s.service.Murmurs s'.service := by
  have midway := stands.midway
  have resting (rest : s.upload.AtRest act) (unfailed : s.upload.phase ≠ .failed) :
      s.upload.Unfiled :=
    .inl ((stands.atRest rest handle).resolve_right fun failed => unfailed failed.1)
  cases moves with
  | writer moves =>
      refine ⟨?_, moves.murmurs⟩
      rw [moves.same.2] at unfiled
      rcases unfiled with ⟨streams, phase⟩ | call
      · exact .inl ⟨streams.of_same ⟨rfl, rfl, rfl, rfl⟩, phase⟩
      · exact .inr call
  | cleared pending =>
      obtain ⟨_, _, _, call, _⟩ := stands.pending pending
      refine absurd unfiled (not_unfiled (fun streams _ => ?_) (by simp [call]) (by simp [call]))
      cases streams.cleanup
  | caller moves =>
      cases moves with
      | stop =>
          refine absurd unfiled
            (not_unfiled (fun streams _ => ?_) (by simp [abort]) (by simp [abort]))
          cases streams.sending
      | deny enters notReceiving notWriting =>
          refine absurd unfiled
            (not_unfiled (fun _ phase => ?_) (by simp [answer]) (by simp [answer]))
          exact phase.elim notReceiving notWriting
      | fed mayCall =>
          refine ⟨resting (.inl ⟨mayCall, rfl⟩) fun failed => ?_, .of_same rfl⟩
          exact absurd unfiled (not_unfiled (by simp [failed]) (by simp) (by simp))
      | opened enters phase | sealed enters phase =>
          rw [enters.phase] at phase
          exact ⟨resting enters.atRest (by simp [phase]), .of_same rfl⟩
      | wrote call | handed call =>
          rw [call] at midway
          exact ⟨.inl ⟨midway.1, .inr midway.2⟩, .of_same rfl⟩
      | handedFinal call => exact ⟨.inr (.inl ⟨_, _, call⟩), .of_same rfl⟩
      | hungUp =>
          refine absurd unfiled (not_unfiled (fun streams _ => ?_) (by simp) (by simp))
          cases streams.sending
      | refused call | staged call | flushed call | unstaged call =>
          rw [call] at midway
          exact absurd unfiled (not_unfiled (by simp [midway.1]) (by simp) (by simp))
      | filed | removed =>
          exact absurd unfiled (not_unfiled (by simp) (by simp) (by simp))
      | gaveUp =>
          obtain ⟨record, rest, call⟩ := behaves
          rw [call] at midway
          exact ⟨.inl ⟨midway.1, .inr midway.2⟩, .of_same rfl⟩
      | dropped =>
          refine absurd unfiled (not_unfiled (fun streams _ => ?_) (by simp) (by simp))
          cases drop_held.symm.trans streams.held
      | cancelled =>
          refine ⟨?_, .of_same rfl⟩
          rcases unfiled with ⟨streams, phase⟩ | call
          · exact .inl ⟨streams.of_same ⟨rfl, rfl, rfl, rfl⟩, phase⟩
          · exact .inr call

/-- A record comes to the catalog when it is asked for, and not otherwise. -/
theorem Stands.inCatalog_of_moves (stands : s.upload.Stands gone)
    (handle : act.takesHandle = true → ¬ gone) (moves : Moves disk s act s')
    (filed : s'.upload.InCatalog) :
    (s.upload.InCatalog ∧ s.service.Murmurs s'.service) ∨
      (s.upload.Unfiled ∧ act = .caller ∧ Asks s s') := by
  have midway := stands.midway
  -- A move that leaves the phase alone and notes nothing.
  have kept (silent : s'.service.journal = s.service.journal)
      (phase : s'.upload.phase = s.upload.phase)
      (other : ∀ record rest, s'.upload.call ≠ .flushing record rest) :
      (s.upload.InCatalog ∧ s.service.Murmurs s'.service) ∨
        (s.upload.Unfiled ∧ act = .caller ∧ Asks s s') := by
    rcases filed with done | ⟨record, rest, call⟩
    · exact .inl ⟨.inl (phase.symm.trans done), .of_same silent⟩
    · exact absurd call (other record rest)
  have never (phase : s'.upload.phase ≠ .done)
      (other : ∀ record rest, s'.upload.call ≠ .flushing record rest) : False := by
    rcases filed with done | ⟨record, rest, call⟩
    · exact phase done
    · exact other record rest call
  cases moves with
  | writer moves =>
      refine .inl ⟨?_, moves.murmurs⟩
      rw [moves.same.2] at filed
      exact filed
  | cleared pending =>
      obtain ⟨_, undone, _, call, _⟩ := stands.pending pending
      exact (never undone (by simp [call])).elim
  | caller moves =>
      cases moves with
      | stop stops => exact (never (stands.stoppable handle stops).1 (by simp [abort])).elim
      | deny enters => exact kept rfl enters.phase (by simp [answer])
      | opened | sealed => exact (never (by simp) (by simp)).elim
      | fed | handed | handedFinal | hungUp | unstaged | gaveUp =>
          exact kept rfl rfl (by simp [giveUp])
      | wrote =>
          refine (never (by simp) fun record rest => ?_).elim
          dsimp only
          split
          all_goals simp
      | refused call =>
          rw [call] at midway
          exact (never (by simp [midway.1]) (by simp)).elim
      | staged call stored =>
          exact .inr ⟨.inr (.inr ⟨_, call⟩), rfl, _, ended_of_result stored, rfl⟩
      | flushed call | filed call => exact .inl ⟨.inr ⟨_, _, call⟩, .of_same rfl⟩
      | removed => exact (never (by simp) (by simp)).elim
      | dropped => exact kept rfl drop_phase (by simp)
      | cancelled => exact .inl ⟨filed, .of_same rfl⟩

theorem Stops.phase_failed {upload next : Upload} {reason : Error}
    (stops : upload.Stops act next reason) (failed : next.phase = .failed) :
    upload.phase = .failed := by
  cases stops with
  | fired enters | interrupted enters => exact enters.phase.symm.trans failed
  | @unsealed act asked =>
      cases asked with
      | none => cases failed
      | some data => cases failed
  | _ => exact failed

theorem Stands.cleared_of_moves (stands : s.upload.Stands gone)
    (moves : Moves disk s act s') (cleared : s'.upload.IsCleared) :
    (s.upload.IsCleared ∧ s'.service.journal = s.service.journal ∧
        s'.service.blobs = s.service.blobs ∧ s'.disk = s.disk) ∨
      ((act = .caller ∨ act = .cleanup) ∧ Removes disk s s') := by
  have midway := stands.midway
  have quiet (phase : s'.upload.phase = .failed → s.upload.phase = .failed)
      (cleanup : s'.upload.cleanup = .finished → s.upload.cleanup = .finished)
      (journal : s'.service.journal = s.service.journal)
      (blobs : s'.service.blobs = s.service.blobs) (same : s'.disk = s.disk) :
      (s.upload.IsCleared ∧ s'.service.journal = s.service.journal ∧
          s'.service.blobs = s.service.blobs ∧ s'.disk = s.disk) ∨
        ((act = .caller ∨ act = .cleanup) ∧ Removes disk s s') :=
    .inl ⟨cleared.imp phase cleanup, journal, blobs, same⟩
  have never (phase : s.upload.phase = .committing) (cleanup : s.upload.cleanup = .none)
      (phase' : s'.upload.phase = s.upload.phase)
      (cleanup' : s'.upload.cleanup = s.upload.cleanup) : False := by
    rcases cleared with failed | finished
    · rw [phase', phase] at failed
      cases failed
    · rw [cleanup', cleanup] at finished
      cases finished
  cases moves with
  | writer moves =>
      obtain ⟨runs, same⟩ := moves.same
      rw [same] at cleared
      rw [stands.over cleared] at runs
      cases runs
  | cleared pending free runs =>
      exact .inr ⟨.inr rfl, stands.over_of_pending pending free, _, runs⟩
  | caller moves =>
      cases moves with
      | stop stops =>
          refine quiet stops.phase_failed ?_ rfl rfl rfl
          rw [stops.same]
          exact id
      | deny enters =>
          refine quiet (fun failed => enters.phase.symm.trans failed) ?_ rfl rfl rfl
          rw [enters.same]
          exact id
      | fed | handed | handedFinal | hungUp | unstaged | gaveUp | cancelled =>
          exact quiet id id rfl rfl rfl
      | opened enters | sealed enters =>
          refine quiet (by simp) ?_ rfl rfl rfl
          rw [enters.same]
          exact id
      | wrote | filed => exact quiet (by simp) id rfl rfl rfl
      | refused call | staged call =>
          rw [call] at midway
          exact (never midway.1 midway.2.2.2 rfl rfl).elim
      | flushed call =>
          rw [call] at midway
          exact (never midway.1 midway.2.2.1 rfl rfl).elim
      | removed clears runs => exact .inr ⟨.inl rfl, (stands.clears clears).1, _, runs⟩
      | dropped =>
          refine quiet (by simp) (fun finished => ?_) rfl rfl rfl
          rcases drop_cleanup _ _ with ⟨_, same⟩ | left
          · exact same.symm.trans finished
          · simp only [left] at finished
            split at finished
            all_goals cases finished

/-- What the answer of the last call tells. -/
theorem Stands.answered {upload : Upload} (stands : upload.Stands gone)
    {result : Except Error (Option FileRecord)} (answer : upload.answer? = some result) :
    (result = .ok none ∧ upload.phase = .receiving) ∨
      (∃ e, result = .error e ∧ upload.phase = .failed) ∨
        ∃ record, result = .ok (some record) ∧ upload.phase = .done := by
  unfold answer? at answer
  cases stands with
  | receiving _ phase call =>
      rcases call with call | call
      all_goals
        rw [call] at answer
        cases answer
      exact .inl ⟨rfl, phase⟩
  | failed phase call =>
      rcases call with call | ⟨e, call⟩
      all_goals
        rw [call] at answer
        cases answer
      exact .inr (.inl ⟨e, rfl, phase⟩)
  | done phase call =>
      rcases call with ⟨call, _⟩ | ⟨record, call⟩
      all_goals
        rw [call] at answer
        cases answer
      exact .inr (.inr ⟨record, rfl, phase⟩)
  | writing _ _ call | interrupted _ _ call | sealing _ _ call | joining _ call | asking _ call
  | stopping _ call | filing _ call | withdrawing _ call | leaving _ _ _ _ call | left _ _ _ _ call
  | lost _ _ _ _ call =>
      rw [call] at answer
      cases answer

/-- A handle that was dropped inside the runtime leaves nothing under way but
    the writer's task and the cleanup. -/
structure Parted (upload : Upload) : Prop where
  call : upload.call = .idle
  inbound : upload.inbound = none
  held : upload.held = false
  ends : upload.phase = .done ∨ upload.phase = .failed ∨ upload.cleanup ≠ .none

theorem parted_drop {upload : Upload} : (upload.drop true).Parted := by
  refine ⟨drop_call, drop_inbound, drop_held, ?_⟩
  rw [drop_phase]
  rcases drop_cleanup upload true with ⟨done | failed, _⟩ | left
  · exact .inl done
  · exact .inr (.inl failed)
  · exact .inr (.inr (by simp [left]))

theorem drop_of_moves {inside : Bool} (moves : Moves disk s (.drop inside) s') :
    s'.upload = s.upload.drop inside := by
  have enters {asked : Option Bytes} {entered : Upload}
      (enters : s.upload.Enters (.drop inside) asked entered) : False := by cases enters
  cases moves with
  | caller moves =>
      cases moves with
      | dropped => rfl
      | deny here | opened here | sealed here => exact (enters here).elim
      | stop stops =>
          cases stops with
          | fired here | interrupted here | unsealed here => exact (enters here).elim

theorem idle_of_moves (idle : s.upload.call = .idle) (unfed : s.upload.inbound = none)
    (handle : act.takesHandle = false) (moves : Moves disk s act s') :
    (∃ queue writer cancelled, s'.upload = { s.upload with queue, writer, cancelled }) ∨
      act = .cleanup ∧ s'.upload = { s.upload with cleanup := .finished } ∧
        (∃ held, s.upload.cleanup = .pending held) ∧ ∃ result,
          Script.Runs disk s.disk (s.service.removeBlob s.upload.blobName)
            (result, s'.service) s'.disk := by
  have enters {asked : Option Bytes} {entered : Upload}
      (enters : s.upload.Enters act asked entered) : False := by
    cases enters with
    | write | commit => cases handle
    | item _ inbound | finish _ inbound =>
        rw [unfed] at inbound
        cases inbound
  have calls {call : Call} (here : s.upload.call = call) (busy : call ≠ .idle) : False :=
    busy (here.symm.trans idle)
  cases moves with
  | writer moves => exact .inl ⟨_, _, _, moves.same.2⟩
  | cleared pending _ runs => exact .inr ⟨rfl, rfl, ⟨_, pending⟩, _, runs⟩
  | caller moves =>
      cases moves with
      | stop stops =>
          exfalso
          cases stops with
          | asked => cases handle
          | fired here | interrupted here | unsealed here => exact enters here
          | unfed _ inbound | broken _ inbound =>
              rw [unfed] at inbound
              cases inbound
          | unsent waits | overtaken waits =>
              rcases waits with ⟨_, call⟩ | ⟨_, _, call⟩
              all_goals exact calls call (by simp)
          | failed call | learned call => exact calls call (by simp)
      | deny here | opened here | sealed here => exact (enters here).elim
      | fed | gaveUp | dropped => cases handle
      | wrote call | handed call | handedFinal call | refused call | staged call | flushed call
      | filed call | unstaged call => exact (calls call (by simp)).elim
      | hungUp waits =>
          rcases waits with ⟨_, _, call⟩ | ⟨_, _, call⟩
          all_goals exact (calls call (by simp)).elim
      | removed clears =>
          rcases clears with call | ⟨_, call, _⟩
          all_goals exact (calls call (by simp)).elim
      | cancelled => exact .inl ⟨_, _, true, rfl⟩

theorem Parted.moves (parted : s.upload.Parted) (handle : act.takesHandle = false)
    (moves : Moves disk s act s') : s'.upload.Parted := by
  rcases idle_of_moves parted.call parted.inbound handle moves with
    ⟨_, _, _, same⟩ | ⟨_, same, _⟩
  all_goals rw [same]
  · exact ⟨parted.call, parted.inbound, parted.held, parted.ends⟩
  · exact ⟨parted.call, parted.inbound, parted.held, .inr (.inr (by simp))⟩

end

end Upload

end Strongroom
