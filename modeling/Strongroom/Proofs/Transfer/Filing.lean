import Strongroom.Proofs.Transfer.Errands

/-! # Records on their way to the catalog

The commit of an upload brings its record to the catalog: it is there while it
is flushed, and stays unless the flush fails. Once the flush has succeeded
nothing that the upload does takes it back.
-/

namespace Strongroom

variable {δ : Type}

namespace Upload

/-- The catalog may hold the record of the upload. -/
def InCatalog (upload : Upload) : Prop :=
  upload.phase = .done ∨ ∃ record rest, upload.call = .flushing record rest

section

variable {disk : Disk δ} {s s' : Spot δ} {act : Act} {gone : Prop}

theorem Stands.done_moves (stands : s.upload.Stands gone)
    (handle : act.takesHandle = true → ¬ gone) (moves : Moves disk s act s')
    (done : s.upload.phase = .done) : s'.upload.phase = .done := by
  have resting (rest : s.upload.AtRest act) : False := by
    rcases stands.atRest rest handle with ⟨_, phase | phase⟩ | ⟨phase, _⟩
    all_goals
      rw [done] at phase
      cases phase
  have midway := stands.midway
  rw [done] at midway
  cases moves with
  | writer moves => exact (congrArg Upload.phase moves.same.2).trans done
  | cleared => exact done
  | caller moves =>
      cases moves with
      | stop stops =>
          have undone := (stands.stoppable handle stops).1
          cases stops with
          | asked mayCall => exact (resting (.inl ⟨mayCall, rfl⟩)).elim
          | fired enters | interrupted enters | unsealed enters =>
              exact (resting enters.atRest).elim
          | unfed idle inbound | broken idle inbound =>
              exact (resting (.inr ⟨idle, _, inbound⟩)).elim
          | unsent | overtaken | failed | learned => exact absurd done undone
      | deny enters | opened enters | sealed enters => exact (resting enters.atRest).elim
      | fed mayCall => exact absurd done mayCall.2
      | filed => rfl
      | wrote call | handed call | handedFinal call | refused call | staged call | flushed call
      | unstaged call =>
          rw [call] at midway
          simp at midway
      | hungUp waits =>
          rcases waits with ⟨record, rest, call⟩ | ⟨record, size, call⟩
          all_goals
            rw [call] at midway
            simp at midway
      | removed clears =>
          rcases clears with call | ⟨held, call, _⟩
          all_goals
            rw [call] at midway
            simp at midway
      | gaveUp | cancelled => exact done
      | dropped =>
          exact drop_phase.trans done

theorem flushing_moves {record : FileRecord} {rest : Script (Except Error Unit)}
    (call : s.upload.call = .flushing record rest) (behaves : s.upload.Behaves act)
    (moves : Moves disk s act s') :
    s'.upload.call = .flushing record rest ∨
      (∃ step next reply, rest = .step step next ∧
        s'.upload.call = .flushing record (next reply)) ∨
      (rest = .done (.ok ()) ∧ s'.upload.phase = .done) ∨
      ∃ e, rest = .done (.error e) ∧
        s'.service.catalog = s.service.catalog.unstageFile record.id := by
  -- Calls begin at rest, and every other move goes on with a call of another kind.
  have resting (rest : s.upload.AtRest act) : False := by
    rcases rest with ⟨⟨ready, _⟩, _⟩ | ⟨idle, _⟩
    · rw [IsReady, call] at ready
      exact ready
    · rw [call] at idle
      cases idle
  have other {call' : Call} (here : s.upload.call = call')
      (differs : ∀ record rest, call' ≠ .flushing record rest) : False :=
    differs record rest (here.symm.trans call)
  cases moves with
  | writer moves => exact .inl ((congrArg Upload.call moves.same.2).trans call)
  | cleared => exact .inl call
  | caller moves =>
      cases moves with
      | stop stops =>
          cases stops with
          | asked mayCall => exact (resting (.inl ⟨mayCall, rfl⟩)).elim
          | fired enters | interrupted enters | unsealed enters =>
              exact (resting enters.atRest).elim
          | unfed idle inbound | broken idle inbound =>
              exact (resting (.inr ⟨idle, _, inbound⟩)).elim
          | unsent waits | overtaken waits =>
              rcases waits with ⟨records, here⟩ | ⟨record, size, here⟩
              all_goals exact (other here (by simp)).elim
          | failed here | learned here => exact (other here (by simp)).elim
      | deny enters | opened enters | sealed enters => exact (resting enters.atRest).elim
      | fed mayCall => exact (resting (.inl ⟨mayCall, rfl⟩)).elim
      | wrote here | handed here | handedFinal here | refused here | staged here =>
          exact (other here (by simp)).elim
      | hungUp waits =>
          rcases waits with ⟨record, rest, here⟩ | ⟨record, size, here⟩
          all_goals exact (other here (by simp)).elim
      | removed clears =>
          rcases clears with here | ⟨held, here, _⟩
          all_goals exact (other here (by simp)).elim
      | flushed here =>
          cases call.symm.trans here
          exact .inr (.inl ⟨_, _, _, rfl, rfl⟩)
      | filed here =>
          cases call.symm.trans here
          exact .inr (.inr (.inl ⟨rfl, rfl⟩))
      | unstaged here =>
          cases call.symm.trans here
          exact .inr (.inr (.inr ⟨_, rfl, rfl⟩))
      | gaveUp =>
          obtain ⟨record, rest, here⟩ := behaves
          exact (other here (by simp)).elim
      | dropped =>
          rw [Behaves, IsReady, call] at behaves
          exact behaves.elim
      | cancelled => exact .inl call

/-- A record stays in the catalog unless its flush fails. -/
theorem Stands.inCatalog_moves (stands : s.upload.Stands gone)
    (handle : act.takesHandle = true → ¬ gone) (behaves : s.upload.Behaves act)
    (moves : Moves disk s act s') (filed : s.upload.InCatalog) :
    s'.upload.InCatalog ∨
      ∃ record e, s.upload.call = .flushing record (.done (.error e)) ∧
        s'.service.catalog = s.service.catalog.unstageFile record.id := by
  rcases filed with done | ⟨record, rest, call⟩
  · exact .inl (.inl (stands.done_moves handle moves done))
  · rcases flushing_moves call behaves moves with
      same | ⟨step, next, reply, rfl, call'⟩ | ⟨rfl, done⟩ | ⟨e, rfl, gone⟩
    · exact .inl (.inr ⟨record, rest, same⟩)
    · exact .inl (.inr ⟨record, next reply, call'⟩)
    · exact .inl (.inl done)
    · exact .inr ⟨record, e, call, gone⟩

/-- The catalog has taken the record of the upload. -/
def Filed (upload : Upload) : Prop :=
  upload.phase = .done ∨ ∃ record, upload.call = .flushing record (.done (.ok ()))

theorem Stands.filed_moves (stands : s.upload.Stands gone)
    (handle : act.takesHandle = true → ¬ gone) (behaves : s.upload.Behaves act)
    (moves : Moves disk s act s') (filed : s.upload.Filed) : s'.upload.Filed := by
  rcases filed with done | ⟨record, call⟩
  · exact .inl (stands.done_moves handle moves done)
  · rcases flushing_moves call behaves moves with
      same | ⟨_, _, _, other, _⟩ | ⟨_, done⟩ | ⟨_, other, _⟩
    · exact .inr ⟨record, same⟩
    · cases other
    · exact .inl done
    · cases other

end

end Upload

end Strongroom
