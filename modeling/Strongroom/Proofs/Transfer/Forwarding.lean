import Strongroom.Proofs.Transfer.Aborts
import Strongroom.Proofs.Transfer.Ledger

/-! # What writes hand over

Wherever calls are given up, the records that have entered the queue of an upload
are those that its writer took and those that wait there still. While an upload takes
data these are all that its writes have made, so a write that succeeds has handed
over every record.
-/

namespace Strongroom

variable {δ : Type}

/-- Records that have entered the queue of an upload. -/
def Passage.entered (passage : Passage) (upload : Upload) : List Bytes :=
  passage.taken ++ upload.queue

namespace Upload

/-- What has entered the queue is what had entered it earlier with all that was made
    since, but for what the write under way has still to hand over. -/
structure Forwards (earlier : List Bytes) (passage : Passage) (upload : Upload) : Prop where
  handing : ∀ records, upload.call = .handOff records →
    passage.entered upload ++ records = earlier ++ passage.made
  wrote : upload.call = .answered (.ok none) → passage.entered upload = earlier ++ passage.made
  ready : upload.phase = .receiving → upload.encoder.isSome →
    passage.entered upload = earlier ++ passage.made

section

variable {disk : Disk δ} {s s' : Spot δ} {act : Act} {passage : Passage} {earlier : List Bytes}

theorem queue_writerMoves (moves : WriterMoves disk s s') :
    ∃ popped, s.upload.queue = popped ++ s'.upload.queue := by
  cases moves with
  | stored _ _ waits | notStored _ _ waits | drained _ _ waits => exact ⟨[_], waits⟩
  | @endedDraining _ _ ending _ _ _ _ _ ended =>
      refine ⟨[], ?_⟩
      cases ending with
      | fail | early | stall | panic =>
          cases ended
          rfl
  | _ => exact ⟨[], rfl⟩

theorem after_writerMoves (passage : Passage) (moves : WriterMoves disk s s') :
    ∃ taken, passage.after s.service s'.service s.upload s'.upload = { passage with taken } ∧
      taken ++ s'.upload.queue = passage.entered s.upload := by
  obtain ⟨popped, split⟩ := queue_writerMoves moves
  have calm : s'.upload.handsOver = true → s.upload.handsOver = true := by
    rw [moves.same.2]
    exact id
  refine ⟨passage.taken ++ popped, Passage.after_popped calm split, ?_⟩
  rw [Passage.entered, split, List.append_assoc]

theorem after_callerMoves (passage : Passage) (moves : CallerMoves disk s act s')
    (calm : s'.upload.handsOver = true → s.upload.handsOver = true) :
    passage.after s.service s'.service s.upload s'.upload = passage := by
  refine Passage.after_beside calm ?_
  rcases queue_callerMoves moves with same | ⟨_, more, _⟩
  all_goals simp [*]

theorem after_cleared {service service' : Service} {upload : Upload} :
    passage.after service service' upload { upload with cleanup := .finished } = passage :=
  Passage.after_beside (fun hands => hands) (Nat.le_refl _)

theorem Forwards.of_same {upload next : Upload} {passage' : Passage}
    (forwards : upload.Forwards earlier passage) (made : passage'.made = passage.made)
    (entered : passage'.entered next = passage.entered upload)
    (same : next.call = upload.call ∧ next.phase = upload.phase ∧ next.encoder = upload.encoder) :
    next.Forwards earlier passage' := by
  obtain ⟨call, phase, encoder⟩ := same
  refine ⟨?_, ?_, ?_⟩
  · rw [call, entered, made]
    exact forwards.handing
  · rw [call, entered, made]
    exact forwards.wrote
  · rw [phase, encoder, entered, made]
    exact forwards.ready

theorem Enters.handsOver {upload entered : Upload} {asked : Option Bytes}
    (enters : upload.Enters act asked entered) : upload.handsOver = false :=
  enters.atRest.handsOver

theorem Forwards.callerMoves (forwards : s.upload.Forwards earlier passage)
    (sound : s.upload.Sound) (moves : CallerMoves disk s act s') :
    s'.upload.Forwards earlier (passage.after s.service s'.service s.upload s'.upload) := by
  have midway := sound.call
  have after (calm : s'.upload.handsOver = true → s.upload.handsOver = true) :
      passage.after s.service s'.service s.upload s'.upload = passage :=
    after_callerMoves passage moves calm
  -- A move after which no write goes on or has succeeded, and nothing more is taken.
  have shut (hands : ∀ records, s'.upload.call ≠ .handOff records)
      (wrote : s'.upload.call ≠ .answered (.ok none))
      (other : s'.upload.phase ≠ .receiving ∨ s'.upload.encoder = none) :
      s'.upload.Forwards earlier (passage.after s.service s'.service s.upload s'.upload) :=
    ⟨fun _ call => absurd call (hands _), fun call => absurd call wrote, fun phase present => by
      rcases other with different | gone
      · exact absurd phase different
      · rw [gone] at present
        cases present⟩
  -- A move that leaves the queue and the encoder alone.
  have kept (hands : s'.upload.handsOver = false) (queue : s'.upload.queue = s.upload.queue)
      (wrote : s'.upload.call ≠ .answered (.ok none))
      (phase : s'.upload.phase = s.upload.phase) (encoder : s'.upload.encoder = s.upload.encoder) :
      s'.upload.Forwards earlier (passage.after s.service s'.service s.upload s'.upload) := by
    refine ⟨fun _ call => ?_, fun call => absurd call wrote, fun here present => ?_⟩
    · simp [handsOver, call] at hands
    · rw [after (by simp [hands]), Passage.entered, queue]
      exact forwards.ready (phase ▸ here) (encoder ▸ present)
  cases moves with
  | stop => exact shut (by simp [abort]) (by simp [abort]) (.inr rfl)
  | deny _ notReceiving => exact shut (by simp [answer]) (by simp [answer]) (.inl notReceiving)
  | fed => exact kept rfl rfl (by simp) rfl rfl
  | gaveUp => exact kept rfl rfl (by simp [giveUp]) rfl rfl
  | opened enters receiving quiet present wrote =>
      rw [enters.same] at receiving present
      have entered := forwards.ready receiving (Option.isSome_iff_exists.2 ⟨_, present⟩)
      rw [Passage.after_sealed enters.handsOver rfl (by rw [enters.same])]
      refine ⟨fun records call => ?_, fun call => (by cases call), fun phase => (by cases phase)⟩
      cases call
      rw [Passage.entered, enters.same, ← List.append_assoc, ← entered]
      rfl
  | sealed => exact shut (by simp) (by simp) (.inl (by simp))
  | wrote call =>
      have entered := forwards.handing _ call
      rw [List.append_nil] at entered
      have hands : s.upload.handsOver = true := by rw [handsOver, call]
      rw [after fun _ => hands]
      refine ⟨fun records here => ?_, fun _ => entered, fun _ _ => entered⟩
      dsimp only at here
      split at here
      all_goals cases here
  | handed call =>
      have entered := forwards.handing _ call
      have hands : s.upload.handsOver = true := by rw [handsOver, call]
      rw [call] at midway
      rw [after fun _ => hands]
      refine ⟨fun records here => ?_, fun here => (by cases here), fun phase => ?_⟩
      · cases here
        rw [← entered]
        simp [Passage.entered]
      · cases midway.1.symm.trans phase
  | handedFinal call =>
      rw [call] at midway
      exact shut (by simp) (by simp) (.inl (by simp [midway.1]))
  | hungUp waits =>
      refine shut (by simp) (by simp) (.inl ?_)
      rcases waits with ⟨_, _, call⟩ | ⟨_, _, call⟩
      all_goals
        rw [call] at midway
        simp [midway.1]
  | refused call | staged call | flushed call | unstaged call =>
      rw [call] at midway
      exact shut (by simp) (by simp) (.inl (by simp [midway]))
  | filed => exact shut (by simp) (by simp) (.inl (by simp))
  | removed => exact shut (by simp) (by simp) (.inl (by simp))
  | @dropped inside =>
      refine shut (by simp) (by simp) ?_
      unfold drop
      split
      · rename_i done
        exact .inl (by simp [done])
      · rename_i failed
        exact .inl (by simp [failed])
      · exact .inr rfl
  | cancelled =>
      rw [after fun hands => hands]
      exact forwards.of_same rfl rfl ⟨rfl, rfl, rfl⟩

theorem Forwards.moves (forwards : s.upload.Forwards earlier passage)
    (sound : s.upload.Sound) (moves : Moves disk s act s') :
    s'.upload.Forwards earlier (passage.after s.service s'.service s.upload s'.upload) := by
  cases moves with
  | caller moves => exact forwards.callerMoves sound moves
  | writer moves =>
      obtain ⟨taken, after, same⟩ := after_writerMoves passage moves
      rw [after]
      refine forwards.of_same rfl same ?_
      rw [moves.same.2]
      exact ⟨rfl, rfl, rfl⟩
  | cleared =>
      rw [after_cleared]
      exact forwards.of_same rfl rfl ⟨rfl, rfl, rfl⟩

end

end Upload

namespace Scene.Register

variable {disk : Disk δ} {limit : Nat} {scene scene' later : Scene δ} {upload next : Upload}
  {ledger : Ledger} {allows : Scene δ → Deed → Prop}

theorem ledger_after (register : Register limit scene) (register' : Register limit scene')
    (member : upload ∈ scene.uploads) (there : next ∈ scene'.uploads)
    (same : next.fileId = upload.fileId) :
    ledger.after scene scene' upload.fileId =
      (ledger upload.fileId).after scene.service scene'.service upload next := by
  have found := register'.upload? there
  rw [same] at found
  rw [Ledger.after, register.upload? member, found]

/-- What every move keeps for an upload and what has passed through it, a run keeps. -/
theorem traces (holds : Passage → Upload → Prop) (register : Register limit scene)
    (draws : ∀ scene deed, allows scene deed → Draws limit scene deed)
    (moved : ∀ (s s' : Spot δ) act passage, s.upload.Sound → Moves disk s act s' →
      holds passage s.upload →
        holds (passage.after s.service s'.service s.upload s'.upload) s'.upload)
    (traced : Traces disk allows scene later ledger) (member : upload ∈ scene.uploads)
    (here : holds {} upload) :
    ∃ last ∈ later.uploads, last.fileId = upload.fileId ∧ last.blobName = upload.blobName ∧
      holds (ledger upload.fileId) last := by
  induction traced with
  | refl => exact ⟨upload, member, rfl, rfl, here⟩
  | @step middle final ledger deed traced allowed steps ih =>
      obtain ⟨next, present, own, name, here⟩ := ih
      have register := register.reaches draws traced.reaches
      have register' := register.steps (draws _ _ allowed) steps
      rw [← own] at here ⊢
      rcases register.goes steps present with ⟨still, _⟩ | ⟨act, rfl, last, there, file, moves⟩
      · refine ⟨next, still, rfl, name, ?_⟩
        rw [register.ledger_after register' present still rfl,
          Passage.after_beside id (Nat.le_refl _)]
        exact here
      · refine ⟨last, there, file.fileId, file.blobName.trans name, ?_⟩
        rw [register.ledger_after register' present there file.fileId]
        exact moved _ _ _ _ (register.sound next present) moves here

/-- Whatever has been given up, an upload that takes data, or whose write has
    succeeded, has handed over all that its writes have made. -/
theorem forwards (register : Register limit scene)
    (draws : ∀ scene deed, allows scene deed → Draws limit scene deed)
    (traced : Traces disk allows scene later ledger) (member : upload ∈ scene.uploads)
    (calm : upload.handsOver = false) :
    ∃ last ∈ later.uploads, last.fileId = upload.fileId ∧ last.blobName = upload.blobName ∧
      last.Forwards upload.queue (ledger upload.fileId) := by
  refine register.traces (fun passage last => last.Forwards upload.queue passage) draws
    (fun _ _ _ _ sound moves forwards => forwards.moves sound moves) traced member
    ⟨fun _ call => ?_, fun _ => ?_, fun _ _ => ?_⟩
  · simp [Upload.handsOver, call] at calm
  all_goals simp [Passage.entered]

end Scene.Register

end Strongroom
