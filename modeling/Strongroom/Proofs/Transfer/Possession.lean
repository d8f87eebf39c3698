import Strongroom.Proofs.Transfer.Abandonment
import Strongroom.Proofs.Transfer.Room

/-! # What a handle has

A handle has an encoder, its side of the queue and the writer's task. While calls
run to their end it has all three as long as it receives, and none of them once it
has failed, and between two calls it does one or the other. Each exit of a call
gives the three up in an order of its own.
-/

namespace Strongroom

variable {δ : Type}

namespace Upload

/-- Encoder, queue and writer's task are there. -/
structure Equipped (upload : Upload) : Prop where
  encoder : upload.encoder.isSome = true
  sending : upload.sending = true
  held : upload.held = true

/-- All three are given up. -/
structure Spent (upload : Upload) : Prop where
  encoder : upload.encoder = none
  sending : upload.sending = false
  held : upload.held = false

/-- What is there between two calls that take something. -/
def AllOrNone (upload : Upload) : Prop :=
  (upload.phase = .receiving ∧ upload.Equipped) ∨ (upload.phase = .failed ∧ upload.Spent)

/-- What is there, by the call that is under way. -/
def Outfit (upload : Upload) : Prop :=
  match upload.call with
  | .idle => upload.AllOrNone
  | .answered (.ok none) => upload.phase = .receiving ∧ upload.Equipped
  | .answered (.ok (some _)) => upload.phase = .done ∧ upload.Spent
  | .answered (.error _) => upload.phase = .failed ∧ upload.Spent
  | .handOff _ => upload.phase = .writing ∧ upload.Equipped
  | .handOffFinal _ _ =>
      upload.phase = .committing ∧ upload.encoder = none ∧ upload.sending = true ∧
        upload.held = true
  | .joinForSize _ | .flushing _ _ | .withdraw _ => upload.phase = .committing ∧ upload.Spent
  | .joinForCause held => (upload.phase = .writing ∨ upload.phase = .committing) ∧ held = true
  | .joinForAbort _ _ => upload.phase ≠ .done ∧ upload.Spent

/-- A call may begin, or something of a stream is due. -/
def IsBetween (upload : Upload) : Prop :=
  upload.call = .idle ∨ ∃ result, upload.call = .answered result

section

variable {disk : Disk δ} {s s' : Spot δ} {act : Act} {upload entered next : Upload}
  {asked : Option Bytes} {reason : Error}

theorem Equipped.of_same (equipped : upload.Equipped) (encoder : next.encoder = upload.encoder)
    (sending : next.sending = upload.sending) (held : next.held = upload.held) : next.Equipped :=
  ⟨encoder ▸ equipped.encoder, sending.trans equipped.sending, held.trans equipped.held⟩

theorem Spent.of_same (spent : upload.Spent) (encoder : next.encoder = upload.encoder)
    (sending : next.sending = upload.sending) (held : next.held = upload.held) : next.Spent :=
  ⟨encoder.trans spent.encoder, sending.trans spent.sending, held.trans spent.held⟩

theorem AllOrNone.of_same (allOrNone : upload.AllOrNone) (phase : next.phase = upload.phase)
    (encoder : next.encoder = upload.encoder) (sending : next.sending = upload.sending)
    (held : next.held = upload.held) : next.AllOrNone := by
  rcases allOrNone with ⟨receiving, equipped⟩ | ⟨failed, spent⟩
  · exact .inl ⟨phase.trans receiving, equipped.of_same encoder sending held⟩
  · exact .inr ⟨phase.trans failed, spent.of_same encoder sending held⟩

theorem Outfit.of_same (outfit : upload.Outfit) (call : next.call = upload.call)
    (phase : next.phase = upload.phase) (encoder : next.encoder = upload.encoder)
    (sending : next.sending = upload.sending) (held : next.held = upload.held) :
    next.Outfit := by
  have equipped (has : upload.Equipped) : next.Equipped := has.of_same encoder sending held
  have spent (has : upload.Spent) : next.Spent := has.of_same encoder sending held
  unfold Outfit at outfit ⊢
  unfold AllOrNone at outfit ⊢
  rw [call, phase, encoder, sending, held]
  cases under : upload.call with
  | answered result =>
      rw [under] at outfit
      rcases result with e | _ | record
      · exact outfit.imp_right spent
      · exact outfit.imp_right equipped
      · exact outfit.imp_right spent
  | idle =>
      rw [under] at outfit
      exact outfit.imp (And.imp_right equipped) (And.imp_right spent)
  | handOff =>
      rw [under] at outfit
      exact outfit.imp_right equipped
  | handOffFinal | joinForCause =>
      rw [under] at outfit
      exact outfit
  | joinForSize | flushing | withdraw | joinForAbort =>
      rw [under] at outfit
      exact outfit.imp_right spent

theorem Equipped.not_spent (equipped : upload.Equipped) (spent : upload.Spent) : False := by
  have held := spent.held
  rw [equipped.held] at held
  cases held

theorem Outfit.allOrNone (outfit : upload.Outfit) (rest : upload.AtRest act) :
    upload.AllOrNone := by
  unfold Outfit at outfit
  rcases rest with ⟨⟨ready, undone⟩, _⟩ | ⟨idle, _⟩
  · unfold IsReady at ready
    cases call : upload.call with
    | idle =>
        rw [call] at outfit
        exact outfit
    | answered result =>
        rw [call] at outfit
        rcases result with e | _ | record
        · exact .inr outfit
        · exact .inl outfit
        · exact absurd outfit.1 undone
    | _ =>
        rw [call] at ready
        exact ready.elim
  · rw [idle] at outfit
    exact outfit

theorem Outfit.between (outfit : upload.Outfit) (between : upload.IsBetween)
    (open_ : ∀ record, upload.answer? ≠ some (.ok (some record))) :
    upload.phase = .receiving ∨ upload.phase = .failed := by
  unfold Outfit at outfit
  rcases between with idle | ⟨result, answered⟩
  · rw [idle] at outfit
    exact outfit.imp And.left And.left
  · rw [answered] at outfit
    rcases result with e | _ | record
    · exact .inr outfit.1
    · exact .inl outfit.1
    · exact absurd (by rw [answer?, answered]) (open_ record)

/-- Between two calls an upload receives exactly if all is there. -/
theorem Outfit.whole (outfit : upload.Outfit) (between : upload.IsBetween) :
    upload.phase = .receiving ↔ upload.Equipped := by
  have whole (phase : upload.phase = .receiving) (equipped : upload.Equipped) :
      upload.phase = .receiving ↔ upload.Equipped :=
    ⟨fun _ => equipped, fun _ => phase⟩
  have gone {phase : Phase} (here : upload.phase = phase) (other : phase ≠ .receiving)
      (spent : upload.Spent) : upload.phase = .receiving ↔ upload.Equipped :=
    ⟨fun receiving => absurd (here.symm.trans receiving) other,
      fun equipped => (equipped.not_spent spent).elim⟩
  unfold Outfit at outfit
  rcases between with idle | ⟨result, answered⟩
  · rw [idle] at outfit
    rcases outfit with ⟨phase, equipped⟩ | ⟨phase, spent⟩
    · exact whole phase equipped
    · exact gone phase (by simp) spent
  · rw [answered] at outfit
    rcases result with e | _ | record
    · exact gone outfit.1 (by simp) outfit.2
    · exact whole outfit.1 outfit.2
    · exact gone outfit.1 (by simp) outfit.2

theorem Outfit.undone (outfit : upload.Outfit) (stops : upload.Stops act next reason) :
    next.phase ≠ .done := by
  have resting (rest : upload.AtRest act) : upload.phase ≠ .done := by
    rcases outfit.allOrNone rest with ⟨phase, _⟩ | ⟨phase, _⟩
    all_goals simp [phase]
  unfold Outfit at outfit
  cases stops with
  | asked mayCall => exact resting (.inl ⟨mayCall, rfl⟩)
  | fired enters | interrupted enters =>
      rw [enters.phase]
      exact resting enters.atRest
  | @unsealed act asked =>
      cases asked with
      | none => simp
      | some data => simp
  | unfed idle inbound | broken idle inbound => exact resting (.inr ⟨idle, _, inbound⟩)
  | unsent waits | overtaken waits =>
      rcases waits with ⟨records, call⟩ | ⟨record, size, call⟩
      all_goals
        rw [call] at outfit
        simp [outfit.1]
  | failed call =>
      rw [call] at outfit
      simp [outfit.1]
  | learned call =>
      rw [call] at outfit
      rcases outfit.1 with phase | phase
      all_goals simp [phase]

/-- One step of a caller who lets calls run to their end and keeps the handle. -/
theorem Outfit.callerMoves (outfit : s.upload.Outfit) (ends : act ≠ .giveUp)
    (keeps : ∀ inside, act ≠ .drop inside) (moves : CallerMoves disk s act s') :
    s'.upload.Outfit := by
  have midway := outfit
  unfold Outfit at midway
  cases moves with
  | @stop _ next reason _ stops =>
      have undone : next.phase ≠ .done := outfit.undone stops
      exact ⟨undone, rfl, rfl, rfl⟩
  | @deny _ _ entered enters notReceiving =>
      rw [enters.same] at notReceiving ⊢
      rcases outfit.allOrNone enters.atRest with ⟨phase, _⟩ | ⟨phase, spent⟩
      · exact absurd phase notReceiving
      · exact ⟨phase, spent.encoder, spent.sending, spent.held⟩
  | @fed items mayCall =>
      have rest : s.upload.AtRest (.feed items) := .inl ⟨mayCall, rfl⟩
      rcases outfit.allOrNone rest with ⟨phase, equipped⟩ | ⟨phase, spent⟩
      · exact .inl ⟨phase, equipped.of_same rfl rfl rfl⟩
      · exact .inr ⟨phase, spent.encoder, spent.sending, spent.held⟩
  | opened enters receiving =>
      rw [enters.same] at receiving ⊢
      rcases outfit.allOrNone enters.atRest with ⟨_, equipped⟩ | ⟨phase, _⟩
      · exact ⟨rfl, rfl, equipped.sending, equipped.held⟩
      · cases phase.symm.trans receiving
  | sealed enters receiving =>
      rw [enters.same] at receiving ⊢
      rcases outfit.allOrNone enters.atRest with ⟨_, equipped⟩ | ⟨phase, _⟩
      · exact ⟨rfl, rfl, equipped.sending, equipped.held⟩
      · cases phase.symm.trans receiving
  | wrote call =>
      rw [call] at midway
      cases fed : s.upload.inbound with
      | none => exact ⟨rfl, midway.2.of_same rfl rfl rfl⟩
      | some items => exact .inl ⟨rfl, midway.2.of_same rfl rfl rfl⟩
  | handed call =>
      rw [call] at midway
      exact ⟨midway.1, midway.2.of_same rfl rfl rfl⟩
  | handedFinal call =>
      rw [call] at midway
      exact ⟨midway.1, midway.2.1, rfl, rfl⟩
  | hungUp waits =>
      rcases waits with ⟨record, rest, call⟩ | ⟨record, size, call⟩
      · rw [call] at midway
        exact ⟨.inl midway.1, midway.2.held⟩
      · rw [call] at midway
        exact ⟨.inr midway.1, midway.2.2.2⟩
  | refused call | staged call | flushed call | unstaged call =>
      rw [call] at midway
      exact ⟨midway.1, midway.2.encoder, midway.2.sending, midway.2.held⟩
  | filed call =>
      rw [call] at midway
      exact ⟨rfl, midway.2.encoder, midway.2.sending, midway.2.held⟩
  | removed clears =>
      rcases clears with call | ⟨held, call, _⟩
      all_goals
        rw [call] at midway
        exact ⟨rfl, midway.2.encoder, midway.2.sending, midway.2.held⟩
  | gaveUp => exact absurd rfl ends
  | dropped => exact absurd rfl (keeps _)
  | cancelled => exact outfit.of_same rfl rfl rfl rfl rfl

theorem cleanup_of_callerMoves (keeps : ∀ inside, act ≠ .drop inside)
    (moves : CallerMoves disk s act s') : s'.upload.cleanup = s.upload.cleanup := by
  cases moves with
  | stop stops =>
      have same := congrArg cleanup stops.same
      exact same
  | deny enters | opened enters | sealed enters =>
      have same := congrArg cleanup enters.same
      exact same
  | dropped => exact absurd rfl (keeps _)
  | _ => rfl

/-- What is kept of an upload while calls run to their end: what its handle has, and
    an encoder that can always go on. -/
structure Kept (gone : Prop) (upload : Upload) : Prop where
  room : upload.HasRoom upload.capacity
  stands : (gone ∧ upload.call = .idle ∧ upload.inbound = none) ∨
    (upload.Outfit ∧ upload.cleanup = .none)

theorem Kept.moves {gone gone' : Prop} (kept : s.upload.Kept gone) (ends : act ≠ .giveUp)
    (drops : ∀ inside, act = .drop inside → gone') (handle : act.takesHandle = true → ¬ gone)
    (more : gone → gone') (moves : Moves disk s act s') : s'.upload.Kept gone' := by
  have room := kept.room.moves moves
  refine ⟨by rwa [room.capacity], ?_⟩
  rcases kept.stands with ⟨dropped, idle, unfed⟩ | ⟨outfit, clean⟩
  · have held : act.takesHandle = false :=
      Bool.eq_false_iff.2 fun takes => handle takes dropped
    refine .inl ⟨more dropped, ?_⟩
    rcases idle_of_moves idle unfed held moves with ⟨_, _, _, same⟩ | ⟨_, same, _⟩
    all_goals
      rw [same]
      exact ⟨idle, unfed⟩
  · cases moves with
    | writer moves =>
        rw [moves.same.2]
        exact .inr ⟨outfit.of_same rfl rfl rfl rfl rfl, clean⟩
    | cleared pending => cases clean.symm.trans pending
    | caller moves =>
        by_cases drop : ∃ inside, act = .drop inside
        · obtain ⟨inside, rfl⟩ := drop
          have left := drop_of_moves (.caller moves)
          refine .inl ⟨drops inside rfl, ?_⟩
          rw [left]
          exact ⟨drop_call, drop_inbound⟩
        · have keeps (inside : Bool) : act ≠ .drop inside := fun same => drop ⟨inside, same⟩
          exact .inr ⟨outfit.callerMoves ends keeps moves,
            (cleanup_of_callerMoves keeps moves).trans clean⟩

theorem kept_of_begins {service : Service} {owner : UserId} {gone : Prop}
    (begins : Transfers.Begins service owner upload) : upload.Kept gone := by
  obtain ⟨key, encoder, _, created, present⟩ := begins.encoder
  obtain ⟨streams, receiving, idle⟩ := begins.stands
  refine ⟨⟨rfl, fun other there => ?_⟩, .inr ⟨?_, streams.cleanup⟩⟩
  · obtain rfl : encoder = other := Option.some.inj (present.symm.trans there)
    exact (Stream.Encoder.idle_create created).2.2.2.2
  · unfold Outfit
    rw [idle]
    refine .inl ⟨receiving, ?_, streams.sending, streams.held⟩
    rw [present]
    rfl

/-- An upload that has failed, with nothing left to give up or to clean up. -/
structure Lost (upload : Upload) : Prop where
  phase : upload.phase = .failed
  spent : upload.Spent
  clean : upload.cleanup = .none
  call : upload.IsBetween ∨ ∃ held reason, upload.call = .joinForAbort held reason

theorem Outfit.lost (outfit : upload.Outfit) (clean : upload.cleanup = .none)
    (failed : upload.phase = .failed) : upload.Lost := by
  have other {phase : Phase} (here : upload.phase = phase) (unlike : phase ≠ .failed) : False :=
    unlike (here.symm.trans failed)
  unfold Outfit at outfit
  cases call : upload.call with
  | idle =>
      rw [call] at outfit
      rcases outfit with ⟨phase, _⟩ | ⟨_, spent⟩
      · exact (other phase (by simp)).elim
      · exact ⟨failed, spent, clean, .inl (.inl call)⟩
  | answered result =>
      rw [call] at outfit
      rcases result with e | _ | record
      · exact ⟨failed, outfit.2, clean, .inl (.inr ⟨_, call⟩)⟩
      · exact (other outfit.1 (by simp)).elim
      · exact (other outfit.1 (by simp)).elim
  | joinForAbort held reason =>
      rw [call] at outfit
      exact ⟨failed, outfit.2, clean, .inr ⟨held, reason, call⟩⟩
  | joinForCause =>
      rw [call] at outfit
      rcases outfit.1 with phase | phase
      all_goals exact (other phase (by simp)).elim
  | handOff | handOffFinal | joinForSize | flushing | withdraw =>
      rw [call] at outfit
      exact (other outfit.1 (by simp)).elim

theorem Lost.moves (lost : s.upload.Lost) (moves : Moves disk s act s') : s'.upload.Lost := by
  have failed := lost.phase
  have busy {call : Call} (here : s.upload.call = call) (waits : call ≠ .idle)
      (open_ : ∀ result, call ≠ .answered result)
      (stays : ∀ held reason, call ≠ .joinForAbort held reason) : False := by
    rcases lost.call with (idle | ⟨result, answered⟩) | ⟨held, reason, aborts⟩
    · exact waits (here.symm.trans idle)
    · exact open_ result (here.symm.trans answered)
    · exact stays held reason (here.symm.trans aborts)
  have unlike {phase : Phase} (here : s.upload.phase = phase) (other : phase ≠ .failed) : False :=
    other (here.symm.trans failed)
  cases moves with
  | writer moves =>
      rw [moves.same.2]
      exact ⟨failed, lost.spent.of_same rfl rfl rfl, lost.clean, lost.call⟩
  | cleared pending => cases lost.clean.symm.trans pending
  | caller moves =>
      have spent := lost.spent
      cases moves with
      | @stop _ next reason _ stops =>
          have phase : next.phase = .failed := by
            rcases stops.phase with same | receiving
            · exact same.trans failed
            · exact (unlike receiving (by simp)).elim
          have clean : next.cleanup = .none :=
            (congrArg cleanup stops.same).trans lost.clean
          exact ⟨phase, ⟨rfl, rfl, rfl⟩, clean, .inr ⟨_, _, rfl⟩⟩
      | deny enters =>
          rw [enters.same]
          exact ⟨failed, spent.of_same rfl rfl rfl, lost.clean, .inl (.inr ⟨_, rfl⟩)⟩
      | fed => exact ⟨failed, spent.of_same rfl rfl rfl, lost.clean, .inl (.inl rfl)⟩
      | opened enters receiving | sealed enters receiving =>
          exact (unlike (enters.phase.symm.trans receiving) (by simp)).elim
      | wrote here | handed here | handedFinal here | refused here | staged here | flushed here
      | filed here | unstaged here =>
          exact (busy here (by simp) (by simp) (by simp)).elim
      | hungUp waits =>
          rcases waits with ⟨_, _, here⟩ | ⟨_, _, here⟩
          all_goals exact (busy here (by simp) (by simp) (by simp)).elim
      | removed =>
          exact ⟨rfl, spent.of_same rfl rfl rfl, lost.clean, .inl (.inr ⟨_, rfl⟩)⟩
      | gaveUp => exact ⟨failed, spent.of_same rfl rfl rfl, lost.clean, .inl (.inl rfl)⟩
      | dropped =>
          unfold drop
          rw [failed]
          exact ⟨rfl, ⟨spent.encoder, spent.sending, rfl⟩, lost.clean, .inl (.inl rfl)⟩
      | cancelled => exact ⟨failed, spent.of_same rfl rfl rfl, lost.clean, lost.call⟩

end

end Upload

namespace Scene

variable {disk : Disk δ} {limit : Nat} {id : FileId} {opening scene scene' : Scene δ}
  {allows : Scene δ → Deed → Prop}

/-- Whatever may happen, but that no call on one upload is given up half way. -/
def Completes (limit : Nat) (id : FileId) (scene : Scene δ) (deed : Deed) : Prop :=
  scene.Draws limit deed ∧ deed ≠ .act id .giveUp

/-- What every new upload has, and what every act on one upload keeps, that upload has
    all along. -/
theorem Opens.holds_of_offers (holds : Prop → Upload → Prop) (opens : opening.Opens limit)
    (draws : ∀ scene deed, allows scene deed → Draws limit scene deed)
    (fresh : ∀ service owner upload gone, Transfers.Begins service owner upload →
      holds gone upload)
    (offered : ∀ (scene : Scene δ) before upload act script service d,
      Reaches disk allows opening scene → allows scene (.act id act) →
        before ∈ scene.uploads → before.fileId = id →
        (act.takesHandle = true → id ∉ scene.dropped) →
          before.Offers scene.service act script →
            Script.Runs disk scene.disk script (service, upload) d →
              holds (id ∈ scene.dropped) before →
                holds (id ∈ (scene.after before act service upload d).dropped) upload)
    (reaches : Reaches disk allows opening scene) :
    ∀ upload ∈ scene.uploads, upload.fileId = id → holds (id ∈ scene.dropped) upload := by
  induction reaches with
  | refl => simp [opens.uploads]
  | @step scene scene' deed reached allowed steps ih =>
      intro upload there own
      have register := opens.register.reaches draws reached
      by_cases acts : ∃ other act, deed = .act other act
      · obtain ⟨other, act, rfl⟩ := acts
        cases steps with
        | @act before next _ script service d member handle _ offers runs =>
            have moves := moves_of_offers (s := ⟨scene.service, before, scene.disk⟩) offers runs
            rcases register.mem_after member moves there with ⟨old, different⟩ | rfl
            · have dropped : id ∈ (scene.after before act service next d).dropped ↔
                  id ∈ scene.dropped := by
                have unlike : id ≠ before.fileId := fun same => different (own.trans same)
                unfold after
                cases act with
                | drop => exact List.mem_cons.trans (or_iff_right unlike)
                | _ => exact Iff.rfl
              rw [dropped]
              exact ih upload old own
            · have file := (Footprint.of_moves (register.sound before member).owns moves).file
              have same : before.fileId = id := file.fileId.symm.trans own
              rw [same] at allowed handle
              exact offered _ _ _ _ _ _ _ reached allowed member same handle offers runs
                (ih before member same)
      · cases steps.turns with
        | @start _ _ _ transfers started =>
            obtain ⟨_, _, _, outcome⟩ := Transfers.start_cases started
            rcases outcome with ⟨same, _⟩ | ⟨new, same, _, begins⟩
            · exact ih upload (same ▸ there) own
            · rcases List.mem_append.1 (same ▸ there) with old | new
              · exact ih upload old own
              · rw [List.mem_singleton.1 new]
                exact fresh _ _ _ _ begins
        | act => exact absurd ⟨_, _, rfl⟩ acts
        | errand _ errand =>
            rw [errand.dropped]
            exact ih upload (errand.uploads ▸ there) own

theorem Opens.kept (opens : opening.Opens limit)
    (reaches : Reaches disk (Completes limit id) opening scene) :
    ∀ upload ∈ scene.uploads, upload.fileId = id → upload.Kept (id ∈ scene.dropped) := by
  refine opens.holds_of_offers (fun gone upload => upload.Kept gone)
    (fun _ _ completes => completes.1) (fun _ _ _ _ begins => Upload.kept_of_begins begins)
    (fun scene before upload act _ service d _ completes _ own handle offers runs kept => ?_)
    reaches
  have ends : act ≠ .giveUp := fun same => completes.2 (by rw [same])
  have moves := moves_of_offers (s := ⟨scene.service, before, scene.disk⟩) offers runs
  refine kept.moves ends ?_ handle ?_ moves
  · rintro inside rfl
    rw [← own]
    exact List.mem_cons_self
  · intro gone
    unfold after
    dsimp only
    split
    · exact List.mem_cons_of_mem _ gone
    · exact gone

end Scene

end Strongroom
