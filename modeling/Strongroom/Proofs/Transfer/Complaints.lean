import Strongroom.Proofs.Transfer.Possession

/-! # What a handle complains of

A call may find that the encoder or the queue is gone, or that the writer was waited
for before. While calls run to their end no handle is ever so: what a caller is told
is one of a few errors of the handle, or an error that he or a store came up with.
-/

namespace Strongroom

variable {δ : Type}

namespace Upload

/-- The errors of a handle that has lost what it should have. -/
inductive TellsOfLoss : Error → Prop where
  | closed : TellsOfLoss (.invalidInput "upload is closed")
  | joined : TellsOfLoss (.storage "blob writer already joined")

/-- The errors of a handle that has what it should have. -/
inductive IsOwn : Error → Prop where
  | cancelled : IsOwn .cancelled
  | interrupted : IsOwn interruptedError
  | closed (phase : Phase) : IsOwn (closedError phase)
  /-- The stream that feeds it has failed. -/
  | stream (text : String) : IsOwn (.io text)
  | early : IsOwn (.storage "blob writer exited early")

theorem TellsOfLoss.not_own {e : Error} (loss : TellsOfLoss e) : ¬ IsOwn e := by
  intro own
  cases own with
  | cancelled | stream => cases loss
  | interrupted =>
      generalize same : interruptedError = e at loss
      cases loss with
      | closed => exact absurd same (by decide)
      | joined => cases same
  | closed phase =>
      generalize same : closedError phase = e at loss
      cases loss with
      | closed =>
          cases phase
          all_goals exact absurd same (by decide)
      | joined => cases same
  | early =>
      generalize same : Error.storage "blob writer exited early" = e at loss
      cases loss with
      | closed => cases same
      | joined => exact absurd same (by decide)

/-- The error that a call is answered with, or is about to be. -/
def complaint? (upload : Upload) : Option Error :=
  match upload.call with
  | .withdraw e | .joinForAbort _ e | .answered (.error e) => some e
  | _ => none

/-- The caller aborts for a reason of his own, the blob store has failed, or the
    catalog refuses a record. -/
def IsBlamed (service : Service) (upload : Upload) (e : Error) : Act → Prop
  | .abort reason => reason = e
  | .caller => upload.writer.result? = some (.error e) ∨ service.conduct.insert = some e ∨
      (∃ record, service.catalog.stageFile record = .error e) ∨
        ∃ record, upload.call = .flushing record (.done (.error e))
  | _ => False

section

variable {disk : Disk δ} {service service' : Service} {upload next : Upload} {act : Act}
  {e : Error} {d d' : δ}

theorem own_of_refuse (refused : upload.refuse? = some next)
    (complains : next.complaint? = some e) : IsOwn e := by
  unfold refuse? at refused
  split at refused
  · split at refused
    · cases refused
      cases complains
      exact .cancelled
    · cases refused
  · cases refused
    cases complains
    split
    · exact .cancelled
    · exact .interrupted
  · cases refused
    cases complains
    exact .closed _

theorem own_of_write {data : Bytes} (allOrNone : upload.AllOrNone)
    (result : upload.write service data = (service', next))
    (complains : next.complaint? = some e) : IsOwn e := by
  unfold write at result
  split at result
  · rename_i refused
    cases result
    exact own_of_refuse refused complains
  · rename_i allowed
    have receiving := (allows_of_refuse allowed).1
    rcases allOrNone with ⟨_, equipped⟩ | ⟨failed, _⟩
    · obtain ⟨encoder, present⟩ := Option.isSome_iff_exists.1 equipped.encoder
      obtain ⟨records, _, after, random, wrote, _⟩ := encoder.write_carries data service.random
      simp only [present, wrote] at result
      cases result
      cases complains
    · cases receiving.symm.trans failed

theorem own_of_commit {depth : Nat} (allOrNone : upload.AllOrNone) (room : upload.HasRoom depth)
    (result : upload.commit service = (service', next))
    (complains : next.complaint? = some e) : IsOwn e := by
  unfold commit at result
  split at result
  · rename_i refused
    cases result
    exact own_of_refuse refused complains
  · rename_i allowed
    have receiving := (allows_of_refuse allowed).1
    rcases allOrNone with ⟨_, equipped⟩ | ⟨failed, _⟩
    · obtain ⟨encoder, present⟩ := Option.isSome_iff_exists.1 equipped.encoder
      obtain ⟨record, random, finished⟩ := (room.seals present service.random).2
      simp only [present, finished] at result
      cases result
      cases complains
    · cases receiving.symm.trans failed

theorem own_of_feed {depth : Nat} {items : List Inbound} (allOrNone : upload.AllOrNone)
    (room : upload.HasRoom depth) (result : feed service upload items = (service', next))
    (complains : next.complaint? = some e) : IsOwn e := by
  unfold feed at result
  split at result
  · cases result
    cases complains
    exact .cancelled
  · cases items with
    | nil =>
        let entered := { upload with inbound := none }
        have has : entered.AllOrNone := allOrNone.of_same rfl rfl rfl rfl
        have result : entered.commit service = (service', next) := result
        exact own_of_commit has ⟨room.capacity, room.idle⟩ result complains
    | cons item rest =>
        obtain ⟨content, fires⟩ := item
        cases content with
        | ok data =>
            let entered :=
              { upload with inbound := some rest, cancelled := upload.cancelled || fires }
            have has : entered.AllOrNone := allOrNone.of_same rfl rfl rfl rfl
            have result : entered.write service data = (service', next) := result
            exact own_of_write has result complains
        | error text =>
            cases result
            cases complains
            exact .stream text

theorem blamed_of_callerMoves {s s' : Spot δ} (outfit : s.upload.Outfit)
    (midway : s.upload.call ≠ .idle) (moves : CallerMoves disk s .caller s')
    (complains : s'.upload.complaint? = some e) :
    s.upload.complaint? = some e ∨ IsOwn e ∨ IsBlamed s.service s.upload e .caller := by
  have enters {asked : Option Bytes} {entered : Upload}
      (enters : s.upload.Enters .caller asked entered) : False := by
    cases enters with
    | item idle | finish idle => exact midway idle
  unfold Outfit at outfit
  cases moves with
  | stop stops =>
      cases complains
      cases stops with
      | fired here | interrupted here | unsealed here => exact (enters here).elim
      | unfed idle | broken idle => exact absurd idle midway
      | unsent waits closed =>
          rcases waits with ⟨records, call⟩ | ⟨record, size, call⟩
          · rw [call] at outfit
            cases closed.symm.trans outfit.2.sending
          · rw [call] at outfit
            cases closed.symm.trans outfit.2.2.1
      | overtaken => exact .inr (.inl .cancelled)
      | failed _ result => exact .inr (.inr (.inl result))
      | @learned held result call joined =>
          rw [call] at outfit
          rw [outfit.2, Upload.joined, if_pos rfl] at joined
          cases result with
          | ok size => exact .inr (.inl .early)
          | error e => exact .inr (.inr (.inl joined))
  | deny here | opened here | sealed here => exact (enters here).elim
  | wrote =>
      cases fed : s.upload.inbound with
      | none | some items =>
          simp only [complaint?, fed] at complains
          cases complains
  | handed | handedFinal | hungUp | staged | flushed | filed => cases complains
  | refused call result refuses =>
      cases complains
      rcases refuses with told | refused
      · exact .inr (.inr (.inr (.inl told)))
      · exact .inr (.inr (.inr (.inr (.inl ⟨_, refused⟩))))
  | unstaged call =>
      cases complains
      exact .inr (.inr (.inr (.inr (.inr ⟨_, call⟩))))
  | removed clears =>
      cases complains
      left
      rcases clears with call | ⟨held, call, _⟩
      all_goals rw [complaint?, call]

/-- Every complaint is one from before, one of the handle, or somebody is to blame. -/
theorem Kept.blames {gone : Prop} {script : Script (Service × Upload)} (kept : upload.Kept gone)
    (handle : act.takesHandle = true → ¬ gone) (offers : upload.Offers service act script)
    (runs : Script.Runs disk d script (service', next) d') (complains : next.complaint? = some e) :
    upload.complaint? = some e ∨ IsOwn e ∨ IsBlamed service upload e act := by
  have called (rest : upload.AtRest act) : upload.AllOrNone := by
    rcases kept.stands with ⟨dropped, _, unfed⟩ | ⟨outfit, _⟩
    · rcases rest with ⟨_, takes⟩ | ⟨_, items, fed⟩
      · exact absurd dropped (handle takes)
      · cases unfed.symm.trans fed
    · exact outfit.allOrNone rest
  cases offers with
  | write mayCall =>
      obtain ⟨result, rfl⟩ := Script.runs_pure.1 runs
      exact .inr (.inl (own_of_write (called (.inl ⟨mayCall, rfl⟩)) result.symm complains))
  | commit mayCall =>
      obtain ⟨result, rfl⟩ := Script.runs_pure.1 runs
      exact .inr (.inl
        (own_of_commit (called (.inl ⟨mayCall, rfl⟩)) kept.room result.symm complains))
  | abort =>
      obtain ⟨⟨⟩, rfl⟩ := Script.runs_pure.1 runs
      cases complains
      exact .inr (.inr rfl)
  | feed | giveUp =>
      obtain ⟨⟨⟩, rfl⟩ := Script.runs_pure.1 runs
      cases complains
  | drop =>
      obtain ⟨⟨⟩, rfl⟩ := Script.runs_pure.1 runs
      rw [complaint?, drop_call] at complains
      cases complains
  | cancel =>
      obtain ⟨⟨⟩, rfl⟩ := Script.runs_pure.1 runs
      exact .inl complains
  | writer offered =>
      have same := (moves_of_writerStep offered runs).same.2
      dsimp only at same
      rw [same] at complains
      exact .inl complains
  | cleanup offered =>
      unfold cleanupStep at offered
      split at offered
      · split at offered
        · cases offered
        · cases offered
          obtain ⟨⟨result, cleared⟩, d₁, removed, rest⟩ := Script.runs_bind.1 runs
          obtain ⟨⟨⟩, rfl⟩ := Script.runs_pure.1 rest
          exact .inl complains
      · cases offered
  | caller offered =>
      by_cases idle : upload.call = .idle
      · unfold callerStep at offered
        rw [idle] at offered
        obtain ⟨items, fed, rfl⟩ := Option.map_eq_some_iff.1 offered
        obtain ⟨result, rfl⟩ := Script.runs_pure.1 runs
        exact .inr (.inl
          (own_of_feed (called (.inr ⟨idle, items, fed⟩)) kept.room result.symm complains))
      · rcases kept.stands with ⟨_, here, _⟩ | ⟨outfit, _⟩
        · exact absurd here idle
        · exact blamed_of_callerMoves (s := ⟨service, upload, d⟩) outfit idle
            (moves_of_callerStep offered runs) complains

end

end Upload

namespace Transfers

variable {transfers : Transfers} {id : FileId} {service : Service} {upload before : Upload}

theorem upload?_store (found : transfers.upload? upload.fileId = some before) :
    (transfers.store service upload).upload? upload.fileId = some upload := by
  unfold upload? at found ⊢
  have same : (fun other : Upload => decide (other.fileId = upload.fileId)) ∘
      (fun other => if other.fileId = upload.fileId then upload else other) =
        fun other => decide (other.fileId = upload.fileId) := by
    funext other
    by_cases own : other.fileId = upload.fileId
    · simp [own]
    · simp [own]
  have own : before.fileId = upload.fileId := by simpa using List.find?_some found
  simp only [store, modify, List.find?_map, same, found, Option.map_some, if_pos own]

theorem driveFor_of_answered {result : Except Error (Option FileRecord)} (fuel : Nat)
    (found : transfers.upload? id = some upload) (answered : upload.call = .answered result) :
    driveFor id fuel transfers = pure transfers := by
  have rests : transfers.callerStep id = none := by
    simp [callerStep, found, Upload.callerStep, answered]
  have told : upload.answer? = some result := by rw [Upload.answer?, answered]
  cases fuel with
  | zero => rfl
  | succ fuel =>
      unfold driveFor
      rw [rests]
      dsimp only
      split
      · rfl
      · rw [found, Option.bind_some, told]
        rfl

theorem call_of_refused (begin : Service → Upload → Service × Upload) {e : Error}
    (found : transfers.upload? id = some upload)
    (refused : begin transfers.service upload = (transfers.service, upload.answer (.error e))) :
    ∃ after : Transfers, transfers.call id begin = pure after ∧
      after.service = transfers.service ∧ after.answer? id = some (.error e) := by
  have own : upload.fileId = id := by simpa using List.find?_some found
  subst own
  let told := upload.answer (.error e)
  have found' : transfers.upload? told.fileId = some upload := found
  have there : (transfers.store transfers.service told).upload? upload.fileId = some told :=
    upload?_store found'
  refine ⟨transfers.store transfers.service told, ?_, rfl, ?_⟩
  · unfold call
    rw [found]
    dsimp only
    rw [refused]
    exact driveFor_of_answered _ there rfl
  · rw [answer?, there]
    rfl

end Transfers

namespace Scene

variable {disk : Disk δ} {limit : Nat} {id : FileId} {opening scene : Scene δ} {upload : Upload}

/-- Calls on one upload run to their end, and nobody else comes up with an error. -/
def Blameless (limit : Nat) (id : FileId) (e : Error) (scene : Scene δ) (deed : Deed) : Prop :=
  scene.Completes limit id deed ∧ ∀ act, deed = .act id act →
    ∀ upload ∈ scene.uploads, upload.fileId = id → ¬ upload.IsBlamed scene.service e act

/-- Where nobody else comes up with it, only an error of the handle is answered. -/
theorem Opens.never_complains {e : Error} (opens : opening.Opens limit)
    (foreign : ¬ Upload.IsOwn e) (reaches : Reaches disk (Blameless limit id e) opening scene) :
    ∀ upload ∈ scene.uploads, upload.fileId = id → upload.complaint? ≠ some e := by
  refine opens.holds_of_offers (fun _ upload => upload.complaint? ≠ some e)
    (fun _ _ blameless => blameless.1.1) (fun _ _ _ _ begins => ?_)
    (fun scene before upload act script service d reached blameless member own handle offers runs
      silent complains => ?_) reaches
  · rw [Upload.complaint?, begins.stands.2.2]
    exact fun never => by cases never
  · have completes := reached.mono fun _ _ blameless => blameless.1
    have kept := opens.kept completes before member own
    rcases kept.blames handle offers runs complains with same | handles | blamed
    · exact silent same
    · exact foreign handles
    · exact blameless.2 act rfl before member own blamed

/-- How an upload stands whose calls run to their end. -/
structure WholeOrSpent (disk : Disk δ) (limit : Nat) (scene : Scene δ) (upload : Upload) :
    Prop where
  /-- Between two calls it receives or has failed, unless a commit has succeeded. -/
  between : upload.IsBetween → (∀ record, upload.answer? ≠ some (.ok (some record))) →
    upload.phase = .receiving ∨ upload.phase = .failed
  /-- It receives as long as all is there. -/
  whole : upload.IsBetween → (upload.phase = .receiving ↔ upload.Equipped)
  /-- Once it has failed nothing is there. -/
  spent : upload.phase = .failed → upload.Spent
  /-- A write succeeds exactly if it leaves the upload receiving, and fails exactly if
      it leaves it failed. -/
  written : ∀ data begun later, scene.Steps disk (.act upload.fileId (.write data)) begun →
    Reaches disk (Untouched limit upload.fileId) begun later →
      ∃ last ∈ later.uploads, last.fileId = upload.fileId ∧
        (last.answer? = some (.ok none) ↔ last.IsBetween ∧ last.phase = .receiving) ∧
          ((∃ e, last.answer? = some (.error e)) ↔ last.IsBetween ∧ last.phase = .failed)
  /-- Whatever is done from there on, it stays failed. -/
  stays : upload.phase = .failed → ∀ later, Reaches disk (Draws limit) scene later →
    ∃ last ∈ later.uploads, last.fileId = upload.fileId ∧ last.phase = .failed ∧ last.Spent
  /-- Writes and commits are then refused in their first step, without a call of any
      store. -/
  refuses : upload.phase = .failed → ∀ act after, act.GoesOn →
    scene.Steps disk (.act upload.fileId act) after →
      after.service = scene.service ∧ after.disk = scene.disk ∧
        ∃ next ∈ after.uploads, next.fileId = upload.fileId ∧
          next.answer? = some (.error (Upload.closedError .failed))
  /-- Driven on, they come back with that answer. -/
  returns : upload.phase = .failed → ∀ data transfers d,
    Script.Runs disk scene.disk (scene.toTransfers.write upload.fileId data) transfers d ∨
        Script.Runs disk scene.disk (scene.toTransfers.commit upload.fileId) transfers d →
      transfers.service = scene.service ∧ d = scene.disk ∧
        transfers.answer? upload.fileId = some (.error (Upload.closedError .failed))
  /-- Nothing is cleaned up behind a handle that is dropped then. -/
  leaves : upload.phase = .failed → ∀ inside after,
    scene.Steps disk (.act upload.fileId (.drop inside)) after →
      after.service = scene.service ∧ after.disk = scene.disk ∧
        ∀ later, Reaches disk (Draws limit) after later →
          ∃ last ∈ later.uploads, last.fileId = upload.fileId ∧ last.cleanup = .none ∧
            ∀ script, ¬ last.Offers later.service .cleanup script

section

variable (register : Register limit scene) (member : upload ∈ scene.uploads)
include register member

theorem Register.stays_lost {later : Scene δ} (lost : upload.Lost)
    (reaches : Reaches disk (Draws limit) scene later) :
    ∃ last ∈ later.uploads, last.fileId = upload.fileId ∧ last.Lost := by
  obtain ⟨last, there, own, _, still⟩ :=
    register.follows (·.Lost) (fun _ _ draws => draws)
      (fun _ _ _ _ _ _ _ _ moves lost => lost.moves moves) reaches member lost
  exact ⟨last, there, own, still⟩

theorem Register.write_leaves {data : Bytes} {begun later : Scene δ}
    {gone : Prop} (kept : ∀ last ∈ later.uploads, last.fileId = upload.fileId → last.Kept gone)
    (unfed : upload.Unfed) (steps : scene.Steps disk (.act upload.fileId (.write data)) begun)
    (reaches : Reaches disk (Untouched limit upload.fileId) begun later) :
    ∃ last ∈ later.uploads, last.fileId = upload.fileId ∧
      (last.answer? = some (.ok none) ↔ last.IsBetween ∧ last.phase = .receiving) ∧
        ((∃ e, last.answer? = some (.error e)) ↔ last.IsBetween ∧ last.phase = .failed) := by
  obtain ⟨last, there, own, state⟩ := register.write_waits member unfed steps reaches
  refine ⟨last, there, own, ?_⟩
  have outfit {result : Except Error (Option FileRecord)} (call : last.call = .answered result) :
      last.Outfit := by
    rcases (kept last there own).stands with ⟨_, idle, _⟩ | ⟨outfit, _⟩
    · cases idle.symm.trans call
    · exact outfit
  rcases state with inWrite | ⟨e, answered⟩ | answered
  · have call := inWrite.call
    have busy : ¬ last.IsBetween := by
      rintro (idle | ⟨result, answered⟩)
      · rw [idle] at call
        cases call
      · rw [answered] at call
        cases call
    have open_ (result : Except Error (Option FileRecord)) : last.answer? ≠ some result :=
      fun answered => busy (.inr ⟨result, Upload.call_of_answer? answered⟩)
    constructor
    · exact ⟨fun answered => absurd answered (open_ _), fun here => absurd here.1 busy⟩
    · exact ⟨fun ⟨e, answered⟩ => absurd answered (open_ _), fun here => absurd here.1 busy⟩
  · have call := Upload.call_of_answer? answered
    have has := outfit call
    rw [Upload.Outfit, call] at has
    obtain ⟨failed, _⟩ := has
    constructor
    · rw [answered, failed]
      exact ⟨fun never => (by cases never), fun ⟨_, never⟩ => (by cases never)⟩
    · exact ⟨fun _ => ⟨.inr ⟨_, call⟩, failed⟩, fun _ => ⟨e, answered⟩⟩
  · have call := Upload.call_of_answer? answered
    have has := outfit call
    rw [Upload.Outfit, call] at has
    obtain ⟨receiving, _⟩ := has
    constructor
    · exact ⟨fun _ => ⟨.inr ⟨_, call⟩, receiving⟩, fun _ => answered⟩
    · rw [answered, receiving]
      exact ⟨fun ⟨_, never⟩ => (by cases never), fun ⟨_, never⟩ => (by cases never)⟩

theorem Register.returns_refused {data : Bytes} {transfers : Transfers} {d : δ}
    (failed : upload.phase = .failed)
    (runs :
      Script.Runs disk scene.disk (scene.toTransfers.write upload.fileId data) transfers d ∨
        Script.Runs disk scene.disk (scene.toTransfers.commit upload.fileId) transfers d) :
    transfers.service = scene.service ∧ d = scene.disk ∧
      transfers.answer? upload.fileId = some (.error (Upload.closedError .failed)) := by
  have found := register.upload? member
  have refused : upload.refuse? = some (upload.answer (.error (Upload.closedError .failed))) := by
    simp [Upload.refuse?, failed]
  rcases runs with runs | runs
  · obtain ⟨after, same, service, answered⟩ := Transfers.call_of_refused
      (fun service upload => upload.write service data) found
      (by rw [Upload.write, refused])
    rw [Transfers.write, same] at runs
    obtain ⟨rfl, rfl⟩ := Script.runs_pure.1 runs
    exact ⟨service, rfl, answered⟩
  · obtain ⟨after, same, service, answered⟩ := Transfers.call_of_refused
      (fun service upload => upload.commit service) found
      (by rw [Upload.commit, refused])
    rw [Transfers.commit, same] at runs
    obtain ⟨rfl, rfl⟩ := Script.runs_pure.1 runs
    exact ⟨service, rfl, answered⟩

/-- A handle that is dropped after it has failed leaves nothing to clean up. -/
theorem Register.leaves_lost {inside : Bool} {after : Scene δ} (lost : upload.Lost)
    (steps : scene.Steps disk (.act upload.fileId (.drop inside)) after) :
    after.service = scene.service ∧ after.disk = scene.disk ∧
      ∀ later, Reaches disk (Draws limit) after later →
        ∃ last ∈ later.uploads, last.fileId = upload.fileId ∧ last.cleanup = .none ∧
          ∀ script, ¬ last.Offers later.service .cleanup script := by
  obtain ⟨service, disk', _⟩ :=
    register.steps_alone (fun _ => True) member
      (fun script offers => by
        cases offers with
        | drop => exact ⟨_, rfl, trivial⟩)
      steps
  refine ⟨service, disk', fun later reaches => ?_⟩
  have drops : scene.Draws limit (.act upload.fileId (.drop inside)) := trivial
  have reaches : Reaches disk (Draws limit) scene later :=
    (Reaches.single drops steps).trans reaches
  obtain ⟨last, there, own, lost⟩ := register.stays_lost member lost reaches
  refine ⟨last, there, own, lost.clean, fun script offers => ?_⟩
  cases offers with
  | cleanup offered =>
      unfold Upload.cleanupStep at offered
      rw [lost.clean] at offered
      cases offered

end

/-- Between two calls that have run to their end a handle is whole and receives, or it
    has failed and is spent for good, and it never complains of what it has lost. -/
theorem handle_is_whole_or_spent (opens : opening.Opens limit)
    (reaches : Reaches disk (Completes limit upload.fileId) opening scene)
    (member : upload ∈ scene.uploads) (handle : upload.fileId ∉ scene.dropped) :
    WholeOrSpent disk limit scene upload ∧
      ∀ e, Upload.TellsOfLoss e →
        Reaches disk (Blameless limit upload.fileId e) opening scene →
          upload.answer? ≠ some (.error e) := by
  have draws : Reaches disk (Draws limit) opening scene := reaches.mono fun _ _ here => here.1
  have register := opens.register.reaches (fun _ _ draws => draws) draws
  have unfed : upload.Unfed :=
    Register.always Upload.Unfed opens
      (fun _ idle ⟨_, answered⟩ => by cases idle.symm.trans answered)
      (fun _ _ _ moves unfed => unfed.moves moves) draws upload member
  obtain ⟨outfit, clean⟩ :=
    (opens.kept reaches upload member rfl).stands.resolve_left fun gone => handle gone.1
  constructor
  · constructor
    case between => exact fun between open_ => outfit.between between open_
    case whole => exact fun between => outfit.whole between
    case spent => exact fun failed => (outfit.lost clean failed).spent
    case written =>
      intro data begun later steps behind
      have writes : scene.Completes limit upload.fileId (.act upload.fileId (.write data)) :=
        ⟨trivial, by simp⟩
      have ends : Reaches disk (Completes limit upload.fileId) begun later := by
        refine behind.mono fun scene deed untouched => ⟨untouched.1, ?_⟩
        rintro rfl
        cases untouched.2 _ rfl
      have kept := opens.kept ((reaches.trans (.single writes steps)).trans ends)
      exact register.write_leaves member kept unfed steps behind
    case stays =>
      intro failed later behind
      obtain ⟨last, there, own, lost⟩ :=
        register.stays_lost member (outfit.lost clean failed) behind
      exact ⟨last, there, own, lost.phase, lost.spent⟩
    case refuses =>
      exact fun failed act after goesOn steps =>
        register.refuses_failed member failed goesOn steps
    case returns =>
      exact fun failed data transfers d runs => register.returns_refused member failed runs
    case leaves =>
      exact fun failed inside after steps =>
        register.leaves_lost member (outfit.lost clean failed) steps
  · intro e loss blameless answered
    refine opens.never_complains loss.not_own blameless upload member rfl ?_
    rw [Upload.complaint?, Upload.call_of_answer? answered]

/-- Nobody comes up with an error of a handle that has lost what it should have. -/
def Quiet (disk : Disk δ) (limit : Nat) (id : FileId) (opening scene : Scene δ) : Prop :=
  ∀ e, Upload.TellsOfLoss e → Reaches disk (Blameless limit id e) opening scene

theorem HasOne.quiet {before : Upload} {service : Service} {d : δ} {chunk payload : Bytes}
    {script : Script (Service × Upload)} (act : Act) (service' : Service) (next : Upload) (d' : δ)
    (one : scene.HasOne service before d chunk payload) (quiet : Quiet disk limit id opening scene)
    (same : next.fileId = before.fileId) (behaves : before.Behaves act) (ends : act ≠ .giveUp)
    (keeps : ∀ inside, act ≠ .drop inside)
    (free : act = .caller → before.InsertDue → ∀ record rest, before.call ≠ .flushing record rest)
    (unblamed : ∀ e, Upload.TellsOfLoss e → ¬ before.IsBlamed service e act)
    (offers : before.Offers service act script)
    (runs : Script.Runs disk d script (service', next) d') :
    ∃ scene', Quiet disk limit id opening scene' ∧
      scene'.HasOne service' next d' (before.chunkAfter act chunk)
        (before.payloadAfter act chunk payload) := by
  obtain ⟨scene', _, steps, one'⟩ :=
    show ∃ scene', scene.Conforms limit _ ∧ _ from
      one.steps act service' next d' same keeps behaves free offers runs
  refine ⟨scene', fun e loss => ?_, one'⟩
  have completes : scene.Completes limit id (.act before.fileId act) :=
    ⟨trivial, fun same => ends (Deed.act.inj same).2⟩
  refine .step (quiet e loss) ⟨completes, ?_⟩ steps
  rintro _ ⟨⟩ upload there _
  rw [one.uploads, List.mem_singleton] at there
  rw [there, one.service]
  exact unblamed e loss

/-- The first upload of the sample takes three bytes and is whole. Then it is aborted: its
    writer stops, its blob is removed, and its handle is spent. -/
theorem sample_is_spent : ∃ (written final : Scene FileTree) (whole spent : Upload),
    sample.Opens 2 ∧ Reaches FileTree.disk (Completes 2 whole.fileId) sample written ∧
      whole ∈ written.uploads ∧ whole.fileId ∉ written.dropped ∧
        whole.answer? = some (.ok none) ∧ whole.Equipped ∧
          WholeOrSpent FileTree.disk 2 written whole ∧
            Reaches FileTree.disk (Completes 2 spent.fileId) sample final ∧
              spent ∈ final.uploads ∧ spent.fileId ∉ final.dropped ∧ spent.phase = .failed ∧
                WholeOrSpent FileTree.disk 2 final spent ∧
                  ∀ e, Upload.TellsOfLoss e →
                    Reaches FileTree.disk (Blameless 2 spent.fileId e) sample final ∧
                      whole.answer? ≠ some (.error e) ∧ spent.answer? ≠ some (.error e) := by
  let writing : Upload :=
    { sampleUpload with
      phase := .writing
      encoder := some { sampleEncoder with pending := [1, 2, 3], received := 3 }
      call := .handOff [] }
  let whole : Upload := { writing with phase := .receiving, call := .answered (.ok none) }
  let asked := whole.abort .cancelled
  let stopped := asked.endWriter (.error .cancelled)
  let spent := { stopped with phase := .failed }.answer (.error .cancelled)
  let removed := sampleService.note .remove sampleUpload.blobName
  have other {e : Error} (loss : Upload.TellsOfLoss e) : Error.cancelled ≠ e := by
    rintro rfl
    cases loss
  -- The catalog of the sample takes every record.
  have unblamed {upload : Upload} {e : Error} (writer : upload.writer.result? ≠ some (.error e))
      (call : ∀ record, upload.call ≠ .flushing record (.done (.error e))) :
      ¬ upload.IsBlamed sampleService e .caller := by
    rintro (failed | refuses | ⟨record, staged⟩ | ⟨record, flushed⟩)
    · exact writer failed
    · cases refuses
    · cases staged
    · exact call record flushed
  have fresh (e : Error) : writing.writer.result? ≠ some (.error e) := fun never => by cases never
  have halted {e : Error} (loss : Upload.TellsOfLoss e) :
      stopped.writer.result? ≠ some (.error e) := fun same => by
    cases same
    exact other loss rfl
  have one : HasOne { sample with toTransfers := ⟨sampleService, [sampleUpload]⟩ } sampleService
      sampleUpload {} [] [] := ⟨rfl, rfl, rfl, rfl, rfl, rfl⟩
  have run : Quiet FileTree.disk 2 sampleUpload.fileId sample
      { sample with toTransfers := ⟨sampleService, [sampleUpload]⟩ } := by
    refine fun e _ => .single ⟨⟨?_, by simp⟩, fun _ never => by cases never⟩ (.start sample_start)
    rw [Draws, sample_start]
    decide
  obtain ⟨s₁, run, one⟩ := one.quiet (.write [1, 2, 3]) sampleService writing {} run rfl trivial
    (by simp) (by simp) (by simp) (fun e loss => id) (.write ⟨rfl, by simp [sampleUpload]⟩)
    (by rw [sample_write]; exact .done)
  obtain ⟨s₂, run, one⟩ := one.quiet .caller sampleService whole {} run rfl trivial (by simp)
    (by simp) (by simp [writing]) (fun e _ => unblamed (fresh e) (by simp [writing]))
    (.caller rfl) .done
  obtain ⟨s₃, run', one'⟩ := one.quiet (.abort .cancelled) sampleService asked {} run rfl trivial
    (by simp) (by simp) (by simp) (fun e loss => other loss) (.abort ⟨trivial, by simp [whole]⟩)
    .done
  obtain ⟨s₄, run', one'⟩ := one'.quiet .writer sampleService stopped {} run' rfl trivial (by simp)
    (by simp) (by simp) (fun e loss => id) (.writer rfl) .done
  obtain ⟨s₅, run', one'⟩ := one'.quiet .caller removed spent {} run' rfl trivial (by simp)
    (by simp) (by rintro - ⟨_, _, ⟨⟩, _⟩)
    (fun e loss => unblamed (halted loss) (fun _ never => by cases never)) (.caller rfl) .done
  have calm {scene : Scene FileTree}
      (run : Quiet FileTree.disk 2 sampleUpload.fileId sample scene) :
      Reaches FileTree.disk (Completes 2 sampleUpload.fileId) sample scene :=
    (run _ .closed).mono fun _ _ blameless => blameless.1
  have there : whole ∈ s₂.uploads := by simp [one.uploads]
  have there' : spent ∈ s₅.uploads := by simp [one'.uploads]
  have holds : whole.fileId ∉ s₂.dropped := by simp [one.dropped]
  have holds' : spent.fileId ∉ s₅.dropped := by simp [one'.dropped]
  have reaches : Reaches FileTree.disk (Completes 2 whole.fileId) sample s₂ := calm run
  have reaches' : Reaches FileTree.disk (Completes 2 spent.fileId) sample s₅ := calm run'
  obtain ⟨wholly, silent⟩ := handle_is_whole_or_spent sample_opens reaches there holds
  obtain ⟨spending, silent'⟩ := handle_is_whole_or_spent sample_opens reaches' there' holds'
  exact ⟨s₂, s₅, whole, spent, sample_opens, reaches, there, holds, rfl, ⟨rfl, rfl, rfl⟩, wholly,
    reaches', there', holds', rfl, spending, fun e loss =>
      ⟨run' e loss, silent e loss (run e loss), silent' e loss (run' e loss)⟩⟩

end Scene

end Strongroom
