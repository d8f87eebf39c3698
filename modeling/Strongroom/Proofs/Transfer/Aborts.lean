import Strongroom.Proofs.Transfer.Register
import Strongroom.Proofs.Transfer.Schedule

/-! # Calls that abort

A call that aborts its upload tells the writer to stop, waits for it, and removes
the blob. While nobody takes the handle it comes to one answer, the reason, whatever
else happens, and at most two steps lead there.
-/

namespace Strongroom

variable {δ : Type}

namespace Upload

/-- A call has aborted the upload for some reason, and waits for the writer. -/
def AbortsFor (upload : Upload) (reason : Error) : Prop :=
  upload.stopped = true ∧ ∃ held, upload.call = .joinForAbort held reason

/-- The last call was answered with the reason for which the upload has failed. -/
def FailedFor (upload : Upload) (reason : Error) : Prop :=
  upload.stopped = true ∧ upload.phase = .failed ∧ upload.call = .answered (.error reason)

/-- All that an act can do is to abort the upload. -/
def AbortsBy (service : Service) (upload : Upload) (act : Act) (reason : Error) : Prop :=
  ∀ script, upload.Offers service act script →
    ∃ entered : Upload, script = pure (service, entered.abort reason)

/-- Some of the tasks can go on, and however the stores reply, a goal is reached after
    at most so many of their steps. -/
def ComesWithin (disk : Disk δ) (tasks : Act → Prop) (goal : Upload → Prop) : Nat → Spot δ → Prop
  | 0, s => goal s.upload
  | n + 1, s =>
    goal s.upload ∨ ∃ act script, tasks act ∧ s.upload.Offers s.service act script ∧
      ∀ service upload d, Script.Runs disk s.disk script (service, upload) d →
        ComesWithin disk tasks goal n ⟨service, upload, d⟩

section

variable {disk : Disk δ} {s s' : Spot δ} {act : Act} {reason : Error}

theorem abortsFor_abort (upload : Upload) (reason : Error) :
    (upload.abort reason).AbortsFor reason :=
  ⟨rfl, upload.held, rfl⟩

theorem Enters.fired {upload entered : Upload} {asked : Option Bytes}
    (enters : upload.Enters act asked entered) (fired : upload.cancelled = true) :
    entered.cancelled = true := by
  cases enters with
  | write | commit | finish => exact fired
  | item => simp [fired]

theorem Stops.cancelled {upload next : Upload} {reason : Error}
    (stops : upload.Stops act next reason) (fired : upload.cancelled = true) :
    next.cancelled = true := by
  cases stops with
  | fired enters | interrupted enters | unsealed enters => exact enters.fired fired
  | broken => simp [fired]
  | _ => exact fired

/-- While a call waits for the writer to remove the blob, or is over, and nobody
    takes the handle, nothing happens to it but that removal. -/
theorem still_of_moves (held : act.takesHandle = false) (moves : Moves disk s act s')
    (busy : (∃ held reason, s.upload.call = .joinForAbort held reason) ∨
      ∃ result, s.upload.call = .answered result) :
    (s'.upload.call = s.upload.call ∧ s'.upload.phase = s.upload.phase ∧
        s'.upload.stopped = s.upload.stopped) ∨
      act = .caller ∧ ∃ held reason result, s.upload.call = .joinForAbort held reason ∧
        s'.upload = { s.upload with phase := .failed, call := .answered (.error reason) } ∧
          Script.Runs disk s.disk (s.service.removeBlob s.upload.blobName)
            (result, s'.service) s'.disk := by
  have other {call : Call} (here : s.upload.call = call)
      (aborts : ∀ held reason, call ≠ .joinForAbort held reason)
      (ends : ∀ result, call ≠ .answered result) : False := by
    rcases busy with ⟨held, reason, call⟩ | ⟨result, call⟩
    · exact aborts held reason (here.symm.trans call)
    · exact ends result (here.symm.trans call)
  have enters {asked : Option Bytes} {entered : Upload}
      (enters : s.upload.Enters act asked entered) : False := by
    cases enters with
    | write | commit => cases held
    | item here | finish here => exact other here (by simp) (by simp)
  cases moves with
  | writer moves =>
      rw [moves.same.2]
      exact .inl ⟨rfl, rfl, rfl⟩
  | cleared => exact .inl ⟨rfl, rfl, rfl⟩
  | caller moves =>
      cases moves with
      | stop stops =>
          exfalso
          cases stops with
          | asked => cases held
          | fired here | interrupted here | unsealed here => exact enters here
          | unsent waits | overtaken waits =>
              rcases waits with ⟨_, here⟩ | ⟨_, _, here⟩
              all_goals exact other here (by simp) (by simp)
          | unfed here | broken here | failed here | learned here =>
              exact other here (by simp) (by simp)
      | deny here | opened here | sealed here => exact (enters here).elim
      | fed | gaveUp | dropped => cases held
      | wrote here | handed here | handedFinal here | refused here | staged here | flushed here
      | filed here | unstaged here => exact (other here (by simp) (by simp)).elim
      | hungUp waits =>
          rcases waits with ⟨_, _, here⟩ | ⟨_, _, here⟩
          all_goals exact (other here (by simp) (by simp)).elim
      | removed clears runs =>
          rcases clears with here | ⟨held, here, _⟩
          · exact (other here (by simp) (by simp)).elim
          · exact .inr ⟨rfl, held, _, _, here, rfl, runs⟩
      | cancelled => exact .inl ⟨rfl, rfl, rfl⟩

/-- A call that aborts goes on to do so until its answer comes with the removal of
    the blob. -/
theorem AbortsFor.moves (aborts : s.upload.AbortsFor reason) (held : act.takesHandle = false)
    (moves : Moves disk s act s') :
    s'.upload.AbortsFor reason ∨
      act = .caller ∧ s'.upload.FailedFor reason ∧ ∃ result,
        Script.Runs disk s.disk (s.service.removeBlob s.upload.blobName)
          (result, s'.service) s'.disk := by
  obtain ⟨stopped, held', call⟩ := aborts
  rcases still_of_moves held moves (.inl ⟨held', _, call⟩) with
    ⟨same, _, stopped'⟩ | ⟨caller, _, _, result, here, next, runs⟩
  · exact .inl ⟨stopped'.trans stopped, held', same.trans call⟩
  · cases here.symm.trans call
    rw [next]
    exact .inr ⟨caller, ⟨stopped, rfl, rfl⟩, result, runs⟩

theorem FailedFor.moves (failed : s.upload.FailedFor reason) (held : act.takesHandle = false)
    (moves : Moves disk s act s') : s'.upload.FailedFor reason := by
  obtain ⟨stopped, phase, call⟩ := failed
  rcases still_of_moves held moves (.inr ⟨_, call⟩) with
    ⟨same, phase', stopped'⟩ | ⟨_, _, _, _, here, _⟩
  · exact ⟨stopped'.trans stopped, phase'.trans phase, same.trans call⟩
  · cases here.symm.trans call

theorem AbortsFor.removal (disk : Disk δ) (aborts : s.upload.AbortsFor reason)
    (free : ∀ reason, s.upload.call = .joinForAbort true reason → s.upload.writer.isOver = true) :
    ∃ script, s.upload.callerStep s.service = some script ∧
      ∀ service upload d, Script.Runs disk s.disk script (service, upload) d →
        upload.FailedFor reason := by
  obtain ⟨stopped, held, call⟩ := aborts
  have waits : (held && !s.upload.writer.isOver) = false := by
    cases held with
    | false => rfl
    | true => simp [free _ call]
  cases offered : s.upload.callerStep s.service with
  | none => simp [callerStep, call, waits] at offered
  | some script =>
      refine ⟨script, rfl, fun service upload d runs => ?_⟩
      simp only [callerStep, call, waits, Bool.false_eq_true, if_false] at offered
      obtain rfl := Option.some.inj offered
      obtain ⟨⟨result, removed⟩, d₁, _, rest⟩ := Script.runs_bind.1 runs
      obtain ⟨⟨⟩, rfl⟩ := Script.runs_pure.1 rest
      exact ⟨stopped, rfl, rfl⟩

/-- A writer that was told to stop does so in its next step, and then the task that
    waits for it can go on. -/
theorem comesWithin_of_stopped {tasks : Act → Prop} {goal : Upload → Prop}
    (stopped : s.upload.stopped = true) (writes : tasks .writer)
    (ends : ∀ service writer, writer.isOver = true →
      let upload := { s.upload with writer }
      ∃ act script, tasks act ∧ upload.Offers service act script ∧
        ∀ service' next d, Script.Runs disk s.disk script (service', next) d → goal next) :
    ComesWithin disk tasks goal 2 s := by
  cases running : s.upload.writer.isOver with
  | true =>
      obtain ⟨act, script, task, offers, reached⟩ := ends s.service s.upload.writer running
      exact .inr ⟨act, script, task, offers,
        fun service upload d runs => .inl (reached service upload d runs)⟩
  | false =>
      have offered : s.upload.writerStep s.service = some (pure
          ({ s.service with conduct := s.service.conduct.leave s.upload.fileId },
            s.upload.endWriter (.error .cancelled))) := by
        rw [writerStep, running, if_neg Bool.false_ne_true, if_pos stopped]
      refine .inr ⟨.writer, _, writes, .writer offered, fun service upload d runs => ?_⟩
      obtain ⟨⟨⟩, rfl⟩ := Script.runs_pure.1 runs
      exact .inr (ends _ _ rfl)

/-- A call that aborts comes to its answer in at most two steps. -/
theorem AbortsFor.comesWithin (disk : Disk δ) (aborts : s.upload.AbortsFor reason) :
    ComesWithin disk (fun act => act = .caller ∨ act = .writer) (·.FailedFor reason) 2 s := by
  apply comesWithin_of_stopped aborts.1 (.inr rfl)
  intro service writer ended
  let halted : Spot δ := ⟨service, { s.upload with writer }, s.disk⟩
  have aborts : halted.upload.AbortsFor reason := aborts
  obtain ⟨script, offered, ends⟩ := aborts.removal disk fun _ _ => ended
  exact ⟨.caller, script, .inl rfl, .caller offered, ends⟩

end

end Upload

namespace Scene

variable {disk : Disk δ} {limit : Nat} {scene later : Scene δ} {upload : Upload} {reason : Error}

/-- Whatever may happen, but that nobody takes the handle of an upload. -/
def Untouched (limit : Nat) (id : FileId) (scene : Scene δ) (deed : Deed) : Prop :=
  scene.Draws limit deed ∧ ∀ act, deed = .act id act → act.takesHandle = false

/-- In a step of its caller's task the store is asked to remove the blob of an upload,
    and if that succeeds no object is left. -/
def Clears (disk : Disk δ) (upload : Upload) (scene scene' : Scene δ) : Prop :=
  scene.Steps disk (.act upload.fileId .caller) scene' ∧ ∃ result,
    scene.service.Removes disk scene.disk upload.blobName result scene'.service scene'.disk ∧
      ∀ (root path : Option Path) (shelf : Shelf disk root path),
        scene.service.blobs.root? = root → result = .ok () →
          shelf.shows scene' upload.blobName = none

/-- While nobody takes the handle, a call that was aborted has one answer, which comes
    with the removal of the blob after at most two steps. -/
def EndsFor (disk : Disk δ) (limit : Nat) (upload : Upload) (reason : Error) (scene : Scene δ) :
    Prop :=
  ∀ later, Reaches disk (Untouched limit upload.fileId) scene later →
    ∃ last ∈ later.uploads, last.fileId = upload.fileId ∧
      ((last.AbortsFor reason ∧
          Upload.ComesWithin disk (fun act => act = .caller ∨ act = .writer) (·.FailedFor reason) 2
            ⟨later.service, last, later.disk⟩) ∨
        last.FailedFor reason ∧ ∃ before after,
          Reaches disk (Untouched limit upload.fileId) scene before ∧
            Clears disk upload before after ∧
              Reaches disk (Untouched limit upload.fileId) after later)

theorem EndsFor.congr {next : Upload} (ends : EndsFor disk limit next reason scene)
    (fileId : next.fileId = upload.fileId) (blobName : next.blobName = upload.blobName) :
    EndsFor disk limit upload reason scene := by
  unfold EndsFor Clears at ends ⊢
  rw [← fileId, ← blobName]
  exact ends

/-- What the call that begins with an act comes to as it is driven on: it is answered
    with a reason, the upload has failed, and on the way its blob was removed. -/
structure FailsFor (disk : Disk δ) (limit : Nat) (scene : Scene δ) (upload : Upload) (act : Act)
    (reason : Error) (transfers : Transfers) (d : δ) : Prop where
  answered : transfers.answer? upload.fileId = some (.error reason)
  failed : ∃ last ∈ transfers.uploads, last.fileId = upload.fileId ∧ last.FailedFor reason
  cleared : ∃ begun before after final, scene.Steps disk (.act upload.fileId act) begun ∧
    Reaches disk (Untouched limit upload.fileId) begun before ∧ Clears disk upload before after ∧
      Reaches disk (Untouched limit upload.fileId) after final ∧
        final.toTransfers = transfers ∧ final.disk = d

namespace Register

theorem upload? (register : Register limit scene) (member : upload ∈ scene.uploads) :
    scene.toTransfers.upload? upload.fileId = some upload :=
  Transfers.upload?_eq member fun other there => register.apart other there upload member

theorem follows_untouched (holds : Upload → Prop) (register : Register limit scene)
    (moved : ∀ (s s' : Spot δ) act, act.takesHandle = false → Moves disk s act s' →
      holds s.upload → holds s'.upload)
    (reaches : Reaches disk (Untouched limit upload.fileId) scene later)
    (member : upload ∈ scene.uploads) (here : holds upload) :
    ∃ last ∈ later.uploads, last.fileId = upload.fileId ∧ last.blobName = upload.blobName ∧
      holds last := by
  obtain ⟨last, there, own, name, _, still⟩ :=
    register.follows (fun last => last.fileId = upload.fileId ∧ holds last)
      (fun _ _ allowed => allowed.1)
      (fun _ _ before next act register present allowed moves here => by
        have file := (Footprint.of_moves (register.sound before present).owns moves).file
        have held : act.takesHandle = false := allowed.2 act (by rw [here.1])
        exact ⟨file.fileId.trans here.1, moved _ _ _ held moves here.2⟩)
      reaches member ⟨rfl, here⟩
  exact ⟨last, there, own, name, still⟩

theorem endsFor_of_aborts (register : Register limit scene) (member : upload ∈ scene.uploads)
    (aborts : upload.AbortsFor reason) : EndsFor disk limit upload reason scene := by
  intro later reaches
  -- That the blob keeps its name is what carries the induction.
  suffices found : ∃ last ∈ later.uploads, last.fileId = upload.fileId ∧
      last.blobName = upload.blobName ∧
        (last.AbortsFor reason ∨ last.FailedFor reason ∧ ∃ before after,
          Reaches disk (Untouched limit upload.fileId) scene before ∧
            Clears disk upload before after ∧
              Reaches disk (Untouched limit upload.fileId) after later) by
    obtain ⟨last, there, own, _, state⟩ := found
    exact ⟨last, there, own, state.imp_left fun aborts => ⟨aborts, aborts.comesWithin disk⟩⟩
  induction reaches with
  | refl => exact ⟨upload, member, rfl, rfl, .inl aborts⟩
  | @step middle final deed reached allowed steps ih =>
      obtain ⟨next, present, own, name, state⟩ := ih
      have register := register.reaches (fun _ _ allowed => allowed.1) reached
      rcases register.goes steps present with ⟨still, _⟩ | ⟨act, rfl, last, there, file, moves⟩
      · refine ⟨next, still, own, name, state.imp_right ?_⟩
        rintro ⟨ended, before, after, begins, clears, ends⟩
        exact ⟨ended, before, after, begins, clears, .step ends allowed steps⟩
      · refine ⟨last, there, file.fileId.trans own, file.blobName.trans name, ?_⟩
        have held : act.takesHandle = false := allowed.2 act (by rw [own])
        rcases state with aborts | ⟨ended, before, after, begins, clears, ends⟩
        · rcases aborts.moves held moves with aborts | ⟨rfl, ended, result, runs⟩
          · exact .inl aborts
          · obtain ⟨_, n, _, _, drawn⟩ := register.drawn next present
            simp only at runs
            rw [name] at runs drawn
            rw [own] at steps
            refine .inr ⟨ended, middle, final, reached,
              ⟨steps, result, Service.removes_iff.2 runs, ?_⟩, .refl⟩
            exact fun root path shelf rooted succeeds =>
              shelf.removal rooted ⟨_, drawn⟩ runs (.inl succeeds)
        · exact .inr ⟨ended.moves held moves, before, after, begins, clears,
            .step ends allowed steps⟩

section

variable {transfers : Transfers} {d : δ} {fuel : Nat} {act : Act}

/-- A run in which nobody takes the handle of an upload leads to where its call has
    failed for a reason. -/
def LeadsToFailure (disk : Disk δ) (limit : Nat) (scene : Scene δ) (id : FileId) (reason : Error)
    (transfers : Transfers) (d : δ) : Prop :=
  scene.LeadsTo disk (Untouched limit id) transfers d fun final =>
    ∃ last ∈ final.uploads, last.fileId = id ∧ last.FailedFor reason

theorem driveFor_of_failed (register : Register limit scene)
    (member : upload ∈ scene.uploads) (failed : upload.FailedFor reason)
    (runs : Script.Runs disk scene.disk
      (Transfers.driveFor upload.fileId fuel scene.toTransfers) transfers d) :
    LeadsToFailure disk limit scene upload.fileId reason transfers d := by
  have found := register.upload? member
  have answer : upload.answer? = some (.error reason) := by
    rw [Upload.answer?, failed.2.2]
  have rests : scene.toTransfers.callerStep upload.fileId = none := by
    simp [Transfers.callerStep, found, Upload.callerStep, failed.2.2]
  have same : transfers = scene.toTransfers ∧ d = scene.disk := by
    cases fuel with
    | zero => exact Script.runs_pure.1 runs
    | succ fuel =>
        unfold Transfers.driveFor at runs
        simp only [rests, found, Option.bind_some, answer, Option.isSome_some, if_true] at runs
        split at runs
        · exact Script.runs_pure.1 runs
        · exact Script.runs_pure.1 runs
  obtain ⟨rfl, rfl⟩ := same
  exact ⟨scene, .refl, rfl, rfl, upload, member, rfl, failed⟩

theorem driveFor_of_free (register : Register limit scene)
    (member : upload ∈ scene.uploads) (aborts : upload.AbortsFor reason)
    (free : ∀ reason, upload.call = .joinForAbort true reason → upload.writer.isOver = true)
    (runs : Script.Runs disk scene.disk
      (Transfers.driveFor upload.fileId (fuel + 1) scene.toTransfers) transfers d) :
    LeadsToFailure disk limit scene upload.fileId reason transfers d := by
  let spot : Spot δ := ⟨scene.service, upload, scene.disk⟩
  have aborts : spot.upload.AbortsFor reason := aborts
  obtain ⟨script, offered, ends⟩ := aborts.removal disk free
  have offered : upload.callerStep scene.service = some script := offered
  unfold Transfers.driveFor at runs
  simp only [Transfers.callerStep, register.upload? member, offered, Option.bind_eq_bind,
    Option.bind_some] at runs
  obtain ⟨between, d₁, first, rest⟩ := Script.runs_bind.1 runs
  obtain ⟨⟨service, next⟩, d₂, step, put⟩ := Script.runs_bind.1 first
  obtain ⟨rfl, rfl⟩ := Script.runs_pure.1 put
  have moves : Moves disk ⟨scene.service, upload, scene.disk⟩ .caller ⟨service, next, d₁⟩ :=
    moves_of_offers (.caller offered) step
  have file := (Footprint.of_moves (register.sound upload member).owns moves).file
  have failed : next.FailedFor reason := ends service next d₁ step
  let answered := scene.after upload .caller service next d₁
  have there : next ∈ answered.uploads :=
    Transfers.mem_store.2 (.inr ⟨rfl, upload, member, file.fileId.symm⟩)
  have register' : Register limit answered := register.act member moves
  have steps : scene.Steps disk (.act upload.fileId .caller) answered := by
    refine .act member (by simp [Act.takesHandle]) ?_ (.caller offered) step
    -- A call that aborts asks for no record.
    rintro - ⟨_, _, joins, _⟩
    obtain ⟨_, _, call⟩ := aborts
    cases joins.symm.trans call
  have untouched : scene.Untouched limit upload.fileId (.act upload.fileId .caller) :=
    ⟨trivial, fun act same => by cases same; rfl⟩
  rw [← file.fileId] at rest
  obtain ⟨final, reaches, same, disk', last⟩ := register'.driveFor_of_failed there failed rest
  rw [file.fileId] at reaches last
  exact ⟨final, (Reaches.single untouched steps).trans reaches, same, disk', last⟩

/-- Driven on, a call that aborts is answered. -/
theorem driveFor_of_aborts (register : Register limit scene) (books : Books limit scene)
    (member : upload ∈ scene.uploads) (aborts : upload.AbortsFor reason)
    (runs : Script.Runs disk scene.disk
      (Transfers.driveFor upload.fileId (fuel + 2) scene.toTransfers) transfers d) :
    LeadsToFailure disk limit scene upload.fileId reason transfers d := by
  by_cases free : ∀ reason, upload.call = .joinForAbort true reason → upload.writer.isOver = true
  · exact register.driveFor_of_free member aborts free runs
  obtain ⟨_, waits⟩ := Classical.not_forall.1 free
  obtain ⟨call, running⟩ := Classical.not_imp.1 waits
  have running : upload.writer.isOver = false := by simpa using running
  have found := register.upload? member
  have blocked : scene.toTransfers.callerStep upload.fileId = none := by
    simp [Transfers.callerStep, found, Upload.callerStep, call, running]
  have unanswered : upload.answer? = none := by
    rw [Upload.answer?, call]
  unfold Transfers.driveFor at runs
  simp only [blocked, found, Option.bind_some, unanswered, Option.isSome_none, Bool.false_eq_true,
    if_false] at runs
  split at runs
  · rename_i nothing
    have rests := (Transfers.rests_of_backgroundStep nothing upload member).1
    simp [Upload.writerStep, running, aborts.1] at rests
  -- The writer stops as the tasks in the background come to rest.
  · obtain ⟨between, d₁, settles, rest⟩ := Script.runs_bind.1 runs
    obtain ⟨settled, reaches, rfl, rfl, rests⟩ := settle_leadsTo books settles
    have untouched : Reaches disk (Untouched limit upload.fileId) scene settled := by
      refine reaches.mono ?_
      rintro _ _ ⟨_, _, rfl, task⟩
      refine ⟨trivial, fun act same => ?_⟩
      cases same
      rcases task with rfl | rfl
      all_goals rfl
    obtain ⟨next, present, own, _, aborts⟩ :=
      register.follows (·.AbortsFor reason)
        (by
          rintro _ _ ⟨_, _, rfl, _⟩
          trivial)
        (fun _ _ _ _ act _ _ background moves aborts => by
          obtain ⟨_, _, same, task⟩ := background
          obtain rfl := (Deed.act.inj same).2
          have held : act.takesHandle = false := by
            rcases task with rfl | rfl
            all_goals rfl
          rcases aborts.moves held moves with still | ⟨rfl, _⟩
          · exact still
          · rcases task with task | task
            all_goals cases task)
        reaches member aborts
    have ended : next.writer.isOver = true := by
      cases running : next.writer.isOver with
      | true => rfl
      | false =>
          have idle := (rests next present).1
          simp [Upload.writerStep, running, aborts.1] at idle
    rw [← own] at rest
    have register := register.reaches (fun _ _ allowed => allowed.1) untouched
    obtain ⟨final, driven, same, disk', last⟩ :=
      register.driveFor_of_free present aborts (fun _ _ => ended) rest
    rw [own] at driven last
    exact ⟨final, untouched.trans driven, same, disk', last⟩

theorem abort_after {script : Script (Service × Upload)} (disk : Disk δ)
    (register : Register limit scene) (member : upload ∈ scene.uploads)
    (aborts : upload.AbortsBy scene.service act reason)
    (early : act = .caller → ¬ upload.InsertDue)
    (offers : upload.Offers scene.service act script) :
    ∃ next : Upload, script = pure (scene.service, next) ∧ next.fileId = upload.fileId ∧
      next.blobName = upload.blobName ∧ next.AbortsFor reason ∧
        next ∈ (scene.after upload act scene.service next scene.disk).uploads ∧
          ((act.takesHandle = true → upload.fileId ∉ scene.dropped) →
            scene.Steps disk (.act upload.fileId act)
              (scene.after upload act scene.service next scene.disk)) := by
  have sound := register.sound upload member
  obtain ⟨entered, rfl⟩ := aborts script offers
  have runs : Script.Runs disk scene.disk (pure (scene.service, entered.abort reason))
      (scene.service, entered.abort reason) scene.disk := Script.runs_pure.2 ⟨rfl, rfl⟩
  have moves : Moves disk ⟨scene.service, upload, scene.disk⟩ act
      ⟨scene.service, entered.abort reason, scene.disk⟩ := moves_of_offers offers runs
  have file := (Footprint.of_moves sound.owns moves).file
  exact ⟨entered.abort reason, rfl, file.fileId, file.blobName,
    Upload.abortsFor_abort entered reason,
    Transfers.mem_store.2 (.inr ⟨rfl, upload, member, file.fileId.symm⟩),
    fun handle => .act member handle (fun caller due => absurd due (early caller)) offers runs⟩

theorem steps_alone (holds : Upload → Prop) {scene' : Scene δ} (register : Register limit scene)
    (member : upload ∈ scene.uploads)
    (alone : ∀ script, upload.Offers scene.service act script →
      ∃ next, script = pure (scene.service, next) ∧ holds next)
    (steps : scene.Steps disk (.act upload.fileId act) scene') :
    scene'.service = scene.service ∧ scene'.disk = scene.disk ∧
      ∃ next ∈ scene'.uploads, next.fileId = upload.fileId ∧ next.blobName = upload.blobName ∧
        holds next := by
  generalize same : Deed.act upload.fileId act = deed at steps
  cases steps with
  | @act before _ _ _ _ _ present _ _ offers runs =>
      obtain ⟨own, rfl⟩ := Deed.act.inj same
      obtain rfl := register.apart before present upload member own.symm
      obtain ⟨next, rfl, holds⟩ := alone _ offers
      have moves := moves_of_offers (s := ⟨scene.service, before, scene.disk⟩) offers runs
      have file := (Footprint.of_moves (register.sound before member).owns moves).file
      obtain ⟨⟨⟩, rfl⟩ := Script.runs_pure.1 runs
      exact ⟨rfl, rfl, _, Transfers.mem_store.2 (.inr ⟨rfl, before, member, file.fileId.symm⟩),
        file.fileId, file.blobName, holds⟩
  | _ => cases same

/-- An act that can only abort changes nothing but its upload. -/
theorem abort_steps {scene' : Scene δ} (register : Register limit scene)
    (member : upload ∈ scene.uploads) (aborts : upload.AbortsBy scene.service act reason)
    (steps : scene.Steps disk (.act upload.fileId act) scene') :
    scene'.service = scene.service ∧ scene'.disk = scene.disk ∧
      ∃ next ∈ scene'.uploads, next.fileId = upload.fileId ∧ next.blobName = upload.blobName ∧
        next.AbortsFor reason := by
  refine register.steps_alone (·.AbortsFor reason) member (fun script offers => ?_) steps
  obtain ⟨entered, rfl⟩ := aborts script offers
  exact ⟨_, rfl, Upload.abortsFor_abort entered reason⟩

/-- Where a call that was aborted has failed in the end, its blob was removed on the way. -/
theorem failsFor_of_leadsTo {begun : Scene δ} {next : Upload} (register : Register limit begun)
    (steps : scene.Steps disk (.act upload.fileId act) begun) (member : next ∈ begun.uploads)
    (own : next.fileId = upload.fileId) (name : next.blobName = upload.blobName)
    (aborts : next.AbortsFor reason)
    (leads : LeadsToFailure disk limit begun upload.fileId reason transfers d) :
    FailsFor disk limit scene upload act reason transfers d := by
  obtain ⟨final, reaches, rfl, rfl, last, there, same, failed⟩ := leads
  have register' := register.reaches (fun _ _ allowed => allowed.1) reaches
  obtain ⟨found, present, same', state⟩ :=
    (register.endsFor_of_aborts member aborts).congr own name final reaches
  obtain rfl := register'.apart found present last there (same'.trans same.symm)
  refine ⟨?_, ⟨found, there, same, failed⟩, ?_⟩
  · rw [← same, Transfers.answer?, register'.upload? there]
    change found.answer? = _
    rw [Upload.answer?, failed.2.2]
  · rcases state with ⟨⟨_, _, call⟩, _⟩ | ⟨_, before, after, begins, clears, ends⟩
    · cases call.symm.trans failed.2.2
    · exact ⟨begun, before, after, final, steps, begins, clears, ends, rfl, rfl⟩

theorem callerFuel (register : Register limit scene) (member : upload ∈ scene.uploads) :
    ∃ fuel, scene.toTransfers.callerFuel upload.fileId = fuel + 3 := by
  unfold Transfers.callerFuel
  rw [register.upload? member]
  exact ⟨_, rfl⟩

/-- After an act that can only abort, the call is driven to its answer. -/
theorem abort_drives {script : Script (Service × Upload)}
    (register : Register limit scene) (books : Books limit scene)
    (member : upload ∈ scene.uploads) (aborts : upload.AbortsBy scene.service act reason)
    (early : act = .caller → ¬ upload.InsertDue) (behaves : ∀ other : Upload, other.Behaves act)
    (offers : upload.Offers scene.service act script)
    (handle : act.takesHandle = true → upload.fileId ∉ scene.dropped) :
    ∃ next, script = pure (scene.service, next) ∧
      let begun := scene.toTransfers.store scene.service next
      (∃ fuel, begun.callerFuel upload.fileId = fuel + 3) ∧
        ∀ fuel transfers d,
          Script.Runs disk scene.disk (Transfers.driveFor upload.fileId (fuel + 2) begun)
              transfers d → FailsFor disk limit scene upload act reason transfers d := by
  obtain ⟨next, same, own, name, aborts, there, steps⟩ :=
    register.abort_after disk member aborts early offers
  have draws : scene.Draws limit (.act upload.fileId act) := trivial
  have behaves : scene.Behaves limit (.act upload.fileId act) := fun other _ _ => behaves other
  have register' := register.steps draws (steps handle)
  have books' := books.steps behaves (steps handle)
  have enough := register'.callerFuel there
  rw [own] at enough
  refine ⟨next, same, enough, fun fuel transfers d runs => ?_⟩
  rw [← own] at runs
  have leads := register'.driveFor_of_aborts books' there aborts runs
  rw [own] at leads
  exact register'.failsFor_of_leadsTo (steps handle) there own name aborts leads

theorem drive_fails {script : Script (Service × Upload)} (register : Register limit scene)
    (books : Books limit scene) (member : upload ∈ scene.uploads)
    (aborts : upload.AbortsBy scene.service .caller reason) (early : ¬ upload.InsertDue)
    (offered : upload.callerStep scene.service = some script)
    (runs : Script.Runs disk scene.disk (scene.toTransfers.drive upload.fileId) transfers d) :
    FailsFor disk limit scene upload .caller reason transfers d := by
  obtain ⟨fuel, enough⟩ := register.callerFuel member
  obtain ⟨next, rfl, _, driven⟩ :=
    register.abort_drives books member aborts (fun _ => early) (fun _ => trivial) (.caller offered)
      fun never => by cases never
  unfold Transfers.drive at runs
  rw [enough, Transfers.driveFor] at runs
  simp only [Transfers.callerStep, register.upload? member, offered, Option.bind_eq_bind,
    Option.bind_some] at runs
  obtain ⟨between, d₁, first, rest⟩ := Script.runs_bind.1 runs
  obtain ⟨rfl, rfl⟩ := Script.runs_pure.1 first
  exact driven _ _ _ rest

theorem call_fails {begin : Service → Upload → Service × Upload}
    (register : Register limit scene) (books : Books limit scene)
    (member : upload ∈ scene.uploads) (aborts : upload.AbortsBy scene.service act reason)
    (early : act = .caller → ¬ upload.InsertDue) (behaves : ∀ other : Upload, other.Behaves act)
    (offers : upload.Offers scene.service act (pure (begin scene.service upload)))
    (handle : upload.fileId ∉ scene.dropped)
    (runs : Script.Runs disk scene.disk (scene.toTransfers.call upload.fileId begin) transfers d) :
    FailsFor disk limit scene upload act reason transfers d := by
  obtain ⟨next, same, ⟨fuel, enough⟩, driven⟩ :=
    register.abort_drives books member aborts early behaves offers fun _ => handle
  have begun : begin scene.service upload = (scene.service, next) := Script.done.inj same
  unfold Transfers.call at runs
  simp only [register.upload? member, begun, Transfers.drive, enough] at runs
  exact driven _ _ _ runs

end

end Register

end Scene

end Strongroom
