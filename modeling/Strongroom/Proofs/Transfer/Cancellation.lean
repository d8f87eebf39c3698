import Strongroom.Proofs.Transfer.Aborts

/-! # Uploads whose token fires

A token that fires before the last record is handed over keeps the upload out of
the catalog for good, whatever else happens. The call that finds it fired ends
as cancelled: it waits for the writer, which stops, and removes the blob.
-/

namespace Strongroom

variable {δ : Type}

namespace Upload

/-- The last record is handed over, and the commit goes on or has succeeded. -/
def IsHandedOver (upload : Upload) : Prop :=
  (∃ size, upload.call = .joinForSize size) ∨ upload.InCatalog

/-- The last record is not handed over yet. -/
def Unsealed (upload : Upload) : Prop :=
  upload.phase = .receiving ∨ upload.phase = .writing ∨
    ∃ record size, upload.call = .handOffFinal record size

/-- The token has fired, and no commit has got past it. -/
structure Cut (upload : Upload) : Prop where
  fired : upload.cancelled = true
  kept : ¬ upload.IsHandedOver

/-- A call finds that the token has fired: it begins, or it waits for room in the
    queue, or the next thing of a stream is due. -/
inductive MeetsToken (upload : Upload) : Act → Prop where
  | write {data : Bytes} :
    upload.cancelled = true → upload.MayCall →
      upload.phase = .receiving ∨ upload.phase = .writing → MeetsToken upload (.write data)
  | commit :
    upload.cancelled = true → upload.MayCall →
      upload.phase = .receiving ∨ upload.phase = .writing → MeetsToken upload .commit
  | waits {record : Bytes} :
    upload.cancelled = true → Sends upload record → MeetsToken upload .caller
  | due {items : List Inbound} :
    upload.cancelled = true → upload.call = .idle → upload.inbound = some items →
      MeetsToken upload .caller
  /-- The token fires as the stream hands data over. -/
  | fires {data : Bytes} {rest : List Inbound} :
    upload.call = .idle → upload.inbound = some (⟨.ok data, true⟩ :: rest) →
      upload.phase = .receiving ∨ upload.phase = .writing → MeetsToken upload .caller

section

variable {service : Service} {upload : Upload}

theorem refuse?_of_fired (fired : upload.cancelled = true)
    (phase : upload.phase = .receiving ∨ upload.phase = .writing) :
    upload.refuse? = some (upload.abort .cancelled) := by
  rcases phase with phase | phase
  all_goals simp [refuse?, phase, fired]

theorem write_of_fired (data : Bytes) (fired : upload.cancelled = true)
    (phase : upload.phase = .receiving ∨ upload.phase = .writing) :
    upload.write service data = (service, upload.abort .cancelled) := by
  rw [write, refuse?_of_fired fired phase]

theorem commit_of_fired (fired : upload.cancelled = true)
    (phase : upload.phase = .receiving ∨ upload.phase = .writing) :
    upload.commit service = (service, upload.abort .cancelled) := by
  rw [commit, refuse?_of_fired fired phase]

theorem handOver_of_fired {record : Bytes} {change : Upload → Upload}
    (fired : upload.cancelled = true) (sending : upload.sending = true) :
    upload.handOver record change = some (upload.abort .cancelled) := by
  simp [handOver, fired, sending]

theorem feed_of_fired {items : List Inbound} (fired : upload.cancelled = true) :
    feed service upload items = (service, { upload with inbound := none }.abort .cancelled) := by
  simp [feed, fired]

theorem feed_of_fires {data : Bytes} {rest : List Inbound}
    (phase : upload.phase = .receiving ∨ upload.phase = .writing) :
    ∃ entered : Upload,
      feed service upload (⟨.ok data, true⟩ :: rest) = (service, entered.abort .cancelled) := by
  by_cases fired : upload.cancelled = true
  · exact ⟨_, feed_of_fired fired⟩
  · refine ⟨{ upload with inbound := some rest, cancelled := upload.cancelled || true }, ?_⟩
    rw [feed, if_neg fired]
    exact write_of_fired data (Bool.or_true _) phase

theorem MeetsToken.callerStep (meets : upload.MeetsToken .caller) (sound : upload.Sound) :
    ∃ entered : Upload,
      upload.callerStep service = some (pure (service, entered.abort .cancelled)) := by
  have call := sound.call
  cases meets with
  | waits fired sends =>
      refine ⟨upload, ?_⟩
      rcases sends with ⟨rest, here⟩ | ⟨size, here⟩
      all_goals
        rw [here] at call
        simp only [Upload.callerStep, here, handOver_of_fired fired call.2, Option.map_some]
  | @due items fired idle inbound =>
      refine ⟨{ upload with inbound := none }, ?_⟩
      simp only [Upload.callerStep, idle, inbound, Option.map_some, feed_of_fired fired]
  | @fires data rest idle inbound phase =>
      obtain ⟨entered, feeds⟩ := feed_of_fires phase
      refine ⟨entered, ?_⟩
      simp only [Upload.callerStep, idle, inbound, Option.map_some]
      exact congrArg (fun outcome => some (pure outcome)) feeds

/-- A call that meets the token changes nothing but its upload, which is aborted. -/
theorem MeetsToken.abortsBy {act : Act} (meets : upload.MeetsToken act) (sound : upload.Sound) :
    upload.AbortsBy service act .cancelled := by
  intro script offers
  cases offers with
  | @write data =>
      cases meets with
      | write fired _ phase => exact ⟨upload, congrArg pure (write_of_fired data fired phase)⟩
  | commit =>
      cases meets with
      | commit fired _ phase => exact ⟨upload, congrArg pure (commit_of_fired fired phase)⟩
  | caller offered =>
      obtain ⟨entered, stops⟩ := meets.callerStep sound
      exact ⟨entered, Option.some.inj (offered.symm.trans stops)⟩
  | _ => cases meets

theorem MeetsToken.not_insertDue {act : Act} (meets : upload.MeetsToken act)
    (caller : act = .caller) : ¬ upload.InsertDue := by
  rintro ⟨size, _, joins, _⟩
  subst caller
  cases meets with
  | waits _ sends =>
      rcases sends with ⟨_, here⟩ | ⟨_, here⟩
      all_goals cases here.symm.trans joins
  | due _ idle | fires idle => cases idle.symm.trans joins

theorem MeetsToken.behaves {act : Act} (meets : upload.MeetsToken act) (other : Upload) :
    other.Behaves act := by
  cases meets <;> trivial

end

section

variable {disk : Disk δ} {s s' : Spot δ} {act : Act}

theorem Stops.undone {upload next : Upload} {reason : Error}
    (stops : upload.Stops act next reason) (undone : upload.phase ≠ .done) :
    next.phase ≠ .done := by
  cases stops with
  | fired enters | interrupted enters => exact enters.phase ▸ undone
  | @unsealed act asked =>
      cases asked with
      | none => simp
      | some data => simp
  | _ => exact undone

theorem Sound.not_isHandedOver {upload : Upload} (sound : upload.Sound)
    (unsealed : upload.Unsealed) : ¬ upload.IsHandedOver := by
  have midway := sound.call
  rintro (⟨size, call⟩ | done | ⟨record, rest, call⟩)
  · rw [call] at midway
    rcases unsealed with phase | phase | ⟨_, _, here⟩
    · cases midway.symm.trans phase
    · cases midway.symm.trans phase
    · cases here.symm.trans call
  · rcases unsealed with phase | phase | ⟨_, _, here⟩
    · cases done.symm.trans phase
    · cases done.symm.trans phase
    · rw [here] at midway
      cases done.symm.trans midway.1
  · rw [call] at midway
    rcases unsealed with phase | phase | ⟨_, _, here⟩
    · cases midway.symm.trans phase
    · cases midway.symm.trans phase
    · cases here.symm.trans call

theorem Sound.done_of_answer {upload : Upload} {record : FileRecord} (sound : upload.Sound)
    (answer : upload.answer? = some (.ok (some record))) : upload.phase = .done := by
  have midway := sound.call
  unfold answer? at answer
  split at answer
  · rename_i call
    cases answer
    rw [call] at midway
    exact midway
  · cases answer

theorem Cut.undone {upload : Upload} (cut : upload.Cut) : upload.phase ≠ .done :=
  fun done => cut.kept (.inr (.inl done))

/-- A token that has fired in time stays in the way of the commit. -/
theorem Cut.moves (cut : s.upload.Cut) (moves : Moves disk s act s') : s'.upload.Cut := by
  have fired := cut.fired
  have undone := cut.undone
  have joins (size : Nat) : s.upload.call ≠ .joinForSize size :=
    fun call => cut.kept (.inl ⟨size, call⟩)
  have flushes (record : FileRecord) (rest : Script (Except Error Unit)) :
      s.upload.call ≠ .flushing record rest :=
    fun call => cut.kept (.inr (.inr ⟨record, rest, call⟩))
  have of {upload : Upload} (fired : upload.cancelled = true) (undone : upload.phase ≠ .done)
      (joins : ∀ size, upload.call ≠ .joinForSize size)
      (flushes : ∀ record rest, upload.call ≠ .flushing record rest) : upload.Cut :=
    ⟨fired, fun past => by
      rcases past with ⟨size, call⟩ | done | ⟨record, rest, call⟩
      · exact joins size call
      · exact undone done
      · exact flushes record rest call⟩
  cases moves with
  | writer moves =>
      rw [moves.same.2]
      exact of fired undone joins flushes
  | cleared => exact of fired undone joins flushes
  | caller moves =>
      cases moves with
      | stop stops =>
          exact of (stops.cancelled fired) (stops.undone undone) (by simp [abort]) (by simp [abort])
      | deny enters =>
          exact of (enters.fired fired) (enters.phase ▸ undone) (by simp [answer])
            (by simp [answer])
      | opened enters _ quiet | sealed enters _ quiet =>
          rw [enters.fired fired] at quiet
          cases quiet
      | handed _ _ quiet | handedFinal _ _ quiet | hungUp _ _ quiet =>
          rw [fired] at quiet
          cases quiet
      | refused call | staged call => exact absurd call (joins _)
      | flushed call | filed call | unstaged call => exact absurd call (flushes _ _)
      | wrote =>
          refine of fired (by simp) (fun size => ?_) (fun record rest => ?_)
          · dsimp only
            split
            all_goals simp
          · dsimp only
            split
            all_goals simp
      | fed => exact of fired undone (by simp) (by simp)
      | removed => exact of fired (by simp) (by simp) (by simp)
      | gaveUp => exact of fired undone (by simp [giveUp]) (by simp [giveUp])
      | dropped =>
          refine of ?_ (by simpa using undone) (by simp) (by simp)
          unfold drop
          split
          all_goals exact fired
      | cancelled => exact of rfl undone joins flushes

end

end Upload

namespace Scene

variable {disk : Disk δ} {limit : Nat} {opening scene later : Scene δ} {upload : Upload}
  {allows : Scene δ → Deed → Prop}

/-- An upload that was cut off stays so, and the catalog learns nothing of it. -/
theorem Register.cut (register : Register limit scene)
    (draws : ∀ scene deed, allows scene deed → Draws limit scene deed)
    (member : upload ∈ scene.uploads) (cut : upload.Cut)
    (reaches : Reaches disk allows scene later) :
    (∃ last ∈ later.uploads, last.fileId = upload.fileId ∧ last.Cut) ∧
      scene.service.Spares upload.fileId later.service := by
  obtain ⟨last, there, own, _, still⟩ :=
    register.follows Upload.Cut draws (fun _ _ _ _ _ _ _ _ moves cut => cut.moves moves) reaches
      member cut
  refine ⟨⟨last, there, own, still⟩, ?_⟩
  exact register.spares_while Upload.Cut draws (fun _ _ _ moves cut => cut.moves moves)
    (fun _ cut size joins => cut.kept (.inl ⟨size, joins⟩)) reaches member cut

section

variable {transfers : Transfers} {d : δ}

theorem Register.drive_of_meets (register : Register limit scene) (books : Books limit scene)
    (member : upload ∈ scene.uploads) (meets : upload.MeetsToken .caller)
    (runs : Script.Runs disk scene.disk (scene.toTransfers.drive upload.fileId) transfers d) :
    FailsFor disk limit scene upload .caller .cancelled transfers d := by
  have sound := register.sound upload member
  obtain ⟨entered, offered⟩ := meets.callerStep sound
  exact register.drive_fails books member (meets.abortsBy sound) (meets.not_insertDue rfl) offered
    runs

theorem Register.call_of_meets {act : Act} {begin : Service → Upload → Service × Upload}
    (register : Register limit scene) (books : Books limit scene)
    (member : upload ∈ scene.uploads) (meets : upload.MeetsToken act)
    (offers : upload.Offers scene.service act (pure (begin scene.service upload)))
    (handle : upload.fileId ∉ scene.dropped)
    (runs : Script.Runs disk scene.disk (scene.toTransfers.call upload.fileId begin) transfers d) :
    FailsFor disk limit scene upload act .cancelled transfers d :=
  register.call_fails books member (meets.abortsBy (register.sound upload member))
    meets.not_insertDue meets.behaves offers handle runs

end

/-- What the token of an upload does. -/
structure HeedsToken (disk : Disk δ) (limit : Nat) (scene : Scene δ) (upload : Upload) : Prop where
  early : upload.Unsealed → ¬ upload.IsHandedOver
  /-- Fired before the last record is handed over it keeps the upload from its
      record for good, whatever callers, stores and tasks do. -/
  never : upload.cancelled = true → ¬ upload.IsHandedOver →
    ∀ later, Reaches disk (Draws limit) scene later →
      (∃ last ∈ later.uploads, last.fileId = upload.fileId ∧ ¬ last.IsHandedOver ∧
        ∀ record, last.answer? ≠ some (.ok (some record))) ∧
      scene.service.Spares upload.fileId later.service ∧
        (upload.Unsealed → ¬ later.service.Knows upload.fileId)
  /-- A call that meets it is aborted in that step. -/
  aborts : ∀ act scene', upload.MeetsToken act → scene.Steps disk (.act upload.fileId act) scene' →
    scene'.service = scene.service ∧ scene'.disk = scene.disk ∧
      ∃ next ∈ scene'.uploads, next.fileId = upload.fileId ∧ next.AbortsFor .cancelled
  /-- An aborted call is answered as cancelled, which comes with the removal of the blob. -/
  ends : upload.AbortsFor .cancelled → EndsFor disk limit upload .cancelled scene

/-- A token that fires before the last record is handed over is never followed by a
    commit, and a call that finds it fired is answered as cancelled, with the upload
    failed and its blob removed, step by step and as the service drives it on. -/
theorem cancelled_is_never_committed (opens : opening.Opens limit)
    (reaches : Reaches disk (Draws limit) opening scene) (member : upload ∈ scene.uploads) :
    HeedsToken disk limit scene upload ∧
      (Reaches disk (Behaves limit) opening scene → ∀ transfers d,
        (∀ data, upload.MeetsToken (.write data) → upload.fileId ∉ scene.dropped →
          Script.Runs disk scene.disk (scene.toTransfers.write upload.fileId data) transfers d →
            FailsFor disk limit scene upload (.write data) .cancelled transfers d) ∧
        (upload.MeetsToken .commit → upload.fileId ∉ scene.dropped →
          Script.Runs disk scene.disk (scene.toTransfers.commit upload.fileId) transfers d →
            FailsFor disk limit scene upload .commit .cancelled transfers d) ∧
        (upload.MeetsToken .caller →
          Script.Runs disk scene.disk (scene.toTransfers.drive upload.fileId) transfers d →
            FailsFor disk limit scene upload .caller .cancelled transfers d)) := by
  have register := opens.register.reaches (fun _ _ draws => draws) reaches
  have sound := register.sound upload member
  refine ⟨⟨sound.not_isHandedOver, ?_, ?_, ?_⟩, ?_⟩
  · intro fired early later behind
    obtain ⟨⟨last, there, own, cut⟩, spares⟩ :=
      register.cut (fun _ _ draws => draws) member ⟨fired, early⟩ behind
    have register' := register.reaches (fun _ _ draws => draws) behind
    refine ⟨⟨last, there, own, cut.kept, fun record answer => ?_⟩, spares, fun unsealed knows => ?_⟩
    · exact cut.undone ((register'.sound last there).done_of_answer answer)
    · have unasked : upload.Unasked := by
        rcases unsealed with phase | phase | call
        · exact .inl phase
        · exact .inr (.inl phase)
        · exact .inr (.inr (.inl call))
      exact register.unasked upload member unasked (spares.knows knows)
  · intro act scene' meets steps
    obtain ⟨service, disk, next, there, own, _, aborts⟩ :=
      register.abort_steps member (meets.abortsBy sound) steps
    exact ⟨service, disk, next, there, own, aborts⟩
  · exact register.endsFor_of_aborts member
  · intro behaves transfers d
    have books := opens.books.reaches behaves
    refine ⟨fun data meets held runs => ?_, fun meets held runs => ?_, fun meets runs => ?_⟩
    · have mayCall : upload.MayCall := by
        cases meets with
        | write _ mayCall => exact mayCall
      exact register.call_of_meets books member meets (.write mayCall) held runs
    · have mayCall : upload.MayCall := by
        cases meets with
        | commit _ mayCall => exact mayCall
      exact register.call_of_meets books member meets (.commit mayCall) held runs
    · exact register.drive_of_meets books member meets runs

/-- The token of the first upload of the sample fires before it takes anything. The
    write that comes then is answered as cancelled. -/
theorem sample_is_cancelled : ∃ (scene : Scene FileTree) (upload : Upload),
    sample.Opens 2 ∧ Reaches FileTree.disk (Behaves 2) sample scene ∧
      upload ∈ scene.uploads ∧ upload.Unsealed ∧ upload.MeetsToken (.write [1, 2, 3]) ∧
        HeedsToken FileTree.disk 2 scene upload ∧
          ∃ transfers tree,
            Script.Runs FileTree.disk scene.disk
                (scene.toTransfers.write upload.fileId [1, 2, 3]) transfers tree ∧
              FailsFor FileTree.disk 2 scene upload (.write [1, 2, 3]) .cancelled transfers
                tree := by
  let started : Scene FileTree := { sample with toTransfers := ⟨sampleService, [sampleUpload]⟩ }
  let upload : Upload := { sampleUpload with cancelled := true }
  let cancelled := started.after sampleUpload .cancel sampleService upload {}
  have starts : sample.Steps FileTree.disk (.start ⟨⟨0⟩⟩ "a") started := .start sample_start
  have fires : started.Steps FileTree.disk (.act sampleUpload.fileId .cancel) cancelled :=
    .act (.head _) (by simp [Act.takesHandle]) (by simp) .cancel .done
  have allowed : sample.Behaves 2 (.start ⟨⟨0⟩⟩ "a") := by
    rw [Behaves, sample_start]
    decide
  have anytime : started.Behaves 2 (.act sampleUpload.fileId .cancel) := fun _ _ _ => trivial
  have behaves : Reaches FileTree.disk (Behaves 2) sample cancelled :=
    .step (.single allowed starts) anytime fires
  have reaches : Reaches FileTree.disk (Draws 2) sample cancelled := by
    refine behaves.mono fun scene deed behaves => ?_
    cases deed with
    | start => exact behaves
    | _ => trivial
  have member : upload ∈ cancelled.uploads := .head _
  have meets : upload.MeetsToken (.write [1, 2, 3]) :=
    .write rfl ⟨rfl, by simp [upload, sampleUpload]⟩ (.inl rfl)
  obtain ⟨heeds, returns⟩ := cancelled_is_never_committed sample_opens reaches member
  obtain ⟨transfers, tree, runs⟩ := Script.exists_runs FileTree.disk
    (cancelled.toTransfers.write upload.fileId [1, 2, 3]) cancelled.disk
  have answers := (returns behaves transfers tree).1 _ meets List.not_mem_nil runs
  exact ⟨cancelled, upload, sample_opens, behaves, member, .inl rfl, meets, heeds, transfers, tree,
    runs, answers⟩

end Scene

end Strongroom
