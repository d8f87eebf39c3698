import Strongroom.Proofs.Transfer.Interruption

/-! # Writes that are dropped

A write may be dropped wherever it is suspended, alone or with the handle. From
there on nothing of the upload comes to the queue or to the catalog. The next call
tells that the write was interrupted, and removes the blob.
-/

namespace Strongroom

variable {δ : Type}

/-- A script is dropped after some of its steps. -/
inductive Script.Begins {α : Type} (disk : Disk δ) : δ → Script α → δ → Prop where
  | here {d : δ} {script : Script α} : Begins disk d script d
  | step {d d' d'' : δ} {s : Step} {reply : s.Reply} {next : s.Reply → Script α} :
    disk.replies d s reply d' → Begins disk d' (next reply) d'' →
      Begins disk d (.step s next) d''

namespace Scene

variable {disk : Disk δ} {limit : Nat} {opening scene scene' later : Scene δ} {upload : Upload}

/-- Where a call is suspended: it waits, or some steps of the removal of the blob are
    done. -/
inductive Suspends (disk : Disk δ) (upload : Upload) (scene : Scene δ) : Scene δ → Prop where
  | waiting : Suspends disk upload scene scene
  | removing {reason : Error} {d : δ} :
    upload.Clears reason →
      Script.Begins disk scene.disk (scene.service.removeBlob upload.blobName) d →
        Suspends disk upload scene
          { scene with service := scene.service.note .remove upload.blobName, disk := d }

/-- The call that is under way is dropped where it is suspended. -/
def Abandons (disk : Disk δ) (upload : Upload) (scene scene' : Scene δ) : Prop :=
  ∃ during act, Suspends disk upload scene during ∧ act.IsDrop ∧
    during.Steps disk (.act upload.fileId act) scene'

/-- A call has been aborted in its first step, which changes nothing else. It has one
    answer, which comes with the removal of the blob after at most two steps. -/
structure Refuses (disk : Disk δ) (limit : Nat) (upload : Upload) (reason : Error)
    (scene scene' : Scene δ) : Prop where
  still : scene'.service = scene.service ∧ scene'.disk = scene.disk
  ends : EndsFor disk limit upload reason scene'

/-- Between two moments the cleanup of an upload has asked the store to remove the blob. -/
def Swept (disk : Disk δ) (limit : Nat) (upload : Upload) (scene later : Scene δ) : Prop :=
  ∃ before after result, Reaches disk (Draws limit) scene before ∧
    before.Steps disk (.act upload.fileId .cleanup) after ∧
      before.service.Removes disk before.disk upload.blobName result after.service after.disk ∧
        Reaches disk (Draws limit) after later

/-- The handle is gone, and the blob is removed after at most two steps. -/
def CleansUp (disk : Disk δ) (limit : Nat) (upload : Upload) (scene : Scene δ) : Prop :=
  ∀ later, Reaches disk (Draws limit) scene later →
    ∃ last ∈ later.uploads, last.fileId = upload.fileId ∧
      ((∃ held, last.cleanup = .pending held) ∧
          Upload.ComesWithin disk (fun act => act = .cleanup ∨ act = .writer)
            (·.cleanup = .finished) 2 ⟨later.service, last, later.disk⟩ ∨
        last.cleanup = .finished ∧ Swept disk limit upload scene later)

/-- What comes of an upload whose write was dropped. -/
structure NeverCommits (disk : Disk δ) (limit : Nat) (opening scene : Scene δ) (upload : Upload) :
    Prop where
  /-- Whatever callers, stores and tasks do, no record enters the queue, the catalog
      does not hear of the file, and no call succeeds. -/
  never : ∀ later ledger, Traces disk (Draws limit) scene later ledger →
    ∃ last ∈ later.uploads, last.fileId = upload.fileId ∧
      (ledger upload.fileId).entered last = upload.queue ∧
        ¬ later.service.Knows upload.fileId ∧ ∀ result, last.answer? ≠ some (.ok result)
  /-- Until somebody takes the handle, the next call is still to come. -/
  waits : ∀ later, Reaches disk (Untouched limit upload.fileId) scene later →
    ∃ last ∈ later.uploads, last.fileId = upload.fileId ∧ last.MayCall ∧ last.phase ≠ .failed
  /-- It tells of the token if that has fired, and else of the write that was dropped. -/
  refuses : ∀ later last act after, Reaches disk (Draws limit) scene later →
    last ∈ later.uploads → last.fileId = upload.fileId → last.phase ≠ .failed → act.GoesOn →
      later.Steps disk (.act upload.fileId act) after →
        Refuses disk limit upload last.interruption later after
  /-- Once the upload has failed, further calls are told so at once. -/
  closed : ∀ later last act after, Reaches disk (Draws limit) scene later →
    last ∈ later.uploads → last.fileId = upload.fileId → last.phase = .failed → act.GoesOn →
      later.Steps disk (.act upload.fileId act) after →
        after.service = later.service ∧ after.disk = later.disk ∧
          ∃ next ∈ after.uploads, next.fileId = upload.fileId ∧
            next.answer? = some (.error (Upload.closedError .failed))
  /-- If the handle is dropped instead, the blob is removed behind it. -/
  cleans : ∀ later last after, Reaches disk (Draws limit) scene later →
    last ∈ later.uploads → last.fileId = upload.fileId → last.phase ≠ .failed →
      later.Steps disk (.act upload.fileId (.drop true)) after →
        CleansUp disk limit upload after
  /-- Calls that are driven on are answered, with the blob removed on the way. -/
  answers : ∀ later last transfers d, Reaches disk (Draws limit) scene later →
    Reaches disk (Behaves limit) opening later → last ∈ later.uploads →
      last.fileId = upload.fileId → last.phase ≠ .failed → last.MayCall →
        upload.fileId ∉ later.dropped →
          (∀ data, Script.Runs disk later.disk (later.toTransfers.write upload.fileId data)
            transfers d →
              FailsFor disk limit later last (.write data) last.interruption transfers d) ∧
          (Script.Runs disk later.disk (later.toTransfers.commit upload.fileId) transfers d →
            FailsFor disk limit later last .commit last.interruption transfers d)

theorem Suspends.register {during : Scene δ} (suspends : Suspends disk upload scene during)
    (register : Register limit scene) :
    Register limit during ∧ during.uploads = scene.uploads := by
  cases suspends with
  | waiting => exact ⟨register, rfl⟩
  | removing =>
      have spares (id : FileId) :
          scene.service.Spares id (scene.service.note .remove upload.blobName) :=
        ⟨⟨[⟨.remove, _⟩], rfl, by simp⟩, fun _ there _ => there⟩
      exact ⟨register.of_same rfl rfl spares, rfl⟩

/-- A write that was begun waits until it has its answer. -/
theorem Register.write_waits {data : Bytes} {begun : Scene δ} (register : Register limit scene)
    (member : upload ∈ scene.uploads) (unfed : upload.Unfed)
    (steps : scene.Steps disk (.act upload.fileId (.write data)) begun)
    (reaches : Reaches disk (Untouched limit upload.fileId) begun later) :
    ∃ last ∈ later.uploads, last.fileId = upload.fileId ∧
      (last.InWrite ∨ (∃ e, last.answer? = some (.error e)) ∨
        last.answer? = some (.ok none)) := by
  have register' := register.steps (by trivial) steps
  obtain ⟨next, there, file, moves⟩ := register.moves steps member
  rw [← file.fileId] at reaches ⊢
  obtain ⟨last, present, own, _, writes⟩ :=
    register'.follows_untouched Upload.Writes
      (fun _ _ _ held moves writes => writes.moves held moves) reaches there
      (Upload.writes_of_begins unfed moves)
  refine ⟨last, present, own, ?_⟩
  rcases writes with ⟨inWrite, _⟩ | ⟨e, call⟩ | call
  · exact .inl inWrite
  · exact .inr (.inl ⟨e, by rw [Upload.answer?, call]⟩)
  · exact .inr (.inr (by rw [Upload.answer?, call]))

theorem dropped_of_steps {deed : Deed} {id : FileId} (steps : scene.Steps disk deed scene')
    (gone : id ∈ scene.dropped) :
    id ∈ scene'.dropped ∧ ∀ act, deed = .act id act → act.takesHandle = false := by
  cases steps with
  | @act before _ act _ _ _ _ handle =>
      refine ⟨?_, fun other same => ?_⟩
      · unfold Scene.after
        dsimp only
        split
        · exact List.mem_cons_of_mem _ gone
        · exact gone
      · cases same
        exact Bool.eq_false_iff.2 fun takes => handle takes gone
  | _ => exact ⟨gone, fun _ same => (by cases same)⟩

theorem Swept.step {deed : Deed} (swept : Swept disk limit upload opening scene)
    (draws : Draws limit scene deed) (steps : scene.Steps disk deed scene') :
    Swept disk limit upload opening scene' := by
  obtain ⟨before, after, result, begins, clears, removes, ends⟩ := swept
  exact ⟨before, after, result, begins, clears, removes, .step ends draws steps⟩

theorem gone_of_drop {id : FileId} {inside : Bool}
    (steps : scene.Steps disk (.act id (.drop inside)) scene') : id ∈ scene'.dropped := by
  cases steps
  exact List.mem_cons_self

theorem Register.cleans_up (register : Register limit scene) (member : upload ∈ scene.uploads)
    (idle : upload.call = .idle) (unfed : upload.inbound = none)
    (gone : upload.fileId ∈ scene.dropped) (stopped : upload.stopped = true) {held : Bool}
    (pending : upload.cleanup = .pending held) : CleansUp disk limit upload scene := by
  intro later reaches
  suffices found : ∃ last ∈ later.uploads, last.fileId = upload.fileId ∧
      last.blobName = upload.blobName ∧ (last.call = .idle ∧ last.inbound = none) ∧
        last.stopped = true ∧ upload.fileId ∈ later.dropped ∧
          ((∃ held, last.cleanup = .pending held) ∨
            last.cleanup = .finished ∧ Swept disk limit upload scene later) by
    obtain ⟨last, there, own, _, _, stopped, _, state⟩ := found
    refine ⟨last, there, own, state.imp_left fun pending => ⟨pending, ?_⟩⟩
    obtain ⟨held, pending⟩ := pending
    exact Upload.comesWithin_of_pending stopped pending
  induction reaches with
  | refl => exact ⟨upload, member, rfl, rfl, ⟨idle, unfed⟩, stopped, gone, .inl ⟨held, pending⟩⟩
  | @step middle final deed reached draws steps ih =>
      obtain ⟨next, present, own, name, ⟨idle, unfed⟩, stopped, gone, state⟩ := ih
      have state := state.imp_right (And.imp_right fun swept => swept.step draws steps)
      have register := register.reaches (fun _ _ draws => draws) reached
      obtain ⟨gone, handle⟩ := dropped_of_steps steps gone
      rcases register.goes steps present with ⟨still, _⟩ | ⟨act, rfl, last, there, file, moves⟩
      · exact ⟨next, still, own, name, ⟨idle, unfed⟩, stopped, gone, state⟩
      · refine ⟨last, there, file.fileId.trans own, file.blobName.trans name, ?_⟩
        rcases Upload.idle_of_moves idle unfed (handle act (by rw [own])) moves with
          ⟨_, _, _, same⟩ | ⟨rfl, same, _, result, runs⟩
        all_goals
          dsimp only at same
          rw [same]
        · exact ⟨⟨idle, unfed⟩, stopped, gone, state⟩
        · dsimp only at runs
          rw [own] at steps
          rw [name] at runs
          exact ⟨⟨idle, unfed⟩, stopped, gone,
            .inr ⟨rfl, middle, final, result, reached, steps, Service.removes_iff.2 runs, .refl⟩⟩

section

variable (register : Register limit scene) (member : upload ∈ scene.uploads)
  (interrupted : upload.Interrupted)

include register member interrupted

theorem Register.stays_interrupted (reaches : Reaches disk (Draws limit) scene later) :
    ∃ last ∈ later.uploads, last.fileId = upload.fileId ∧ last.blobName = upload.blobName ∧
      last.Interrupted :=
  register.follows (·.Interrupted) (fun _ _ draws => draws)
    (fun _ _ _ _ _ _ _ _ moves interrupted => interrupted.moves moves) reaches member interrupted

theorem Register.interrupted_of_mem {last : Upload}
    (reaches : Reaches disk (Draws limit) scene later) (there : last ∈ later.uploads)
    (own : last.fileId = upload.fileId) :
    last.blobName = upload.blobName ∧ last.Interrupted := by
  obtain ⟨found, present, same, name, interrupted⟩ :=
    register.stays_interrupted member interrupted reaches
  have register := register.reaches (fun _ _ draws => draws) reaches
  obtain rfl := register.apart found present last there (same.trans own.symm)
  exact ⟨name, interrupted⟩

/-- Nothing of an upload whose write was dropped comes to the queue or the catalog. -/
theorem Register.never_goes_on {ledger : Ledger} (unfailed : upload.phase ≠ .failed)
    (traced : Traces disk (Draws limit) scene later ledger) :
    ∃ last ∈ later.uploads, last.fileId = upload.fileId ∧
      (ledger upload.fileId).entered last = upload.queue ∧
        ¬ later.service.Knows upload.fileId ∧ ∀ result, last.answer? ≠ some (.ok result) := by
  have unasked : upload.Unasked := by
    rcases interrupted.phase with phase | ⟨phase, _⟩ | failed
    · exact .inr (.inl phase)
    · exact .inl phase
    · exact absurd failed unfailed
  have spares := register.spares_while (·.Interrupted) (fun _ _ draws => draws)
    (fun _ _ _ moves interrupted => interrupted.moves moves)
    (fun _ interrupted => interrupted.joins) traced.reaches member interrupted
  obtain ⟨last, there, own, _, still, entered⟩ :=
    register.traces
      (fun passage last => last.Interrupted ∧ passage.entered last = upload.queue)
      (fun _ _ draws => draws)
      (fun _ _ _ _ _ moves here => ⟨here.1.moves moves, (here.1.entered moves).trans here.2⟩)
      traced member ⟨interrupted, rfl⟩
  exact ⟨last, there, own, entered,
    fun knows => register.unasked upload member unasked (spares.knows knows), still.answer?⟩

theorem Register.waits_for_call (idle : upload.call = .idle) (unfed : upload.inbound = none)
    (unfailed : upload.phase ≠ .failed)
    (reaches : Reaches disk (Untouched limit upload.fileId) scene later) :
    ∃ last ∈ later.uploads, last.fileId = upload.fileId ∧ last.MayCall ∧ last.phase ≠ .failed := by
  obtain ⟨last, there, own, _, idle, unfed, phase⟩ :=
    register.follows_untouched
      (fun last => last.call = .idle ∧ last.inbound = none ∧ last.phase = upload.phase)
      (fun _ _ _ held moves here => by
        rcases Upload.idle_of_moves here.1 here.2.1 held moves with ⟨_, _, _, same⟩ | ⟨_, same, _⟩
        all_goals
          rw [same]
          exact here)
      reaches member ⟨idle, unfed, rfl⟩
  refine ⟨last, there, own, ⟨?_, fun done => ?_⟩, phase ▸ unfailed⟩
  · rw [Upload.IsReady, idle]
    exact unfed
  · rw [phase] at done
    rcases interrupted.phase with here | ⟨here, _⟩ | here
    all_goals cases here.symm.trans done

/-- A call after a dropped write is aborted at once. -/
theorem Register.refuses {act : Act} (unfailed : upload.phase ≠ .failed) (goesOn : act.GoesOn)
    (steps : scene.Steps disk (.act upload.fileId act) scene') :
    Refuses disk limit upload upload.interruption scene scene' := by
  obtain ⟨service, disk', next, there, own, name, aborts⟩ :=
    register.abort_steps member (interrupted.abortsBy unfailed goesOn) steps
  have register' := register.steps (by trivial) steps
  exact ⟨⟨service, disk'⟩, (register'.endsFor_of_aborts there aborts).congr own name⟩

omit interrupted in
theorem Register.refuses_failed {act : Act} (failed : upload.phase = .failed)
    (goesOn : act.GoesOn) (steps : scene.Steps disk (.act upload.fileId act) scene') :
    scene'.service = scene.service ∧ scene'.disk = scene.disk ∧
      ∃ next ∈ scene'.uploads, next.fileId = upload.fileId ∧
        next.answer? = some (.error (Upload.closedError .failed)) := by
  have refused : upload.refuse? = some (upload.answer (.error (Upload.closedError .failed))) := by
    simp [Upload.refuse?, failed]
  obtain ⟨service, disk', next, there, own, _, answered⟩ :=
    register.steps_alone
      (fun next => next.answer? = some (.error (Upload.closedError .failed))) member
      (fun script offers => by
        refine ⟨upload.answer (.error (Upload.closedError .failed)), ?_, rfl⟩
        cases goesOn with
        | write => cases offers with
          | write => rw [Upload.write, refused]
        | commit => cases offers with
          | commit => rw [Upload.commit, refused])
      steps
  exact ⟨service, disk', next, there, own, answered⟩

theorem Register.cleans (unfailed : upload.phase ≠ .failed)
    (steps : scene.Steps disk (.act upload.fileId (.drop true)) scene') :
    CleansUp disk limit upload scene' := by
  have undone : upload.phase ≠ .done := by
    rcases interrupted.phase with here | ⟨here, _⟩ | here
    all_goals simp [here]
  obtain ⟨next, there, file, moves⟩ := register.moves steps member
  have left : next = upload.drop true := Upload.drop_of_moves moves
  obtain ⟨stopped, pending⟩ := Upload.drop_of_open undone unfailed
  have register' := register.steps (by trivial) steps
  have gone := gone_of_drop steps
  subst left
  intro later reaches
  obtain ⟨last, present, own, state⟩ :=
    register'.cleans_up there Upload.drop_call Upload.drop_inbound (file.fileId ▸ gone) stopped
      pending later reaches
  refine ⟨last, present, own.trans file.fileId, state.imp_right (And.imp_right ?_)⟩
  rintro ⟨before, after, result, begins, clears, removes, ends⟩
  rw [file.fileId] at clears
  rw [file.blobName] at removes
  exact ⟨before, after, result, begins, clears, removes, ends⟩

theorem Register.answers_call {transfers : Transfers} {d : δ} (books : Books limit scene)
    (unfailed : upload.phase ≠ .failed) (mayCall : upload.MayCall)
    (handle : upload.fileId ∉ scene.dropped) :
    (∀ data, Script.Runs disk scene.disk (scene.toTransfers.write upload.fileId data) transfers d →
        FailsFor disk limit scene upload (.write data) upload.interruption transfers d) ∧
      (Script.Runs disk scene.disk (scene.toTransfers.commit upload.fileId) transfers d →
        FailsFor disk limit scene upload .commit upload.interruption transfers d) := by
  constructor
  · intro data runs
    exact register.call_fails books member (interrupted.abortsBy unfailed .write)
      (fun caller => by cases caller) (fun _ => trivial) (.write mayCall) handle runs
  · intro runs
    exact register.call_fails books member (interrupted.abortsBy unfailed .commit)
      (fun caller => by cases caller) (fun _ => trivial) (.commit mayCall) handle runs

/-- A dropped write is never followed by a commit. -/
theorem Register.never_commits (opens : opening.Opens limit) (unfailed : upload.phase ≠ .failed)
    (idle : upload.call = .idle) (unfed : upload.inbound = none) :
    NeverCommits disk limit opening scene upload where
  never _ _ traced := register.never_goes_on member interrupted unfailed traced
  waits _ reaches := register.waits_for_call member interrupted idle unfed unfailed reaches
  refuses later last act after reaches there own unfailed goesOn steps := by
    obtain ⟨name, interrupted⟩ := register.interrupted_of_mem member interrupted reaches there own
    have register := register.reaches (fun _ _ draws => draws) reaches
    rw [← own] at steps
    obtain ⟨still, ends⟩ := register.refuses there interrupted unfailed goesOn steps
    exact ⟨still, ends.congr own name⟩
  closed later last act after reaches there own failed goesOn steps := by
    have register := register.reaches (fun _ _ draws => draws) reaches
    rw [← own] at steps ⊢
    exact register.refuses_failed there failed goesOn steps
  cleans later last after reaches there own unfailed steps := by
    obtain ⟨name, interrupted⟩ := register.interrupted_of_mem member interrupted reaches there own
    have register := register.reaches (fun _ _ draws => draws) reaches
    rw [← own] at steps
    intro final reaches
    obtain ⟨final, present, same, state⟩ :=
      register.cleans there interrupted unfailed steps final reaches
    refine ⟨final, present, same.trans own, state.imp_right (And.imp_right ?_)⟩
    rintro ⟨before, after, result, begins, clears, removes, ends⟩
    rw [own] at clears
    rw [name] at removes
    exact ⟨before, after, result, begins, clears, removes, ends⟩
  answers later last transfers d reaches behaves there own unfailed mayCall handle := by
    obtain ⟨_, interrupted⟩ := register.interrupted_of_mem member interrupted reaches there own
    have register := register.reaches (fun _ _ draws => draws) reaches
    rw [← own] at handle ⊢
    exact register.answers_call there interrupted (opens.books.reaches behaves) unfailed mayCall
      handle

end

/-- What comes of the writes on an upload, and of a write that is dropped. -/
structure WithstandsDrops (disk : Disk δ) (limit : Nat) (opening scene : Scene δ)
    (upload : Upload) : Prop where
  /-- A write that was begun waits until it has its answer, in one of few ways. -/
  waits : ∀ data begun later, scene.Steps disk (.act upload.fileId (.write data)) begun →
    Reaches disk (Untouched limit upload.fileId) begun later →
      ∃ last ∈ later.uploads, last.fileId = upload.fileId ∧
        (last.InWrite ∨ (∃ e, last.answer? = some (.error e)) ∨ last.answer? = some (.ok none))
  /-- Once a write has succeeded, all records that were made have entered the queue. -/
  handed : upload.handsOver = false → ∀ later ledger, Traces disk (Draws limit) scene later ledger →
    ∃ last ∈ later.uploads, last.fileId = upload.fileId ∧
      (last.answer? = some (.ok none) ∨ last.phase = .receiving ∧ last.encoder.isSome →
        (ledger upload.fileId).entered last = upload.queue ++ (ledger upload.fileId).made)
  /-- A write that waits may be dropped there, and then is never followed by a commit. -/
  dropped : upload.InWrite → ∀ left, Abandons disk upload scene left →
    ∃ next ∈ left.uploads, next.fileId = upload.fileId ∧ next.blobName = upload.blobName ∧
      next.queue = upload.queue ∧ NeverCommits disk limit opening left next

/-- A write that is dropped before its answer, wherever it is suspended, is never
    followed by a commit: no record of the upload enters the queue any more, the
    catalog never hears of its file, and the next call fails and removes the blob. A
    write that has succeeded has handed over all its records. -/
theorem dropped_write_is_never_committed (opens : opening.Opens limit)
    (reaches : Reaches disk (Draws limit) opening scene) (member : upload ∈ scene.uploads) :
    WithstandsDrops disk limit opening scene upload := by
  have register := opens.register.reaches (fun _ _ draws => draws) reaches
  have unfed : upload.Unfed :=
    Register.always Upload.Unfed opens
      (fun _ idle ⟨_, answered⟩ => by cases idle.symm.trans answered)
      (fun _ _ _ moves unfed => unfed.moves moves) reaches upload member
  constructor
  case waits => exact fun _ _ _ steps behind => register.write_waits member unfed steps behind
  case handed =>
    intro calm later ledger traced
    obtain ⟨last, there, own, _, forwards⟩ :=
      register.forwards (fun _ _ draws => draws) traced member calm
    refine ⟨last, there, own, ?_⟩
    rintro (answered | ⟨receiving, present⟩)
    · exact forwards.wrote (Upload.call_of_answer? answered)
    · exact forwards.ready receiving present
  case dropped =>
    rintro inWrite left ⟨during, act, suspends, drops, steps⟩
    obtain ⟨register, same⟩ := suspends.register register
    rw [← same] at member
    rcases register.goes steps member with ⟨_, other⟩ | ⟨_, same, next, there, file, moves⟩
    · exact absurd rfl (other act)
    cases same
    obtain ⟨interrupted, phase, idle, unfed, queue⟩ := inWrite.dropped drops moves
    have unfailed : next.phase ≠ .failed := by
      rw [show next.phase = upload.phase from phase]
      rcases inWrite.phase with here | ⟨here, _⟩
      all_goals simp [here]
    have register := register.steps (by trivial) steps
    exact ⟨next, there, file.fileId, file.blobName, queue,
      register.never_commits there interrupted opens unfailed idle unfed⟩

/-- The first upload of the sample makes two records of two blocks. -/
theorem sample_takes_two_blocks {data : Bytes} (two : data.length = 2048) :
    ∃ service encoder first second, sampleUpload.write sampleService data =
      (service, { sampleUpload with
        phase := .writing, encoder := some encoder, call := .handOff [first, second] }) := by
  have wrote := sampleEncoder.write_eq data sampleService.random
  have full : (sampleEncoder.pending ++ data).length / sampleEncoder.blockSize = 2 := by
    rw [List.length_append, two]
    rfl
  rw [Stream.fullRecords, full] at wrote
  exact ⟨_, _, _, _, by simp only [Upload.write, Upload.refuse?, sampleUpload, wrote]; rfl⟩

/-- The first upload of the sample is given two blocks. The second record finds no
    room in the queue, and the write is dropped. The commit that comes then fails. -/
theorem sample_write_is_dropped :
    ∃ (scene left : Scene FileTree) (upload next : Upload) (first second : Bytes),
      sample.Opens 2 ∧ Reaches FileTree.disk (Behaves 2) sample scene ∧
        upload ∈ scene.uploads ∧ upload.queue = [first] ∧ upload.call = .handOff [second] ∧
          Abandons FileTree.disk upload scene left ∧ next ∈ left.uploads ∧
            NeverCommits FileTree.disk 2 sample left next ∧ ∃ transfers tree,
              Script.Runs FileTree.disk left.disk (left.toTransfers.commit next.fileId) transfers
                  tree ∧
                FailsFor FileTree.disk 2 left next .commit Upload.interruptedError transfers
                  tree := by
  obtain ⟨data, two⟩ : ∃ data : Bytes, data.length = 2048 :=
    ⟨List.replicate 2048 0, List.length_replicate⟩
  obtain ⟨service, encoder, first, second, takes⟩ := sample_takes_two_blocks two
  let started : Scene FileTree := { sample with toTransfers := ⟨sampleService, [sampleUpload]⟩ }
  let writing : Upload :=
    { sampleUpload with
      phase := .writing, encoder := some encoder, call := .handOff [first, second] }
  let begun := started.after sampleUpload (.write data) service writing {}
  let waiting : Upload := { writing with queue := [first], call := .handOff [second] }
  let full := begun.after writing .caller service waiting {}
  let left := full.after waiting .giveUp service waiting.giveUp {}
  have starts : sample.Steps FileTree.disk (.start ⟨⟨0⟩⟩ "a") started := .start sample_start
  have begins : started.Steps FileTree.disk (.act sampleUpload.fileId (.write data)) begun := by
    refine .act (.head _) (fun _ => List.not_mem_nil) (by simp) (.write ⟨rfl, ?_⟩) ?_
    · simp [sampleUpload]
    · rw [show started.service = sampleService from rfl, takes]
      exact .done
  have hands : begun.Steps FileTree.disk (.act writing.fileId .caller) full :=
    .act (.head _) (by simp [Act.takesHandle]) (by rintro - ⟨_, _, ⟨⟩, _⟩) (.caller rfl) .done
  have drops : full.Steps FileTree.disk (.act waiting.fileId .giveUp) left :=
    .act (.head _) (fun _ => List.not_mem_nil) (by simp) .giveUp .done
  have allowed : sample.Behaves 2 (.start ⟨⟨0⟩⟩ "a") := by
    rw [Behaves, sample_start]
    decide
  have takes : started.Behaves 2 (.act sampleUpload.fileId (.write data)) := fun _ _ _ => trivial
  have goesOn : begun.Behaves 2 (.act writing.fileId .caller) := fun _ _ _ => trivial
  have behaves : Reaches FileTree.disk (Behaves 2) sample full :=
    .step (.step (.single allowed starts) takes begins) goesOn hands
  have waits : full.Behaves 2 (.act waiting.fileId .giveUp) := by
    intro upload there _
    rw [List.mem_singleton.1 there]
    exact ⟨second, [], rfl⟩
  have draws (scene : Scene FileTree) (deed : Deed) (behaves : scene.Behaves 2 deed) :
      scene.Draws 2 deed := by
    cases deed with
    | start => exact behaves
    | _ => trivial
  have member : waiting ∈ full.uploads := .head _
  have abandons : Abandons FileTree.disk waiting full left :=
    ⟨full, .giveUp, .waiting, .giveUp, drops⟩
  obtain ⟨next, there, own, _, _, never⟩ :=
    (dropped_write_is_never_committed sample_opens (behaves.mono draws) member).dropped
      ⟨.inl rfl, rfl⟩ left abandons
  obtain ⟨last, present, same, mayCall, unfailed⟩ := never.waits left .refl
  obtain rfl : last = next := (List.mem_singleton.1 present).trans (List.mem_singleton.1 there).symm
  have told : last.interruption = Upload.interruptedError := by
    rw [List.mem_singleton.1 present]
    rfl
  obtain ⟨transfers, tree, runs⟩ := Script.exists_runs FileTree.disk
    (left.toTransfers.commit last.fileId) left.disk
  have fails := (never.answers left last transfers tree .refl (.step behaves waits drops) present
    same unfailed mayCall List.not_mem_nil).2 runs
  rw [told] at fails
  exact ⟨full, left, waiting, last, first, second, sample_opens, behaves, member, rfl, rfl,
    abandons, there, never, transfers, tree, runs, fails⟩

end Scene

end Strongroom
