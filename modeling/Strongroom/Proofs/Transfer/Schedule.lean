import Mathlib.Algebra.GroupWithZero.Nat
import Strongroom.Proofs.Transfer.Outcome

/-! # The order in which tasks run

The service runs the tasks in the background until all of them rest. What it does
in this order is a run of the scene like any other, and they do come to rest.
-/

namespace Strongroom

variable {δ : Type}

/-- How many steps are left to a writer's task, beside those that take a record. -/
def Writer.stepsLeft : Writer → Nat
  | .fresh => 4
  | .waiting => 3
  | .storing _ | .cutting _ _ _ | .draining _ _ _ => 2
  | .stalled => 1
  | .ended _ | .panicked => 0

def Cleanup.stepsLeft : Cleanup → Nat
  | .pending _ => 1
  | .none | .finished => 0

namespace Upload

/-- A bound on the steps that are left to the tasks in the background of an
    upload. -/
def stepsLeft (upload : Upload) : Nat :=
  upload.queue.length + upload.writer.stepsLeft + upload.cleanup.stepsLeft

variable {disk : Disk δ} {s s' : Spot δ}

theorem stepsLeft_writerMoves (moves : WriterMoves disk s s') :
    s'.upload.stepsLeft < s.upload.stepsLeft := by
  have ended {upload : Upload} {result : Except Error Nat}
      (queue : upload.queue.length ≤ s.upload.queue.length)
      (cleanup : upload.cleanup = s.upload.cleanup) (running : 0 < s.upload.writer.stepsLeft) :
      (upload.endWriter result).stepsLeft < s.upload.stepsLeft := by
    have none : (Writer.ended result).stepsLeft = 0 := rfl
    simp only [stepsLeft, endWriter, cleanup, none]
    omega
  cases moves with
  | halted running =>
      refine ended (Nat.le_refl _) rfl ?_
      cases here : s.upload.writer with
      | ended | panicked => simp [here, Writer.isOver, Writer.result?] at running
      | _ => simp [Writer.stepsLeft]
  | arrived fresh => simp [stepsLeft, Writer.stepsLeft, fresh]
  | began opens =>
      cases opens with
      | store here | cut here | pass here => simp [stepsLeft, Writer.stepsLeft, here]
  | notBegun opens =>
      refine ended (Nat.le_refl _) rfl ?_
      cases opens with
      | store here | cut here | pass here => simp [Writer.stepsLeft, here]
  | stored continues _ waits =>
      generalize here : s.upload.writer = writer at continues
      cases continues with
      | storing | cutting =>
          simp only [stepsLeft, here, waits, Writer.stepsLeft, List.length_cons]
          omega
  | notStored continues _ waits =>
      generalize here : s.upload.writer = writer at continues
      refine ended (by simp [waits]) rfl ?_
      cases continues with
      | storing | cutting => simp [here, Writer.stepsLeft]
  | closed here | broke here => exact ended (Nat.le_refl _) rfl (by simp [here, Writer.stepsLeft])
  | drains here => simp [stepsLeft, Writer.stepsLeft, here]
  | drained here _ waits =>
      simp only [stepsLeft, here, waits, Writer.stepsLeft, List.length_cons]
      omega
  | @endedDraining _ _ ending _ _ here _ _ same =>
      cases ending with
      | fail | early =>
          cases same
          exact ended (Nat.le_refl _) rfl (by simp [here, Writer.stepsLeft])
      | stall | panic =>
          cases same
          simp [stepsLeft, here, Writer.stepsLeft]

theorem stepsLeft_cleanupStep {service service' : Service} {upload next : Upload} {d d' : δ}
    {script : Script (Service × Upload)} (offered : upload.cleanupStep service = some script)
    (runs : Script.Runs disk d script (service', next) d') :
    next.stepsLeft < upload.stepsLeft ∧ next.fileId = upload.fileId ∧ next.call = upload.call := by
  unfold cleanupStep at offered
  split at offered
  · rename_i held pending
    split at offered
    · cases offered
    · cases offered
      obtain ⟨_, _, _, rest⟩ := Script.runs_bind.1 runs
      obtain ⟨⟨⟩, _⟩ := Script.runs_pure.1 rest
      simp [stepsLeft, pending, Cleanup.stepsLeft]
  · cases offered

end Upload

namespace Transfers

variable {disk : Disk δ} {transfers transfers' : Transfers} {d d' : δ}

def stepsLeft (transfers : Transfers) : Nat :=
  (transfers.uploads.map Upload.stepsLeft).sum

/-- The service allows for more steps than are left. -/
theorem stepsLeft_le_backgroundFuel : transfers.stepsLeft ≤ transfers.backgroundFuel := by
  have enough (uploads : List Upload) (start : Nat) :
      start + (uploads.map Upload.stepsLeft).sum ≤
        uploads.foldl (fun bound upload => bound + upload.queue.length + 8) start := by
    induction uploads generalizing start with
    | nil => simp
    | cons upload uploads ih =>
        have more : upload.stepsLeft ≤ upload.queue.length + 8 := by
          have writer : upload.writer.stepsLeft ≤ 4 := by
            cases upload.writer <;> simp [Writer.stepsLeft]
          have cleanup : upload.cleanup.stepsLeft ≤ 1 := by
            cases upload.cleanup <;> simp [Cleanup.stepsLeft]
          simp only [Upload.stepsLeft]
          omega
        have rest := ih (start + upload.queue.length + 8)
        simp only [List.map_cons, List.sum_cons, List.foldl_cons]
        omega
  have bound := enough transfers.uploads 0
  simpa only [stepsLeft, backgroundFuel, Nat.zero_add] using bound

theorem stepsLeft_store {service : Service} {before upload : Upload}
    (member : before ∈ transfers.uploads)
    (single : ∀ other ∈ transfers.uploads, other.fileId = before.fileId → other = before)
    (same : upload.fileId = before.fileId) (less : upload.stepsLeft < before.stepsLeft) :
    (transfers.store service upload).stepsLeft < transfers.stepsLeft := by
  have fewer (uploads : List Upload)
      (single : ∀ other ∈ uploads, other.fileId = before.fileId → other = before) :
      let put := uploads.map fun other =>
        if other.fileId = before.fileId then upload else other
      (put.map Upload.stepsLeft).sum ≤ (uploads.map Upload.stepsLeft).sum ∧
        (before ∈ uploads →
          (put.map Upload.stepsLeft).sum < (uploads.map Upload.stepsLeft).sum) := by
    induction uploads with
    | nil => simp
    | cons other uploads ih =>
        obtain ⟨le, lt⟩ := ih fun next there => single next (List.mem_cons_of_mem _ there)
        simp only [List.map_cons, List.sum_cons, List.mem_cons]
        by_cases here : other.fileId = before.fileId
        · rw [if_pos here, single other List.mem_cons_self here]
          exact ⟨by omega, fun _ => by omega⟩
        · rw [if_neg here]
          refine ⟨by omega, ?_⟩
          rintro (rfl | there)
          · exact absurd rfl here
          · have := lt there
            omega
  simp only [stepsLeft, store, modify, same]
  exact (fewer transfers.uploads single).2 member

theorem backgroundStep_cases {script : Script Transfers}
    (offered : transfers.backgroundStep = some script) :
    ∃ before ∈ transfers.uploads, ∃ act step,
      (act = .writer ∨ act = .cleanup) ∧ before.Offers transfers.service act step ∧
        script = do
          let (service, upload) ← step
          return transfers.store service upload := by
  obtain ⟨before, member, found⟩ := List.exists_of_findSome?_eq_some offered
  obtain ⟨step, either, rfl⟩ := Option.map_eq_some_iff.1 found
  refine ⟨before, member, ?_⟩
  rcases Option.or_eq_some_iff.1 either with writes | ⟨_, cleans⟩
  · exact ⟨.writer, step, .inl rfl, .writer writes, rfl⟩
  · exact ⟨.cleanup, step, .inr rfl, .cleanup cleans, rfl⟩

theorem rests_of_backgroundStep (nothing : transfers.backgroundStep = none) :
    ∀ upload ∈ transfers.uploads, upload.Rests transfers.service := by
  intro upload member
  have nothing := List.findSome?_eq_none_iff.1 nothing upload member
  rw [Option.map_eq_none_iff, Option.or_eq_none_iff] at nothing
  exact nothing

end Transfers

def Deed.IsBackground (deed : Deed) : Prop :=
  ∃ id act, deed = .act id act ∧ (act = .writer ∨ act = .cleanup)

def Deed.IsTask (deed : Deed) : Prop :=
  deed.IsBackground ∨ ∃ id, deed = .act id .caller

namespace Scene

variable {disk : Disk δ} {limit : Nat} {scene scene' opening final : Scene δ} {deed : Deed}
  {transfers : Transfers} {d : δ} {id : FileId}

theorem behaves_of_isBackground (background : deed.IsBackground) : scene.Behaves limit deed := by
  obtain ⟨id, act, rfl, rfl | rfl⟩ := background
  all_goals exact fun _ _ _ => trivial

/-- A run leads on from a scene to given transfers on a given disk. -/
def LeadsTo (disk : Disk δ) (allows : Scene δ → Deed → Prop) (scene : Scene δ)
    (transfers : Transfers) (d : δ) (holds : Scene δ → Prop) : Prop :=
  ∃ final, Reaches disk allows scene final ∧ final.toTransfers = transfers ∧ final.disk = d ∧
    holds final

theorem steps_of_background (books : Books limit scene) {script : Script Transfers}
    (offered : scene.toTransfers.backgroundStep = some script)
    (runs : Script.Runs disk scene.disk script transfers d) :
    ∃ deed scene', deed.IsBackground ∧ scene.Steps disk deed scene' ∧
      scene'.toTransfers = transfers ∧ scene'.disk = d ∧
        transfers.stepsLeft < scene.toTransfers.stepsLeft := by
  obtain ⟨before, member, act, step, background, offers, rfl⟩ :=
    Transfers.backgroundStep_cases offered
  obtain ⟨⟨service, upload⟩, d₁, runs, rest⟩ := Script.runs_bind.1 runs
  obtain ⟨rfl, rfl⟩ := Script.runs_pure.1 rest
  have less : upload.stepsLeft < before.stepsLeft ∧ upload.fileId = before.fileId := by
    rcases background with rfl | rfl
    · cases offers with
      | writer offered =>
          have moves := moves_of_writerStep offered runs
          have same := congrArg Upload.fileId moves.same.2
          exact ⟨Upload.stepsLeft_writerMoves moves, same⟩
    · cases offers with
      | cleanup offered =>
          obtain ⟨less, same, _⟩ := Upload.stepsLeft_cleanupStep offered runs
          exact ⟨less, same⟩
  refine ⟨.act before.fileId act, scene.after before act service upload d,
    ⟨_, _, rfl, background⟩, ?_, rfl, rfl, ?_⟩
  · refine .act member ?_ ?_ offers runs
    all_goals
      rcases background with rfl | rfl
      all_goals simp [Act.takesHandle]
  · refine Transfers.stepsLeft_store member ?_ less.2 less.1
    intro other present same
    exact books.apart other present before member (.inl same)

/-- The tasks in the background run on, and in as many steps as the service allows
    for they come to rest. -/
theorem settleFor_leadsTo {fuel : Nat} (books : Books limit scene)
    (runs : Script.Runs disk scene.disk (Transfers.settleFor fuel scene.toTransfers) transfers d) :
    scene.LeadsTo disk (fun _ deed => deed.IsBackground) transfers d fun final =>
      scene.toTransfers.stepsLeft ≤ fuel →
        ∀ upload ∈ final.uploads, upload.Rests final.service := by
  induction fuel generalizing scene with
  | zero =>
      obtain ⟨rfl, rfl⟩ := Script.runs_pure.1 runs
      refine ⟨scene, .refl, rfl, rfl, fun none => ?_⟩
      refine Transfers.rests_of_backgroundStep ?_
      cases offered : scene.toTransfers.backgroundStep with
      | none => rfl
      | some script =>
          -- A step would leave less than nothing.
          obtain ⟨_, _, runs⟩ := Script.exists_runs disk script scene.disk
          obtain ⟨_, _, _, _, _, _, less⟩ := steps_of_background books offered runs
          omega
  | succ fuel ih =>
      unfold Transfers.settleFor at runs
      split at runs
      · rename_i nothing
        obtain ⟨rfl, rfl⟩ := Script.runs_pure.1 runs
        exact ⟨scene, .refl, rfl, rfl, fun _ => Transfers.rests_of_backgroundStep nothing⟩
      · rename_i script offered
        obtain ⟨between, d₁, first, rest⟩ := Script.runs_bind.1 runs
        obtain ⟨deed, next, background, steps, rfl, rfl, less⟩ :=
          steps_of_background books offered first
        have behaves : scene.Behaves limit deed := behaves_of_isBackground background
        obtain ⟨final, reaches, same, disk', rests⟩ := ih (books.steps behaves steps) rest
        exact ⟨final, .trans (.single background steps) reaches, same, disk',
          fun enough => rests (by omega)⟩

theorem settle_leadsTo (books : Books limit scene)
    (runs : Script.Runs disk scene.disk scene.toTransfers.settle transfers d) :
    scene.LeadsTo disk (fun _ deed => deed.IsBackground) transfers d fun final =>
      ∀ upload ∈ final.uploads, upload.Rests final.service := by
  obtain ⟨final, reaches, same, disk', rests⟩ := settleFor_leadsTo books runs
  exact ⟨final, reaches, same, disk', rests Transfers.stepsLeft_le_backgroundFuel⟩

end Scene

end Strongroom
