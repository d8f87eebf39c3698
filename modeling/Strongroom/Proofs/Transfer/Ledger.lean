import Strongroom.Proofs.Transfer.Outcome
import Strongroom.Proofs.Transfer.Passage

/-! # The ledger of a run

What passes through the uploads of a run is written down step by step. The
ledger changes nothing: every run has one. At every moment of the run it agrees
with all queues, writers and encoders.
-/

namespace Strongroom

variable {δ : Type}

abbrev Ledger := FileId → Passage

namespace Ledger

/-- The ledger after a step: what has passed is read off the uploads before and
    after it. -/
def after (ledger : Ledger) (scene scene' : Scene δ) : Ledger := fun id =>
  match scene.toTransfers.upload? id, scene'.toTransfers.upload? id with
  | some before, some upload => (ledger id).after scene.service scene'.service before upload
  | _, _ => ledger id

end Ledger

namespace Scene

/-- A run with its ledger. -/
inductive Traces (disk : Disk δ) (allows : Scene δ → Deed → Prop) (opening : Scene δ) :
    Scene δ → Ledger → Prop where
  | refl : Traces disk allows opening opening fun _ => {}
  | step {scene scene' : Scene δ} {ledger : Ledger} {deed : Deed} :
    Traces disk allows opening scene ledger → allows scene deed → Steps disk scene deed scene' →
      Traces disk allows opening scene' (ledger.after scene scene')

section

variable {disk : Disk δ} {allows : Scene δ → Deed → Prop} {opening scene : Scene δ}
  {ledger : Ledger}

theorem Traces.reaches (traces : Traces disk allows opening scene ledger) :
    Reaches disk allows opening scene := by
  induction traces with
  | refl => exact .refl
  | step _ allowed steps ih => exact .step ih allowed steps

/-- Every run has a ledger. -/
theorem Reaches.traces (reaches : Reaches disk allows opening scene) :
    ∃ ledger, Traces disk allows opening scene ledger := by
  induction reaches with
  | refl => exact ⟨_, .refl⟩
  | step _ allowed steps ih =>
      obtain ⟨ledger, traces⟩ := ih
      exact ⟨_, .step traces allowed steps⟩

theorem Traces.mono {allows' : Scene δ → Deed → Prop}
    (more : ∀ scene deed, allows scene deed → allows' scene deed)
    (traces : Traces disk allows opening scene ledger) :
    Traces disk allows' opening scene ledger := by
  induction traces with
  | refl => exact .refl
  | step _ allowed steps ih => exact .step ih (more _ _ allowed) steps

end

end Scene

section

variable {disk : Disk δ} {root path : Option Path} {shelf : Shelf disk root path} {limit : Nat}
  {scene scene' : Scene δ} {deed : Deed} {ledger : Ledger}

theorem Books.upload?_eq (books : Books limit scene) {upload : Upload}
    (member : upload ∈ scene.uploads) : scene.toTransfers.upload? upload.fileId = some upload :=
  Transfers.upload?_eq member fun other there same =>
    books.apart other there upload member (.inl same)

theorem Transfers.upload?_eq_none {transfers : Transfers} {id : FileId}
    (nobody : ∀ upload ∈ transfers.uploads, upload.fileId ≠ id) :
    transfers.upload? id = none := by
  refine List.find?_eq_none.2 fun upload member => ?_
  simpa using nobody upload member

/-- A ledger agrees with a scene. -/
structure Tracks (limit : Nat) (scene : Scene δ) (ledger : Ledger) : Prop where
  passes : ∀ upload ∈ scene.uploads, ∃ key, scene.service.keyOf upload.owner = .ok key ∧
    upload.Passes key scene.service.config.blockSize (ledger upload.fileId)
      (scene.payload upload.fileId) (scene.chunk upload.fileId)
  capacity : ∀ upload ∈ scene.uploads, upload.capacity = scene.service.config.handoffDepth
  /-- Nothing has passed through what is not there. -/
  blank : ∀ id, (∀ upload ∈ scene.uploads, upload.fileId ≠ id) → ledger id = {}
  unwritten : scene.Unwritten limit

namespace Tracks

theorem aside_after (books : Books limit scene) (books' : Books limit scene') {upload : Upload}
    (old : upload ∈ scene.uploads) (present : upload ∈ scene'.uploads) :
    ledger.after scene scene' upload.fileId = ledger upload.fileId := by
  rw [Ledger.after, books.upload?_eq old, books'.upload?_eq present]
  exact Passage.after_beside id (Nat.le_refl _)

theorem moved_after (books : Books limit scene) (books' : Books limit scene')
    {before upload : Upload} {act : Act} (moved : Moved disk scene scene' before act upload) :
    ledger.after scene scene' before.fileId =
      (ledger before.fileId).after scene.service scene'.service before upload := by
  have there := books'.upload?_eq moved.present
  rw [(moved.file books).fileId] at there
  rw [Ledger.after, books.upload?_eq moved.member, there]

theorem blank_after {id : FileId} (nobody : ∀ upload ∈ scene.uploads, upload.fileId ≠ id) :
    ledger.after scene scene' id = ledger id := by
  rw [Ledger.after, Transfers.upload?_eq_none nobody]

theorem turns (tracks : Tracks limit scene ledger) (books : Books limit scene)
    (books' : Books limit scene') (shelved : Shelved shelf scene)
    (behaves : scene.Behaves limit deed) (turns : scene.Turns disk deed scene') :
    Tracks limit scene' (ledger.after scene scene') where
  passes upload member := by
    have config := turns.config books
    cases turns.comes behaves shelved books member with
    | fresh begins more _ payload =>
        obtain ⟨key, encoder, known, created, present⟩ := begins.encoder
        have nobody : ∀ other ∈ scene.uploads, other.fileId ≠ upload.fileId :=
          fun other old same => books.unlike more begins old (.inl same.symm)
        have nothing : scene'.payload upload.fileId = [] := by
          rw [payload, begins.fileId]
          exact tracks.unwritten _ (Nat.le_refl _) (by omega)
        rw [begins.belongs, nothing, blank_after nobody, tracks.blank _ nobody, config]
        refine ⟨key, turns.keyOf books known, ?_, ?_, ?_⟩
        · rw [begins.writer.2]
          exact Nat.zero_le _
        · rw [begins.writer.1]
          rfl
        · exact .receiving begins.stands.2.1 present (.of_create created) begins.writer.2
    | aside old aside =>
        obtain ⟨key, known, passes⟩ := tracks.passes upload old
        rw [aside_after books books' old member, aside.payload, aside.chunk, config]
        exact ⟨key, turns.keyOf books known, passes⟩
    | @moved before act same moved =>
        subst same
        obtain ⟨key, known, passes⟩ := tracks.passes before moved.member
        have file := moved.file books
        rw [file.owner, file.fileId, moved_after books books' moved, moved.payload, moved.chunk,
          config]
        exact ⟨key, turns.keyOf books known, passes.moves (books.stands before moved.member)
          moved.handle (behaves before moved.member rfl) (books.drafts before moved.member)
          moved.moves⟩
  capacity upload member := by
    have config := turns.config books
    cases turns.comes behaves shelved books member with
    | fresh begins => rw [begins.capacity, config]
    | aside old => rw [tracks.capacity upload old, config]
    | moved _ moved => rw [(moved.file books).capacity, tracks.capacity _ moved.member, config]
  blank id nobody := by
    have before : ∀ upload ∈ scene.uploads, upload.fileId ≠ id := by
      intro upload member same
      rcases turns.goes shelved books member with aside | ⟨act, next, _, moved⟩
      · exact nobody upload aside.member same
      · exact nobody next moved.present ((moved.file books).fileId.trans same)
    rw [blank_after before, tracks.blank id before]
  unwritten := tracks.unwritten.turns books turns

theorem opening (opens : scene.Opens limit) (unwritten : scene.Unwritten limit) :
    Tracks limit scene fun _ => {} where
  passes := by simp [opens.uploads]
  capacity := by simp [opens.uploads]
  blank _ _ := rfl
  unwritten := unwritten

/-- The ledger of a run agrees with it at every moment. -/
theorem traces {opening final : Scene δ} (tracks : Tracks limit opening fun _ => {})
    (books : Books limit opening) (shelved : Shelved shelf opening)
    (traces : Scene.Traces disk (Scene.Behaves limit) opening final ledger) :
    Tracks limit final ledger := by
  induction traces with
  | refl => exact tracks
  | step traced behaves steps ih =>
      have books' := books.reaches traced.reaches
      exact ih.turns books' (books'.steps behaves steps) (shelved.reaches books traced.reaches)
        behaves steps.turns

end Tracks

end

end Strongroom
