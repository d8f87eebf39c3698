import Strongroom.Proofs.Blob.Memory
import Strongroom.Proofs.Transfer.Account

/-! # How an upload ends

An upload ends with its record in the catalog, or it leaves nothing behind. Along
a run the account of every upload tells which: when it asked the catalog for its
record, and when it removed its blob.
-/

namespace Strongroom

variable {δ : Type}

namespace Scene

/-- A scene without uploads. The identifiers that are still to be drawn, up to a
    limit, differ from each other and from all that are in use. -/
structure Opens (limit : Nat) (scene : Scene δ) : Prop where
  uploads : scene.uploads = []
  dropped : scene.dropped = []
  doomed : scene.doomed = []
  within : scene.service.ids.used ≤ limit
  injective : ∀ m n, m < limit → n < limit →
    scene.service.ids.tape m = scene.service.ids.tape n → m = n
  named : ∀ file ∈ scene.service.catalog.entries.files, IsBlobName file.blobName
  single : ∀ file ∈ scene.service.catalog.entries.files,
    ∀ other ∈ scene.service.catalog.entries.files,
      file.id = other.id ∨ file.blobName = other.blobName → file = other
  undrawn : ∀ n, scene.service.ids.used ≤ n → n < limit →
    (∀ file ∈ scene.service.catalog.entries.files,
      file.id ≠ ⟨scene.service.ids.tape n⟩ ∧
        file.blobName ≠ (scene.service.ids.tape n).toText) ∧
      ⟨.insert, (scene.service.ids.tape n).toText⟩ ∉ scene.service.journal ∧
        ⟨.remove, (scene.service.ids.tape n).toText⟩ ∉ scene.service.journal

theorem Opens.books {limit : Nat} {scene : Scene δ} (opens : scene.Opens limit) :
    Books limit scene where
  within := opens.within
  injective := opens.injective
  drawn := by simp [opens.uploads]
  apart := by simp [opens.uploads]
  stands := by simp [opens.uploads]
  drafts := by simp [opens.uploads]
  named := opens.named
  single := opens.single
  kept := by simp [opens.uploads]
  doomed := by simp [opens.doomed]
  undrawn n later small := by
    obtain ⟨files, noted⟩ := opens.undrawn n later small
    exact ⟨files, by simp [opens.doomed], noted⟩
  dropped := by simp [opens.dropped]

theorem Opens.shelved {disk : Disk δ} {root path : Option Path} {limit : Nat} {scene : Scene δ}
    (opens : scene.Opens limit) (shelf : Shelf disk root path)
    (rooted : scene.service.blobs.root? = root) (pathed : scene.service.catalog.path? = path) :
    Shelved shelf scene :=
  ⟨rooted, pathed, by simp [opens.uploads]⟩

/-- Calls behave, and handles are dropped inside the runtime. -/
def Orderly (limit : Nat) (scene : Scene δ) (deed : Deed) : Prop :=
  scene.Behaves limit deed ∧ ∀ id, deed ≠ .act id (.drop false)

/-- In a step the upload of a file asks the catalog for its record, after its
    writer has ended with success. -/
def AsksFor (disk : Disk δ) (id : FileId) (scene scene' : Scene δ) : Prop :=
  scene.Steps disk (.act id .caller) scene' ∧
    ∃ upload ∈ scene.uploads, upload.fileId = id ∧
      (∃ blobSize, upload.writer = .ended (.ok blobSize)) ∧
        scene'.service.journal = ⟨.insert, toString id⟩ :: scene.service.journal

/-- In a step the upload of a file asks the store to remove its blob, after its writer
    is over, and with that it has failed or is cleaned up after. -/
def RemovesBlob (disk : Disk δ) (id : FileId) (result : Except Error Unit)
    (scene scene' : Scene δ) : Prop :=
  (∃ act, (act = .caller ∨ act = .cleanup) ∧ scene.Steps disk (.act id act) scene') ∧
    ∃ upload ∈ scene.uploads, upload.fileId = id ∧ upload.writer.isOver = true ∧
      scene.service.Removes disk scene.disk upload.blobName result scene'.service scene'.disk ∧
        ∃ next ∈ scene'.uploads, next.fileId = id ∧ next.IsCleared

/-- What was asked of the stores for an upload since the opening of a run. -/
structure Account (disk : Disk δ) (limit : Nat) (opening scene : Scene δ) (upload : Upload) :
    Prop where
  unfiled : upload.Unfiled →
    ⟨.insert, toString upload.fileId⟩ ∉ scene.service.journal ∧
      ⟨.remove, upload.blobName⟩ ∉ scene.service.journal
  filed : upload.InCatalog →
    (∃ before after, Reaches disk (Orderly limit) opening before ∧
        AsksFor disk upload.fileId before after ∧ Reaches disk (Orderly limit) after scene) ∧
      scene.service.journal.count ⟨.insert, toString upload.fileId⟩ = 1 ∧
        (⟨.delete, toString upload.fileId⟩ ∉ scene.service.journal →
          ⟨.remove, upload.blobName⟩ ∉ scene.service.journal)
  cleared : upload.IsCleared →
    ∃ before after result, Reaches disk (Orderly limit) opening before ∧
      RemovesBlob disk upload.fileId result before after ∧
        Reaches disk (Orderly limit) after scene ∧
          ∃ events, scene.service.journal = events ++ after.service.journal ∧
            ⟨.insert, toString upload.fileId⟩ ∉ events
  parted : upload.fileId ∈ scene.dropped → upload.Parted

namespace Account

variable {disk : Disk δ} {root path : Option Path} {shelf : Shelf disk root path} {limit : Nat}
  {opening scene scene' : Scene δ} {deed : Deed} {upload : Upload}

theorem fresh (books : Books limit scene) (more : scene.service.ids.used + 2 ≤ limit)
    {owner : UserId}
    (begins : Transfers.Begins scene.service owner upload)
    (journal : scene'.service.journal = scene.service.journal)
    (held : upload.fileId ∉ scene'.dropped) : Account disk limit opening scene' upload where
  unfiled _ := by
    have asked := (books.undrawn _ (Nat.le_refl _) (by omega)).2.2.1
    have removed := (books.undrawn _ (Nat.le_succ _) (by omega)).2.2.2
    rw [journal, begins.fileId, begins.blobName]
    exact ⟨asked, removed⟩
  filed filed := by
    obtain ⟨_, phase, call⟩ := begins.stands
    rcases filed with done | ⟨_, _, flushing⟩
    · rw [phase] at done
      cases done
    · rw [call] at flushing
      cases flushing
  cleared cleared := by
    obtain ⟨streams, phase, _⟩ := begins.stands
    rcases cleared with failed | finished
    · rw [phase] at failed
      cases failed
    · rw [streams.cleanup] at finished
      cases finished
  parted gone := absurd gone held

theorem aside (account : Account disk limit opening scene upload) (books : Books limit scene)
    (member : upload ∈ scene.uploads) (orderly : scene.Orderly limit deed)
    (steps : scene.Steps disk deed scene') (aside : Aside shelf scene scene' upload) :
    Account disk limit opening scene' upload where
  unfiled unfiled := by
    obtain ⟨asked, removed⟩ := account.unfiled unfiled
    obtain ⟨events, journal, others⟩ := aside.journal
    rw [journal, List.mem_append, List.mem_append, not_or, not_or]
    refine ⟨⟨fun here => (others _ here).1 rfl, asked⟩, fun here => ?_, removed⟩
    exact (books.stands upload member).undone unfiled ((others _ here).2 rfl).1
  filed filed := by
    obtain ⟨⟨before, after, begins, asks, ends⟩, once, kept⟩ := account.filed filed
    obtain ⟨events, journal, others⟩ := aside.journal
    refine ⟨⟨before, after, begins, asks, .step ends orderly steps⟩, ?_, ?_⟩
    · rw [journal, List.count_append, List.count_eq_zero.2, Nat.zero_add]
      · exact once
      · exact fun here => (others _ here).1 rfl
    · rw [journal]
      intro undeleted
      have undeleted := fun here => undeleted (List.mem_append_right events here)
      rw [List.mem_append, not_or]
      exact ⟨fun here => undeleted ((others _ here).2 rfl).2, kept undeleted⟩
  cleared cleared := by
    obtain ⟨before, after, result, begins, removes, ends, events, journal, quiet⟩ :=
      account.cleared cleared
    obtain ⟨more, journal', others⟩ := aside.journal
    refine ⟨before, after, result, begins, removes, .step ends orderly steps, more ++ events,
      ?_, ?_⟩
    · rw [journal', journal, List.append_assoc]
    · rw [List.mem_append, not_or]
      exact ⟨fun here => (others _ here).1 rfl, quiet⟩
  parted gone := account.parted (aside.dropped gone)

theorem moved {before : Upload} {act : Act} (account : Account disk limit opening scene before)
    (books : Books limit scene) (reached : Reaches disk (Orderly limit) opening scene)
    (orderly : scene.Orderly limit (.act before.fileId act))
    (steps : scene.Steps disk (.act before.fileId act) scene')
    (moved : Moved disk scene scene' before act upload) :
    Account disk limit opening scene' upload := by
  obtain ⟨member, present, handle, dropped, _, _, moves⟩ := moved
  have stands := books.stands before member
  have behaves := orderly.1 before member rfl
  have file := (Footprint.of_moves (books.drafts before member) moves).file
  have fileId : upload.fileId = before.fileId := file.fileId
  have blobName : upload.blobName = before.blobName := file.blobName
  refine ⟨fun unfiled => ?_, fun filed => ?_, fun cleared => ?_, fun gone => ?_⟩
  -- Before its record nothing was asked for, and the move asks for nothing.
  · obtain ⟨unfiled, events, journal, quiet⟩ := stands.unfiled_moves handle behaves moves unfiled
    obtain ⟨asked, removed⟩ := account.unfiled unfiled
    simp only at journal
    rw [journal, fileId, blobName, List.mem_append, List.mem_append, not_or, not_or]
    exact ⟨⟨fun here => (quiet _ here).1 rfl, asked⟩, fun here => (quiet _ here).2 rfl, removed⟩
  -- The record was asked for earlier, or this is the move that asks for it.
  · rw [fileId, blobName]
    rcases stands.inCatalog_of_moves handle moves filed with
      ⟨filed, events, journal, quiet⟩ | ⟨unfiled, rfl, blobSize, stored, journal⟩
    · obtain ⟨⟨first, after, begins, asks, ends⟩, once, kept⟩ := account.filed filed
      simp only at journal
      refine ⟨⟨first, after, begins, asks, .step ends orderly steps⟩, ?_, ?_⟩
      · rw [journal, List.count_append, List.count_eq_zero.2, Nat.zero_add]
        · exact once
        · exact fun here => (quiet _ here).1 rfl
      · rw [journal]
        intro undeleted
        rw [List.mem_append, not_or]
        exact ⟨fun here => (quiet _ here).2 rfl,
          kept fun here => undeleted (List.mem_append_right events here)⟩
    · obtain ⟨asked, removed⟩ := account.unfiled unfiled
      simp only at journal
      refine ⟨⟨scene, scene', reached, ?_, .refl⟩, ?_, fun _ => ?_⟩
      · exact ⟨steps, before, member, rfl, ⟨blobSize, stored⟩, journal⟩
      · rw [journal, List.count_cons_self, List.count_eq_zero.2 asked]
      · rw [journal, List.mem_cons, not_or]
        exact ⟨by simp, removed⟩
  -- The blob was removed earlier, or this is the move that removes it.
  · rw [fileId]
    rcases stands.cleared_of_moves moves cleared with
      ⟨cleared, journal, _, _⟩ | ⟨background, finished, result, runs⟩
    · obtain ⟨first, after, result, begins, removes, ends, events, journal', quiet⟩ :=
        account.cleared cleared
      simp only at journal
      exact ⟨first, after, result, begins, removes, .step ends orderly steps, events,
        journal.trans journal', quiet⟩
    · exact ⟨scene, scene', result, reached,
        ⟨⟨act, background, steps⟩, before, member, rfl, finished,
          Service.removes_iff.2 runs, upload, present, fileId, cleared⟩,
        .refl, [], rfl, by simp⟩
  · rw [fileId] at gone
    rcases dropped gone with gone | ⟨inside, rfl⟩
    · refine (account.parted gone).moves ?_ moves
      exact Bool.eq_false_iff.2 fun takes => handle takes gone
    · cases inside with
      | false => exact absurd rfl (orderly.2 _)
      | true =>
          have left : upload = before.drop true := Upload.drop_of_moves moves
          rw [left]
          exact Upload.parted_drop

end Account

theorem Reaches.behaves {disk : Disk δ} {limit : Nat} {opening final : Scene δ}
    (reaches : Reaches disk (Orderly limit) opening final) :
    Reaches disk (Behaves limit) opening final :=
  reaches.mono fun _ _ orderly => orderly.1

end Scene

/-- After a removal that succeeds nothing is there, and one that fails makes
    nothing. -/
theorem Shelf.removal {disk : Disk δ} {root path : Option Path} (shelf : Shelf disk root path)
    {service service' : Service} {name : String} {result : Except Error Unit} {d d' : δ}
    (rooted : service.blobs.root? = root) (named : IsBlobName name)
    (runs : Script.Runs disk d (service.removeBlob name) (result, service') d')
    (nothing : result = .ok () ∨ shelf.object service.blobs d name = none) :
    shelf.object service'.blobs d' name = none := by
  obtain ⟨blobs, rfl, outcome⟩ := Service.runs_removeBlob runs
  rcases outcome with ⟨e, rfl, rfl, rfl⟩ | removed
  · exact nothing.resolve_left (by simp)
  · exact shelf.removed rooted named removed nothing

def Upload.Rests (service : Service) (upload : Upload) : Prop :=
  upload.writerStep service = none ∧ upload.cleanupStep service = none

theorem Upload.Stands.settled {service : Service} {upload : Upload} {gone : Prop}
    (stands : upload.Stands gone) (rests : upload.Rests service) (held : Bool) :
    upload.cleanup ≠ .pending held := by
  intro pending
  obtain ⟨_, _, _, _, _, stopped, finished⟩ := stands.pending pending
  obtain ⟨writes, cleans⟩ := rests
  have ended : upload.writer.isOver = true := by
    cases running : upload.writer.isOver with
    | true => rfl
    | false => simp [writerStep, running, stopped] at writes
  simp [cleanupStep, pending, ended] at cleans

namespace Scene

/-- An upload ends other than with its record: a call on it was answered with an
    error, or its handle was dropped. -/
def Fails (scene : Scene δ) (upload : Upload) : Prop :=
  (∃ e, upload.answer? = some (.error e)) ∨ upload.phase = .failed ∨
    (upload.fileId ∈ scene.dropped ∧ upload.phase ≠ .done)

section

variable {disk : Disk δ} {root path : Option Path} {shelf : Shelf disk root path} {limit : Nat}
  {opening final : Scene δ} {upload : Upload}

/-- An upload that fails has not been filed, and is cleared away once its tasks in
    the background rest. -/
theorem Fails.cleared (fails : final.Fails upload) (books : Books limit final)
    (member : upload ∈ final.uploads) (parted : upload.fileId ∈ final.dropped → upload.Parted)
    (rests : upload.Rests final.service) : upload.IsCleared ∧ ¬ upload.InCatalog := by
  have stands := books.stands upload member
  have failed (phase : upload.phase = .failed) : upload.IsCleared ∧ ¬ upload.InCatalog := by
    refine ⟨.inl phase, ?_⟩
    rintro (done | ⟨record, rest, call⟩)
    · rw [phase] at done
      cases done
    · have midway := stands.midway
      rw [call] at midway
      rw [phase] at midway
      cases midway.1
  rcases fails with ⟨e, answer⟩ | phase | ⟨gone, undone⟩
  · rcases stands.answered answer with ⟨same, _⟩ | ⟨_, _, phase⟩ | ⟨_, same, _⟩
    · cases same
    · exact failed phase
    · cases same
  · exact failed phase
  · have left := parted gone
    rcases left.ends with done | phase | cleanup
    · exact absurd done undone
    · exact failed phase
    · refine ⟨.inr ?_, ?_⟩
      · cases here : upload.cleanup with
        | none => exact absurd here cleanup
        | pending held => exact absurd here (stands.settled rests held)
        | finished => rfl
      · rintro (done | ⟨record, rest, call⟩)
        · exact undone done
        · rw [left.call] at call
          cases call

end

/-- A service with one user and with stores in memory. -/
def sample : Scene FileTree where
  service :=
    { blobs := .memory []
      catalog := .memory { users := [
        { id := ⟨⟨0⟩⟩
          login := "ann"
          wrappedKey := (DataKey.wrap ⟨List.replicate 32 1, rfl⟩ ⟨List.replicate 32 7, rfl⟩
            ⟨fun _ => 0, 0⟩).1 }] }
      master := ⟨List.replicate 32 1, rfl⟩
      config := {}
      random := ⟨fun _ => 0, 0⟩
      ids := ⟨fun n => ⟨BitVec.ofNat 128 n⟩, 0⟩
      clock := 0 }
  disk := {}

theorem sample_opens : sample.Opens 2 where
  uploads := rfl
  dropped := rfl
  doomed := rfl
  within := by decide
  injective m n hm hn same := by
    have same : m % 2 ^ 128 = n % 2 ^ 128 := congrArg (fun id => id.value.toNat) same
    omega
  named := by simp [sample, Catalog.entries]
  single := by simp [sample, Catalog.entries]
  undrawn := by simp [sample, Catalog.entries]

def sampleEncoder : Stream.Encoder :=
  ⟨⟨List.replicate 32 7, rfl⟩, 1024, [], 0, by decide, by decide⟩

/-- What the first upload of the sample is before it takes anything. -/
def sampleUpload : Upload where
  owner := ⟨⟨0⟩⟩
  fileId := ⟨⟨0⟩⟩
  fileName := "a"
  blobName := Uuid.toText ⟨1⟩
  encoder := some sampleEncoder
  capacity := 1

def sampleService : Service :=
  { sample.service with ids := { sample.service.ids with used := 2 } }

theorem sample_keyOf : sample.service.keyOf ⟨⟨0⟩⟩ = .ok ⟨List.replicate 32 7, rfl⟩ := by
  simp only [Service.keyOf, Vault.resolve, sample, Catalog.wrappedKey?, Catalog.entries,
    Entries.wrappedKey?, Entries.user?, List.find?_cons, decide_true, Option.map_some]
  exact DataKey.unwrap_wrap _ _ _

theorem sample_start :
    sample.toTransfers.start ⟨⟨0⟩⟩ "a" = (.ok ⟨⟨0⟩⟩, ⟨sampleService, [sampleUpload]⟩) := by
  have name : checkFileName "a" = .ok "a" := by rfl
  simp only [Transfers.start, Upload.start, name, sample_keyOf]
  rfl

end Scene

end Strongroom
