import Strongroom.Proofs.Blob.Housing
import Strongroom.Proofs.Blob.Memory
import Strongroom.Proofs.Transfer.Solo

/-! # An upload does not get stuck

As long as whatever the stores are asked for can be done, there is always a task
of an upload that goes on until its call is answered: where the caller has to
wait, for room in the queue or for the end of the writer, the writer goes on.
-/

namespace Strongroom

variable {δ : Type}

/-- Disks on which whatever is asked of stores with one root, and of catalogs with
    one file, can be done. What was good before is good then. -/
structure Disk.Obliges (disk : Disk δ) (root path : Option Path) (good : δ → Prop) : Prop where
  begins : ∀ {store : BlobStore} {name : String} {d : δ},
    store.root? = root → IsBlobName name → good d →
      ∃ draft d', Script.Runs disk d (store.begin name) (.ok draft) d' ∧ good d'
  takes : ∀ {store : BlobStore} {name : String} {draft : BlobDraft} {d : δ} (piece : Bytes),
    store.root? = root → IsBlobName name → draft.IsOf name → good d →
      ∃ next d', Script.Runs disk d (store.take draft piece) (.ok next) d' ∧ good d'
  closes : ∀ {store : BlobStore} {name : String} {draft : BlobDraft} {d : δ},
    store.root? = root → IsBlobName name → draft.IsOf name → good d →
      ∃ size store' d', Script.Runs disk d (store.close draft) (.ok size, store') d' ∧ good d'
  removes : ∀ {store : BlobStore} {name : String} {d : δ},
    store.root? = root → IsBlobName name → good d →
      ∃ store' d', Script.Runs disk d (store.remove name) (.ok (), store') d' ∧ good d'
  finds : ∀ {store : BlobStore} {name : String} {d : δ},
    store.root? = root → IsBlobName name → good d →
      ∃ result d', Script.Runs disk d (store.find name) result d' ∧ good d'
  reads : ∀ {store : BlobStore} {name : String} {d : δ},
    store.root? = root → IsBlobName name → good d →
      ∃ result d', Script.Runs disk d (store.read name) result d' ∧ good d'
  flushes : ∀ {catalog : Catalog} {d : δ}, catalog.path? = path → good d →
    ∃ d', Script.Runs disk d catalog.flush (.ok ()) d' ∧ good d'

open BlobStore in
/-- In memory everything can be done, on any disk. -/
theorem Disk.obliges_memory (disk : Disk δ) : disk.Obliges none none fun _ => True where
  begins memory given _ := by
    obtain ⟨objects, rfl⟩ := eq_memory memory
    obtain ⟨id, rfl⟩ := given
    have begun : (BlobStore.memory objects).begin id.toText =
        pure (.ok ⟨id.toText, id.toText, 0, []⟩) := by
      simp only [BlobStore.begin, storedName_toText, meansFolder_toText, Bool.false_eq_true,
        if_false]
    rw [begun]
    exact ⟨_, _, .done, trivial⟩
  takes _ memory _ _ _ := by
    obtain ⟨objects, rfl⟩ := eq_memory memory
    exact ⟨_, _, .done, trivial⟩
  closes memory _ _ _ := by
    obtain ⟨objects, rfl⟩ := eq_memory memory
    exact ⟨_, _, _, .done, trivial⟩
  removes memory _ _ := by
    obtain ⟨objects, rfl⟩ := eq_memory memory
    exact ⟨_, _, .done, trivial⟩
  finds _ _ _ :=
    have ⟨result, d, runs⟩ := Script.exists_runs disk _ _
    ⟨result, d, runs, trivial⟩
  reads _ _ _ :=
    have ⟨result, d, runs⟩ := Script.exists_runs disk _ _
    ⟨result, d, runs, trivial⟩
  flushes {catalog _} memory _ := by
    cases catalog with
    | memory entries => exact ⟨_, .done, trivial⟩
    | file path entries => cases memory

open Housing in
/-- In a folder everything can be done, too, if the catalog can be flushed. -/
theorem Disk.obliges_folder (root : Path) (path : Option Path) :
    (Housing.disk root path).Obliges (some root) path Housing.CanFlush where
  begins rooted given can := by
    obtain rfl := eq_folder rooted
    obtain ⟨draft, d', begun, same⟩ := exists_begin _ given
    exact ⟨draft, d', begun, can.of_sameFolders same⟩
  takes piece rooted _ _ can := by
    obtain rfl := eq_folder rooted
    obtain ⟨next, d', taken, same⟩ := exists_take _ _ piece
    exact ⟨next, d', taken, can.of_sameFolders same⟩
  closes rooted _ _ can := by
    obtain rfl := eq_folder rooted
    obtain ⟨d', closed, same⟩ := exists_close _ _
    exact ⟨_, _, d', closed, can.of_sameFolders same⟩
  removes {store name d} rooted given can := by
    obtain rfl := eq_folder rooted
    obtain ⟨⟨result, store'⟩, d', runs⟩ :=
      Script.exists_runs (Housing.disk root path) ((BlobStore.folder root).remove name) d
    obtain ⟨rfl, _, same⟩ := run_remove given runs
    exact ⟨store', d', runs, can.of_sameFolders same⟩
  finds {store name d} _ _ can := by
    obtain ⟨result, d', runs⟩ :=
      Script.exists_runs (Housing.disk root path) (store.find name) d
    obtain rfl := eq_of_looking (store.asks_find name) runs
    exact ⟨result, d', runs, can⟩
  reads {store name d} _ _ can := by
    obtain ⟨result, d', runs⟩ :=
      Script.exists_runs (Housing.disk root path) (store.read name) d
    obtain rfl := eq_of_looking (store.asks_read name) runs
    exact ⟨result, d', runs, can⟩
  flushes filed can := by
    obtain ⟨d', flushed, same⟩ := exists_flush _ filed can
    exact ⟨d', flushed, can.of_sameFolders same⟩

namespace Disk.Obliges

variable {disk : Disk δ} {root path : Option Path} {good : δ → Prop} {service : Service}
  {name : String} {d : δ}

theorem removesBlob (obliges : disk.Obliges root path good) (rooted : service.blobs.root? = root)
    (conduct : service.conduct = {}) (named : IsBlobName name) (fine : good d) :
    ∃ service' d', Script.Runs disk d (service.removeBlob name) (.ok (), service') d' ∧
      good d' := by
  obtain ⟨store, d', removed, fine'⟩ := obliges.removes rooted named fine
  have ready : (service.note .remove name).conduct.remove = none := by
    simp only [Service.note, conduct]
  refine ⟨{ service.note .remove name with blobs := store }, d', ?_, fine'⟩
  simp only [Service.removeBlob, ready]
  exact Script.runs_bind.2 ⟨_, d', removed, .done⟩

theorem opensDraft {upload : Upload} (obliges : disk.Obliges root path good)
    (rooted : service.blobs.root? = root) (named : IsBlobName upload.blobName) (fine : good d) :
    ∃ draft d', Script.Runs disk d (upload.openDraft service .put .storing)
        (service, { upload with writer := .storing draft }) d' ∧ good d' := by
  obtain ⟨draft, d', begun, fine'⟩ := obliges.begins rooted named fine
  exact ⟨draft, d', Script.runs_bind.2 ⟨_, d', begun, .done⟩, fine'⟩

theorem storesRecord {draft : BlobDraft} (obliges : disk.Obliges root path good)
    (upload : Upload) (record : Bytes) (rooted : service.blobs.root? = root)
    (named : IsBlobName upload.blobName) (own : draft.IsOf upload.blobName) (fine : good d) :
    ∃ next d', Script.Runs disk d (upload.storeRecord service draft record .put .storing)
        (service, { upload with writer := .storing next }) d' ∧ good d' := by
  obtain ⟨next, d', taken, fine'⟩ := obliges.takes record rooted named own fine
  exact ⟨next, d', Script.runs_bind.2 ⟨_, d', taken, .done⟩, fine'⟩

theorem closesDraft {upload : Upload} {draft : BlobDraft} (obliges : disk.Obliges root path good)
    (rooted : service.blobs.root? = root) (named : IsBlobName upload.blobName)
    (own : draft.IsOf upload.blobName) (fine : good d) :
    ∃ service' size d', Script.Runs disk d (upload.closeDraft service draft)
        (service', upload.endWriter (.ok size)) d' ∧ good d' := by
  obtain ⟨size, store, d', closed, fine'⟩ := obliges.closes rooted named own fine
  exact ⟨_, size, d', Script.runs_bind.2 ⟨_, d', closed, .done⟩, fine'⟩

end Disk.Obliges

namespace Upload

variable {disk : Disk δ} {root path : Option Path} {good : δ → Prop} {service : Service}
  {alone upload : Upload} {s s' : Spot δ}

/-- A step that the caller's task of an upload has can be made. -/
theorem exists_callerRun {script : Script (Service × Upload)}
    (obliges : disk.Obliges root path good) (rooted : s.service.blobs.root? = root)
    (conduct : s.service.conduct = {}) (named : IsBlobName s.upload.blobName)
    (plain : s.upload.IsPlain) (fine : good s.disk)
    (offered : s.upload.callerStep s.service = some script) :
    ∃ service next d, Script.Runs disk s.disk script (service, next) d ∧ good d := by
  unfold callerStep at offered
  split at offered
  case h_1 | h_3 | h_4 =>
    obtain ⟨_, _, rfl⟩ := Option.map_eq_some_iff.1 offered
    exact ⟨_, _, _, .done, fine⟩
  case h_2 =>
    cases offered
    exact ⟨_, _, _, .done, fine⟩
  case h_5 =>
    split at offered
    · cases offered
    · cases offered
      exact ⟨_, _, _, .done, fine⟩
    · cases offered
      exact ⟨_, _, _, .done, fine⟩
  case h_6 call | h_7 call | h_8 call | h_9 call | h_10 call =>
    rw [IsPlain, call] at plain
    exact plain.elim
  case h_11 =>
    split at offered
    · cases offered
    · cases offered
      obtain ⟨service, d, removed, fine'⟩ := obliges.removesBlob rooted conduct named fine
      exact ⟨_, _, _, Script.runs_bind.2 ⟨_, d, removed, .done⟩, fine'⟩
  case h_12 => cases offered

theorem handOver_eq_none {record : Bytes} {change : Upload → Upload}
    (waits : upload.handOver record change = none) :
    upload.writer.isOver = false ∧ upload.capacity ≤ upload.queue.length := by
  unfold handOver at waits
  split at waits
  · cases waits
  · split at waits
    · cases waits
    · split at waits
      · cases waits
      · rename_i live
        split at waits
        · cases waits
        · rename_i full
          exact ⟨by simpa using live, Nat.le_of_not_lt full⟩

/-- The caller's task of an upload that is not through waits for the writer only,
    and the writer has something to do. -/
theorem Stands.waits {gone : Prop} {solo : Service} (stands : upload.Stands gone)
    (room : 0 < upload.capacity) (plain : upload.IsPlain)
    (same : upload = alone.beside upload.queue upload.writer)
    (moves : (alone.soloStep solo).isSome) (waits : upload.callerStep service = none) :
    upload.writer.isOver = false ∧
      (upload.stopped = true ∨ upload.queue ≠ [] ∨ upload.sending = false) := by
  have midway := stands.midway
  have called : alone.call = upload.call := by rw [same]; rfl
  have fed : alone.inbound = upload.inbound := by rw [same]; rfl
  have full {record : Bytes} {change : Upload → Upload}
      (waits : upload.handOver record change = none) : upload.writer.isOver = false ∧
        (upload.stopped = true ∨ upload.queue ≠ [] ∨ upload.sending = false) := by
    obtain ⟨live, full⟩ := handOver_eq_none waits
    refine ⟨live, .inr (.inl fun empty => ?_)⟩
    rw [empty, List.length_nil] at full
    omega
  cases call : upload.call with
  | idle =>
      simp only [callerStep, call, Option.map_eq_none_iff] at waits
      simp only [soloStep, called, call, fed, waits, Option.map_none, Option.isSome_none,
        Bool.false_eq_true] at moves
  | handOff records =>
      cases records with
      | nil => simp only [callerStep, call, reduceCtorEq] at waits
      | cons record rest =>
          simp only [callerStep, call, Option.map_eq_none_iff] at waits
          exact full waits
  | handOffFinal record size =>
      simp only [callerStep, call, Option.map_eq_none_iff] at waits
      exact full waits
  | joinForSize size =>
      rw [call] at midway
      simp only [callerStep, call] at waits
      split at waits
      · rename_i running
        refine ⟨?_, .inr (.inr midway.2.1)⟩
        rw [Writer.isOver, running]
        rfl
      · cases waits
      · cases waits
  | joinForAbort held reason =>
      rw [call] at midway
      simp only [callerStep, call] at waits
      split at waits
      · rename_i blocked
        rw [Bool.and_eq_true, Bool.not_eq_true'] at blocked
        exact ⟨blocked.2, .inl midway.2.1⟩
      · cases waits
  | answered result =>
      simp only [soloStep, called, call, Option.isSome_none, Bool.false_eq_true] at moves
  | flushing record rest | withdraw e | joinForCause held =>
      rw [IsPlain, call] at plain
      exact plain.elim

/-- The writer's task of an upload that goes on has a step that can be made, and the
    store does not fail there. -/
theorem exists_writerRun (obliges : disk.Obliges root path good)
    (rooted : s.service.blobs.root? = root) (conduct : s.service.conduct = {})
    (named : IsBlobName s.upload.blobName) (owns : s.upload.OwnsDraft)
    (gate : s.upload.writer ≠ .waiting)
    (faithful : s.upload.stopped = false → s.upload.writer.IsFaithful)
    (live : s.upload.writer.isOver = false)
    (wakes : s.upload.stopped = true ∨ s.upload.queue ≠ [] ∨ s.upload.sending = false)
    (fine : good s.disk) :
    ∃ script service next d, s.upload.writerStep s.service = some script ∧
      Script.Runs disk s.disk script (service, next) d ∧ good d ∧
        ∀ e, next.writer = .ended (.error e) → next.stopped = true := by
  cases stopped : s.upload.stopped with
  | true =>
      refine ⟨_, { s.service with conduct := s.service.conduct.leave s.upload.fileId },
        s.upload.endWriter (.error .cancelled), s.disk, ?_, .done, fine, fun _ _ => stopped⟩
      simp only [writerStep, live, stopped, Bool.false_eq_true, if_false, if_true]
      rfl
  | false =>
      have running : ¬ s.upload.stopped = true := by simp [stopped]
      have idle : ¬ s.upload.writer.isOver = true := by simp [live]
      have faithful := faithful stopped
      cases writer : s.upload.writer with
      | fresh =>
          obtain ⟨draft, d, opens, fine'⟩ := obliges.opensDraft rooted named fine
          refine ⟨_, _, _, d, ?_, opens, fine', by simp⟩
          rw [writerStep, if_neg idle, if_neg running, writer]
          simp only [firstStep, conduct]
      | waiting => exact absurd writer gate
      | storing draft =>
          have own : draft.IsOf s.upload.blobName := owns draft (by rw [writer]; rfl)
          cases waits : s.upload.queue with
          | cons record queue =>
              obtain ⟨next, d, stores, fine'⟩ :=
                obliges.storesRecord { s.upload with queue } record rooted named own fine
              refine ⟨_, _, _, d, ?_, stores, fine', by simp⟩
              rw [writerStep, if_neg idle, if_neg running, writer, waits]
              rfl
          | nil =>
              have closed : ¬ s.upload.sending = true := by
                simpa [stopped, waits] using wakes
              obtain ⟨_, _, d, closes, fine'⟩ := obliges.closesDraft rooted named own fine
              refine ⟨_, _, _, d, ?_, closes, fine', by simp [endWriter]⟩
              rw [writerStep, if_neg idle, if_neg running, writer, waits]
              exact if_neg closed
      | cutting left text draft | draining left taken ending | stalled | panicked =>
          rw [writer] at faithful
          exact faithful.elim
      | ended result =>
          rw [writer] at live
          cases live

end Upload

theorem Moves.gate {disk : Disk δ} {s s' : Spot δ} {act : Act} (moves : Moves disk s act s')
    (conduct : s.service.conduct = {}) (gate : s.upload.writer ≠ .waiting) :
    s'.upload.writer ≠ .waiting := by
  cases moves with
  | caller moves =>
      rw [moves.writer]
      exact gate
  | cleared => exact gate
  | writer moves =>
      cases moves with
      | arrived _ _ put =>
          rw [conduct] at put
          cases put
      | began opens => cases opens <;> simp
      | stored continues =>
          generalize s.upload.writer = writer at continues
          cases continues <;> simp
      | halted | notBegun | notStored | closed | broke | drains | drained => simp [Upload.endWriter]
      | @endedDraining _ _ ending _ _ _ _ _ ended =>
          cases ending
          all_goals
            cases ended
            simp [Upload.endWriter]

theorem Moves.flushes {disk : Disk δ} {s s' : Spot δ} {act : Act} {record : FileRecord}
    {rest : Script (Except Error Unit)} (moves : Moves disk s act s') (plain : s.upload.IsPlain)
    (call : s'.upload.call = .flushing record rest) :
    rest = s'.service.catalog.flush ∧
      s'.service.catalog.path? = s.service.catalog.path? := by
  have still (same : s'.upload.call = s.upload.call) : False := by
    rw [Upload.IsPlain, ← same, call] at plain
    exact plain
  cases moves with
  | writer moves =>
      have same := congrArg Upload.call moves.same.2
      exact (still same).elim
  | cleared => exact (still rfl).elim
  | caller moves =>
      cases moves with
      | staged _ _ _ staged =>
          cases call
          exact ⟨rfl, (Catalog.stageFile_ok staged).1⟩
      | flushed flushing | filed flushing | unstaged flushing =>
          rw [Upload.IsPlain, flushing] at plain
          exact plain.elim
      | cancelled => exact (still rfl).elim
      | dropped => simp at call
      | wrote =>
          dsimp only at call
          split at call
          · cases call
          · cases call
      | stop | deny | fed | opened | sealed | handed | handedFinal | hungUp | refused | removed
      | gaveUp => cases call

end Strongroom
