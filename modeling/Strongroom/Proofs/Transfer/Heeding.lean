import Strongroom.Proofs.Transfer.Conversation
import Strongroom.Proofs.Transfer.Progress

/-! # A service that heeds what a user sees

What a service needs besides the picture that a user has of it, so that it can go on
with what the user sees: room, no gate, and a disk on which the stores can do what
they are asked for. Each step keeps this.
-/

namespace Strongroom

variable {δ : Type}

/-- What a service needs to go on with what a user sees: room in the queues, no
    gate, and a disk on which the stores can do what they are asked for. -/
structure Scene.Heeds (disk : Disk δ) (good : δ → Prop) (scene : Scene δ) (outlook : Outlook) :
    Prop where
  fine : scene.Unlocked → good scene.disk
  depth : 0 < scene.service.config.handoffDepth
  present : ∀ id, (outlook.upload? id).isSome → ∃ upload ∈ scene.uploads, upload.fileId = id
  room : ∀ upload ∈ scene.uploads, 0 < upload.capacity
  gate : ∀ upload ∈ scene.uploads, upload.writer ≠ .waiting
  /-- What is being flushed can be flushed to its end. -/
  flushing : ∀ upload ∈ scene.uploads, ∀ record rest, upload.call = .flushing record rest →
    ∃ d, Script.Runs disk scene.disk rest (.ok ()) d ∧ good d

namespace Upload

theorem IsReady.plain {upload : Upload} (ready : upload.IsReady) : upload.IsPlain := by
  unfold IsReady at ready
  split at ready
  · rename_i idle
    rw [IsPlain, idle]
    trivial
  · rename_i answered
    rw [IsPlain, answered]
    trivial
  · exact ready.elim

theorem IsPlain.call_ne_flushing {upload : Upload} (plain : upload.IsPlain) (record : FileRecord)
    (rest : Script (Except Error Unit)) : upload.call ≠ .flushing record rest := by
  intro call
  rw [IsPlain, call] at plain
  exact plain

/-- No store has failed an upload that goes along with one that is alone, but for the
    flush. -/
theorem Follows.thrives {disk : Disk δ} {root path : Option Path}
    {shelf : ConformingShelf disk root path} {upload alone : Upload} {object : Option Bytes}
    {gone : Prop} (follows : upload.Follows shelf object alone) (stands : upload.Stands gone)
    (flushing : ∀ record e, upload.call ≠ .flushing record (.done (.error e))) :
    upload.Thrives := by
  refine ⟨fun e ended => ?_, flushing⟩
  have filed (filed : upload.InCatalog) : False := by
    obtain ⟨size, stored⟩ := stands.stored filed
    cases ended.symm.trans stored
  cases follows with
  | streams _ _ _ _ stores => exact absurd (by rw [ended]; rfl) (stores.result?_ne_error e)
  | stops _ stopped => exact stopped
  | files same => exact (filed (.inr ⟨_, _, by rw [same]⟩)).elim
  | done _ done => exact (filed (.inl done)).elim

end Upload

section

variable {disk : Disk δ} {root path : Option Path} {shelf : ConformingShelf disk root path}
  {good : δ → Prop} {user : UserId} {limit : Nat} {busy : Option FileId} {scene : Scene δ}
  {outlook outlook' : Outlook} {before upload : Upload} {act : Act} {service : Service} {d : δ}

theorem Disk.Obliges.flushing (obliges : disk.Obliges root path good)
    (pathed : scene.service.catalog.path? = path) (plain : before.IsPlain)
    (moves : Moves disk ⟨scene.service, before, scene.disk⟩ act ⟨service, upload, d⟩)
    (fine : good d) (record : FileRecord) (rest : Script (Except Error Unit))
    (call : upload.call = .flushing record rest) :
    ∃ d', Script.Runs disk d rest (.ok ()) d' ∧ good d' := by
  obtain ⟨rfl, same⟩ := moves.flushes plain call
  exact obliges.flushes (same.trans pathed) fine

/-- The upload that goes on is not filed, and waits only for its writer. -/
theorem Shadows.of_advance (shadowed : Shadows shelf user busy scene outlook upload)
    (advances : outlook.advance upload.fileId = some outlook') :
    ¬ upload.InCatalog ∧ upload.IsPlain ∧
      (upload.stopped = false → upload.writer.IsFaithful) ∧
        ∃ alone : Upload, upload = alone.beside upload.queue upload.writer ∧
          (alone.soloStep outlook.service).isSome := by
  obtain ⟨alone, here, plain, follows⟩ := shadowed.follows
  obtain ⟨_, _, here', moves, _⟩ := Outlook.advance_cases advances
  cases here.symm.trans here'
  have plain' (same : upload = alone.beside upload.queue upload.writer) : upload.IsPlain := by
    rw [same]
    exact plain
  have unfiled (same : upload = alone.beside upload.queue upload.writer)
      (undone : upload.phase ≠ .done) : ¬ upload.InCatalog := by
    rintro (done | ⟨record, rest, call⟩)
    · exact undone done
    · exact (plain' same).call_ne_flushing record rest call
  cases follows with
  | streams same running undone _ stores =>
      exact ⟨unfiled same undone, plain' same, fun _ => stores.faithful, alone, same, moves⟩
  | stops same stopped undone =>
      refine ⟨unfiled same undone, plain' same, fun running => ?_, alone, same, moves⟩
      cases running.symm.trans stopped
  | files same done answered =>
      simp only [Upload.soloStep, answered, Option.isSome_none, Bool.false_eq_true] at moves
  | done same done =>
      have ready : alone.IsReady := by
        have ready := shadowed.stands.isReady_of_done done
        rw [same] at ready
        exact ready
      rw [Upload.soloStep_of_isReady ready] at moves
      cases moves

theorem Shadows.mayCall {alone : Upload} (shadowed : Shadows shelf user none scene outlook upload)
    (here : outlook.upload? upload.fileId = some alone) (undone : alone.phase ≠ .done) :
    upload.MayCall := by
  have ready : upload.IsReady := shadowed.ready.resolve_right nofun
  obtain ⟨alone', here', _, follows⟩ := shadowed.follows
  cases here.symm.trans here'
  refine ⟨ready, ?_⟩
  cases follows with
  | streams _ _ still | stops _ _ still => exact still
  | files same =>
      have call := congrArg Upload.call same
      exact absurd call (ready.plain.call_ne_flushing _ _)
  | done same =>
      rw [same]
      exact undone

namespace Depicts

theorem unlocked (depicts : Depicts shelf user limit busy scene outlook)
    (plain : ∀ upload ∈ scene.uploads, busy = some upload.fileId → upload.IsPlain) :
    scene.Unlocked := by
  intro upload member
  rcases (depicts.shadows upload member).ready with ready | here
  · exact ready.plain.call_ne_flushing
  · exact (plain upload member here).call_ne_flushing

theorem thrives (depicts : Depicts shelf user limit busy scene outlook)
    (heeds : scene.Heeds disk good outlook) : scene.Thrives := by
  intro upload member
  have shadowed := depicts.shadows upload member
  obtain ⟨alone, _, _, follows⟩ := shadowed.follows
  refine follows.thrives shadowed.stands fun record e call => ?_
  obtain ⟨d, runs, _⟩ := heeds.flushing upload member record _ call
  cases runs

end Depicts

namespace Scene.Heeds

theorem after (heeds : scene.Heeds disk good outlook)
    (depicts : Depicts shelf user limit busy scene outlook) (member : before ∈ scene.uploads)
    (calm : busy = none ∨ busy = some before.fileId)
    (moves : Moves disk ⟨scene.service, before, scene.disk⟩ act ⟨service, upload, d⟩)
    (fine : (∀ record rest, upload.call ≠ .flushing record rest) → good d)
    (flushing : ∀ record rest, upload.call = .flushing record rest →
      ∃ d', Script.Runs disk d rest (.ok ()) d' ∧ good d')
    (present : ∀ id, (outlook'.upload? id).isSome →
      (outlook.upload? id).isSome ∨ id = before.fileId) :
    (scene.after before act service upload d).Heeds disk good outlook' := by
  have footprint : Footprint disk ⟨scene.service, before, scene.disk⟩ ⟨service, upload, d⟩ :=
    .of_moves (depicts.shadows before member).owns moves
  have file : before.SameFile upload := footprint.file
  have there : upload ∈ (scene.after before act service upload d).uploads :=
    Transfers.mem_store.2 (.inr ⟨rfl, before, member, file.fileId.symm⟩)
  have others {other : Upload}
      (member : other ∈ (scene.after before act service upload d).uploads) :
      other ∈ scene.uploads ∧ other.fileId ≠ before.fileId ∨ other = upload := by
    rw [← file.fileId]
    exact (Transfers.mem_store.1 member).imp_right And.left
  constructor
  case fine => exact fun unlocked => fine (unlocked upload there)
  case depth =>
    change 0 < service.config.handoffDepth
    rw [show service.config = scene.service.config from footprint.config]
    exact heeds.depth
  case present =>
    intro id seen
    by_cases same : id = upload.fileId
    · exact ⟨upload, there, same.symm⟩
    · rw [file.fileId] at same
      obtain ⟨other, old, rfl⟩ := heeds.present id ((present id seen).resolve_right same)
      exact ⟨other, Transfers.mem_store.2 (.inl ⟨old, file.fileId ▸ same⟩), rfl⟩
  case room =>
    intro other present
    rcases others present with ⟨old, _⟩ | rfl
    · exact heeds.room other old
    · rw [file.capacity]
      exact heeds.room before member
  case gate =>
    intro other present
    rcases others present with ⟨old, _⟩ | rfl
    · exact heeds.gate other old
    · exact moves.gate depicts.conduct (heeds.gate before member)
  case flushing =>
    intro other present record rest call
    rcases others present with ⟨old, different⟩ | rfl
    · rcases (depicts.shadows other old).ready with ready | here
      · exact absurd call (ready.plain.call_ne_flushing record rest)
      · rcases calm with rfl | rfl
        · cases here
        · exact absurd (Option.some.inj here).symm different
    · exact flushing record rest call

theorem acts (heeds : scene.Heeds disk good outlook) (obliges : disk.Obliges root path good)
    (depicts : Depicts shelf user limit busy scene outlook) (member : before ∈ scene.uploads)
    (plain : before.IsPlain) (calm : busy = none ∨ busy = some before.fileId)
    (moves : Moves disk ⟨scene.service, before, scene.disk⟩ act ⟨service, upload, d⟩)
    (fine : good d)
    (present : ∀ id, (outlook'.upload? id).isSome →
      (outlook.upload? id).isSome ∨ id = before.fileId) :
    (scene.after before act service upload d).Heeds disk good outlook' :=
  heeds.after depicts member calm moves (fun _ => fine)
    (obliges.flushing depicts.path plain moves fine) present

end Scene.Heeds

theorem Scene.Heeds.beside (heeds : scene.Heeds disk good outlook) (unlocked : scene.Unlocked)
    (config : service.config = scene.service.config) (fine : good d)
    (upload? : outlook'.upload? = outlook.upload?) :
    Scene.Heeds disk good { scene with service, disk := d } outlook' where
  fine _ := fine
  depth := by
    rw [config]
    exact heeds.depth
  present := by
    rw [upload?]
    exact heeds.present
  room := heeds.room
  gate := heeds.gate
  flushing upload member record rest call := absurd call (unlocked upload member record rest)

namespace Depicts

theorem begins {fileName : String} {result : Except Halt FileId} {begun : Outlook}
    (depicts : Depicts shelf user limit none scene outlook)
    (heeds : scene.Heeds disk good outlook)
    (starts : outlook.start user fileName = (result, begun))
    (within : begun.service.ids.used ≤ limit) :
    ∃ transfers, scene.toTransfers.start user fileName = (result, transfers) ∧
      transfers.service.ids.used ≤ limit ∧
        Scene.Heeds disk good { scene with toTransfers := transfers } begun := by
  have unlocked : scene.Unlocked := depicts.unlocked fun _ _ here => by cases here
  obtain ⟨ids, here, there⟩ := Upload.start_sameFor depicts.same fileName
  obtain ⟨transfers, started, drawn, seen⟩ : ∃ transfers,
      scene.toTransfers.start user fileName = (result, transfers) ∧
        transfers.service.ids = begun.service.ids ∧
          ∀ id, (begun.upload? id).isSome → (outlook.upload? id).isSome ∨
            ∃ upload ∈ transfers.uploads, upload.fileId = id := by
    unfold Outlook.start at starts
    unfold Transfers.start
    rw [here]
    generalize Upload.start outlook.service user fileName = outcome at starts there
    obtain ⟨halt | upload, service⟩ := outcome
    · cases starts
      cases there
      exact ⟨_, rfl, rfl, fun _ => .inl⟩
    · cases starts
      cases there
      refine ⟨_, rfl, rfl, fun id seen => (Outlook.seen_of_update rfl seen).imp_right ?_⟩
      rintro rfl
      exact ⟨upload, List.mem_append_right _ List.mem_cons_self, rfl⟩
  refine ⟨transfers, started, drawn ▸ within, ?_⟩
  obtain ⟨_, _, config, outcome⟩ := Transfers.start_cases started
  have older {upload : Upload} (old : upload ∈ scene.uploads) : upload ∈ transfers.uploads := by
    rcases outcome with ⟨same, _⟩ | ⟨fresh, grown, _⟩
    · exact same ▸ old
    · exact grown ▸ List.mem_append_left _ old
  have newer {upload : Upload} (member : upload ∈ transfers.uploads) : upload ∈ scene.uploads ∨
      Transfers.Begins scene.service user upload := by
    rcases outcome with ⟨same, _⟩ | ⟨fresh, grown, _, begins⟩
    · exact .inl (same ▸ member)
    · rw [grown] at member
      rcases List.mem_append.1 member with old | new
      · exact .inl old
      · exact .inr (List.mem_singleton.1 new ▸ begins)
  constructor
  case fine => exact fun _ => heeds.fine unlocked
  case depth =>
    rw [config]
    exact heeds.depth
  case present =>
    intro id there
    rcases seen id there with old | new
    · obtain ⟨upload, member, same⟩ := heeds.present id old
      exact ⟨upload, older member, same⟩
    · exact new
  case room =>
    intro upload member
    rcases newer member with old | begins
    · exact heeds.room upload old
    · rw [begins.capacity]
      exact heeds.depth
  case gate =>
    intro upload member
    rcases newer member with old | begins
    · exact heeds.gate upload old
    · rw [begins.writer.1]
      exact nofun
  case flushing =>
    intro upload member record rest call
    rcases newer member with old | begins
    · exact absurd call (unlocked upload old record rest)
    · cases begins.stands.2.2.symm.trans call

end Depicts

end

end Strongroom
