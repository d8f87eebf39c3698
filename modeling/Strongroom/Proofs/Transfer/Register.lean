import Strongroom.Proofs.Transfer.Outcome

/-! # Uploads whose calls are given up anywhere

Whatever callers do, calls given up and handles dropped at any point, no two
uploads share an identifier, and the catalog learns of an upload only from its
own commit, after the last record was handed over.
-/

namespace Strongroom

variable {δ : Type}

/-- Nothing new about a file comes to the catalog. -/
structure Service.Spares (id : FileId) (service service' : Service) : Prop where
  journal : ∃ events, service'.journal = events ++ service.journal ∧
    ⟨.insert, toString id⟩ ∉ events
  files : ∀ file ∈ service'.catalog.entries.files,
    file.id = id → file ∈ service.catalog.entries.files

/-- The catalog has a record of a file, or was asked to take one. -/
def Service.Knows (service : Service) (id : FileId) : Prop :=
  ⟨.insert, toString id⟩ ∈ service.journal ∨
    ∃ file ∈ service.catalog.entries.files, file.id = id

namespace Service.Spares

variable {id : FileId} {first second third : Service}

theorem of_same (journal : second.journal = first.journal)
    (catalog : second.catalog = first.catalog) :
    first.Spares id second :=
  ⟨⟨[], journal, List.not_mem_nil⟩, fun _ there _ => catalog ▸ there⟩

theorem trans (before : first.Spares id second) (behind : second.Spares id third) :
    first.Spares id third := by
  obtain ⟨events, journal, quiet⟩ := before.journal
  obtain ⟨more, journal', quiet'⟩ := behind.journal
  refine ⟨⟨more ++ events, ?_, ?_⟩, ?_⟩
  · rw [journal', journal, List.append_assoc]
  · rw [List.mem_append, not_or]
    exact ⟨quiet', quiet⟩
  · exact fun file there own => before.files file (behind.files file there own) own

theorem knows (spares : first.Spares id second) (knows : second.Knows id) : first.Knows id := by
  rcases knows with noted | ⟨file, there, own⟩
  · obtain ⟨events, journal, quiet⟩ := spares.journal
    rw [journal, List.mem_append] at noted
    exact .inl (noted.resolve_left quiet)
  · exact .inr ⟨file, spares.files file there own, own⟩

end Service.Spares

namespace Upload

/-- What holds of an upload wherever its calls are given up. -/
structure Sound (upload : Upload) : Prop where
  owns : upload.OwnsDraft
  receiving : upload.phase = .receiving → upload.encoder.isSome → upload.sending = true
  call :
    match upload.call with
    | .handOff _ => upload.phase = .writing ∧ upload.sending = true
    | .handOffFinal _ _ => upload.phase = .committing ∧ upload.sending = true
    | .joinForSize _ | .flushing _ _ | .withdraw _ => upload.phase = .committing
    | .answered (.ok (some _)) => upload.phase = .done
    | _ => True

/-- The catalog was not asked for the record: the last one is not handed over yet,
    or the commit waits for the writer. -/
def Unasked (upload : Upload) : Prop :=
  upload.phase = .receiving ∨ upload.phase = .writing ∨
    (∃ record size, upload.call = .handOffFinal record size) ∨
      ∃ size, upload.call = .joinForSize size

section

variable {disk : Disk δ} {s s' : Spot δ} {act : Act}

theorem Sound.callerMoves (sound : s.upload.Sound) (moves : CallerMoves disk s act s') :
    s'.upload.Sound := by
  have owns := sound.owns.moves (.caller moves)
  have call := sound.call
  -- A move that leaves the upload in a phase in which it takes nothing more.
  have closed {phase : Phase} (here : s'.upload.phase = phase) (other : phase ≠ .receiving) :
      s'.upload.phase = .receiving → s'.upload.encoder.isSome → s'.upload.sending = true :=
    fun receiving => absurd (here.symm.trans receiving) other
  cases moves with
  | stop => exact ⟨owns, fun _ none => (by cases none), trivial⟩
  | deny _ notReceiving => exact ⟨owns, closed rfl notReceiving, trivial⟩
  | fed | gaveUp => exact ⟨owns, sound.receiving, trivial⟩
  | opened enters receiving _ present | sealed enters receiving _ present =>
      refine ⟨owns, closed rfl (by simp), rfl, ?_⟩
      rw [enters.same] at receiving present ⊢
      exact sound.receiving receiving (Option.isSome_iff_exists.2 ⟨_, present⟩)
  | wrote here =>
      rw [here] at call
      refine ⟨owns, fun _ _ => call.2, ?_⟩
      cases s.upload.inbound with
      | none => trivial
      | some items => trivial
  | handed here =>
      rw [here] at call
      exact ⟨owns, sound.receiving, call⟩
  | handedFinal here =>
      rw [here] at call
      exact ⟨owns, closed call.1 (by simp), call.1⟩
  | refused here | staged here | flushed here | unstaged here =>
      rw [here] at call
      exact ⟨owns, closed call (by simp), call⟩
  | hungUp waits =>
      refine ⟨owns, ?_, trivial⟩
      rcases waits with ⟨record, rest, here⟩ | ⟨record, size, here⟩
      all_goals
        rw [here] at call
        exact closed call.1 (by simp)
  | filed => exact ⟨owns, closed rfl (by simp), rfl⟩
  | removed => exact ⟨owns, closed rfl (by simp), trivial⟩
  | dropped =>
      refine ⟨owns, ?_, by rw [drop_call]; trivial⟩
      unfold Upload.drop
      split
      · exact sound.receiving
      · exact sound.receiving
      · exact fun _ none => (by cases none)
  | cancelled => exact ⟨owns, sound.receiving, call⟩

theorem Sound.moves (sound : s.upload.Sound) (moves : Moves disk s act s') :
    s'.upload.Sound := by
  have owns := sound.owns.moves moves
  cases moves with
  | caller moves => exact sound.callerMoves moves
  | cleared => exact ⟨owns, sound.receiving, sound.call⟩
  | writer moves =>
      rw [moves.same.2] at owns ⊢
      exact ⟨owns, sound.receiving, sound.call⟩

/-- What stops an upload leaves its phase, or finds it receiving. -/
theorem Stops.phase {upload next : Upload} {reason : Error}
    (stops : upload.Stops act next reason) :
    next.phase = upload.phase ∨ upload.phase = .receiving := by
  cases stops with
  | fired enters | interrupted enters => exact .inl enters.phase
  | unsealed enters receiving => exact .inr (enters.phase.symm.trans receiving)
  | _ => exact .inl rfl

theorem Sound.unasked_of_moves (sound : s.upload.Sound) (moves : Moves disk s act s')
    (unasked : s'.upload.Unasked) : s.upload.Unasked := by
  have midway := sound.call
  -- A move that keeps the phase, and after which no commit goes on.
  have kept (phase : s'.upload.phase = s.upload.phase)
      (final : ∀ record size, s'.upload.call ≠ .handOffFinal record size)
      (joins : ∀ size, s'.upload.call ≠ .joinForSize size) : s.upload.Unasked := by
    rcases unasked with receiving | writing | ⟨record, size, call⟩ | ⟨size, call⟩
    · exact .inl (phase.symm.trans receiving)
    · exact .inr (.inl (phase.symm.trans writing))
    · exact absurd call (final record size)
    · exact absurd call (joins size)
  have never (phase : s'.upload.phase = .done ∨ s'.upload.phase = .failed)
      (result : Except Error (Option FileRecord)) (call : s'.upload.call = .answered result) :
      s.upload.Unasked := by
    rcases unasked with here | here | ⟨_, _, here⟩ | ⟨_, here⟩
    · rcases phase with phase | phase
      all_goals cases phase.symm.trans here
    · rcases phase with phase | phase
      all_goals cases phase.symm.trans here
    · cases call.symm.trans here
    · cases call.symm.trans here
  cases moves with
  | writer moves =>
      rw [moves.same.2] at unasked
      exact unasked
  | cleared => exact unasked
  | caller moves =>
      cases moves with
      | stop stops =>
          rcases stops.phase with same | receiving
          · exact kept same (by simp [abort]) (by simp [abort])
          · exact .inl receiving
      | deny enters => exact kept enters.phase (by simp [answer]) (by simp [answer])
      | opened enters receiving | sealed enters receiving =>
          exact .inl (enters.phase.symm.trans receiving)
      | wrote here | handed here =>
          rw [here] at midway
          exact .inr (.inl midway.1)
      | handedFinal here => exact .inr (.inr (.inl ⟨_, _, here⟩))
      | refused here | staged here => exact .inr (.inr (.inr ⟨_, here⟩))
      | fed | hungUp | flushed | unstaged | gaveUp =>
          exact kept rfl (by simp [giveUp]) (by simp [giveUp])
      | filed => exact never (.inl rfl) _ rfl
      | removed => exact never (.inr rfl) _ rfl
      | dropped => exact kept drop_phase (by simp) (by simp)
      | cancelled => exact unasked

theorem Sound.asked {upload : Upload} (sound : upload.Sound)
    (call : (∃ e, upload.call = .withdraw e) ∨ ∃ record rest, upload.call = .flushing record rest) :
    ¬ upload.Unasked := by
  have midway := sound.call
  rcases call with ⟨e, call⟩ | ⟨record, rest, call⟩
  all_goals
    rw [call] at midway
    rintro (phase | phase | ⟨_, _, here⟩ | ⟨_, here⟩)
    · cases midway.symm.trans phase
    · cases midway.symm.trans phase
    · cases call.symm.trans here
    · cases call.symm.trans here

/-- A move notes no request for a record, or it is the one that asks for it. -/
theorem notes_of_moves (moves : Moves disk s act s') :
    (∃ events, s'.service.journal = events ++ s.service.journal ∧
        ∀ event ∈ events, event.verb ≠ .insert) ∨
      (∃ size, s.upload.call = .joinForSize size) ∧
        s'.service.journal = ⟨.insert, toString s.upload.fileId⟩ :: s.service.journal ∧
          ((∃ e, s'.upload.call = .withdraw e) ∨
            ∃ record rest, s'.upload.call = .flushing record rest) := by
  have removal {service : Service} {result : Except Error Unit} {d : δ}
      (runs : Script.Runs disk s.disk (s.service.removeBlob s.upload.blobName)
        (result, service) d) :
      ∃ events, service.journal = events ++ s.service.journal ∧
        ∀ event ∈ events, event.verb ≠ .insert := by
    obtain ⟨blobs, rfl, _⟩ := Service.runs_removeBlob runs
    exact ⟨[⟨.remove, s.upload.blobName⟩], rfl, by simp⟩
  cases moves with
  | writer moves =>
      obtain ⟨events, journal, quiet⟩ := moves.murmurs
      exact .inl ⟨events, journal, fun event noted => (quiet event noted).1⟩
  | cleared _ _ runs => exact .inl (removal runs)
  | caller moves =>
      cases moves with
      | refused call => exact .inr ⟨⟨_, call⟩, rfl, .inl ⟨_, rfl⟩⟩
      | staged call => exact .inr ⟨⟨_, call⟩, rfl, .inr ⟨_, _, rfl⟩⟩
      | removed _ runs => exact .inl (removal runs)
      | _ => exact .inl ⟨[], rfl, by simp⟩

/-- The catalog learns of an upload from its own commit, once that has waited for
    the writer, and of no other file. -/
theorem Sound.spares (sound : s.upload.Sound) (moves : Moves disk s act s') (id : FileId) :
    s.service.Spares id s'.service ∨
      s.upload.fileId = id ∧ (∃ size, s.upload.call = .joinForSize size) ∧
        ¬ s'.upload.Unasked := by
  have sound' := sound.moves moves
  by_cases asks : s.upload.fileId = id ∧ (∃ size, s.upload.call = .joinForSize size) ∧
    ¬ s'.upload.Unasked
  · exact .inr asks
  refine .inl ⟨?_, fun file there own => ?_⟩
  · rcases notes_of_moves moves with ⟨events, journal, quiet⟩ | ⟨joins, journal, call⟩
    · exact ⟨events, journal, fun noted => quiet _ noted rfl⟩
    · refine ⟨[_], journal, fun noted => asks ⟨?_, joins, sound'.asked call⟩⟩
      have texts := congrArg Event.name (List.mem_singleton.1 noted)
      exact (FileId.toString_injective texts).symm
  · rcases (Footprint.of_moves sound.owns moves).catalog with
      same | ⟨record, rest, filed, files, call, staged⟩ | ⟨record, e, _, gone⟩
    · rw [same] at there
      exact there
    · rw [(Catalog.stageFile_ok staged).2.1, List.mem_append, List.mem_singleton] at there
      rcases there with old | rfl
      · exact old
      · have same := files.id
        obtain ⟨size, _, joins, _⟩ := files
        exact absurd ⟨same.symm.trans own, ⟨size, joins⟩, sound'.asked (.inr ⟨_, _, call⟩)⟩ asks
    · rw [gone, Catalog.entries_unstageFile, Entries.mem_dropFile] at there
      exact there.1

end

end Upload

namespace Scene

/-- No more than the first `limit` identifiers are drawn. Nothing else is asked of
    the callers: a call may be given up and a handle dropped at any point. -/
def Draws (limit : Nat) (scene : Scene δ) : Deed → Prop
  | .start owner fileName =>
      (scene.toTransfers.start owner fileName).2.service.ids.used ≤ limit
  | _ => True

/-- Who is there, whatever callers do. -/
structure Register (limit : Nat) (scene : Scene δ) : Prop where
  within : scene.service.ids.used ≤ limit
  injective : ∀ m n, m < limit → n < limit →
    scene.service.ids.tape m = scene.service.ids.tape n → m = n
  drawn : ∀ upload ∈ scene.uploads, ∃ m n,
    m < scene.service.ids.used ∧ upload.fileId = ⟨scene.service.ids.tape m⟩ ∧
      upload.blobName = (scene.service.ids.tape n).toText
  apart : ∀ upload ∈ scene.uploads, ∀ other ∈ scene.uploads,
    upload.fileId = other.fileId → upload = other
  sound : ∀ upload ∈ scene.uploads, upload.Sound
  unasked : ∀ upload ∈ scene.uploads, upload.Unasked → ¬ scene.service.Knows upload.fileId
  undrawn : ∀ n, scene.service.ids.used ≤ n → n < limit →
    ¬ scene.service.Knows ⟨scene.service.ids.tape n⟩

theorem Opens.register {limit : Nat} {scene : Scene δ} (opens : scene.Opens limit) :
    Register limit scene where
  within := opens.within
  injective := opens.injective
  drawn := by simp [opens.uploads]
  apart := by simp [opens.uploads]
  sound := by simp [opens.uploads]
  unasked := by simp [opens.uploads]
  undrawn n later small := by
    obtain ⟨files, asked, _⟩ := opens.undrawn n later small
    rintro (noted | ⟨file, there, own⟩)
    · exact asked noted
    · exact (files file there).1 own

namespace Register

variable {disk : Disk δ} {limit : Nat} {scene scene' : Scene δ} {deed : Deed}
  {allows : Scene δ → Deed → Prop}

theorem mem_after {before upload other : Upload} {act : Act} {service : Service} {d : δ}
    (register : Register limit scene) (member : before ∈ scene.uploads)
    (moves : Moves disk ⟨scene.service, before, scene.disk⟩ act ⟨service, upload, d⟩)
    (there : other ∈ (scene.after before act service upload d).uploads) :
    (other ∈ scene.uploads ∧ other.fileId ≠ before.fileId) ∨ other = upload := by
  have file := (Footprint.of_moves (register.sound before member).owns moves).file
  rcases Transfers.mem_store.1 there with ⟨old, different⟩ | ⟨rfl, _⟩
  · exact .inl ⟨old, file.fileId ▸ different⟩
  · exact .inr rfl

theorem differs (register : Register limit scene) {m n : Nat}
    (early : m < scene.service.ids.used) (later : scene.service.ids.used ≤ n)
    (small : n < limit) : scene.service.ids.tape m ≠ scene.service.ids.tape n := by
  intro same
  have := register.injective m n (by omega) small same
  omega

theorem start {transfers : Transfers} {owner : UserId} {fileName : String}
    {result : Except Halt FileId} (register : Register limit scene)
    (started : scene.toTransfers.start owner fileName = (result, transfers))
    (within : transfers.service.ids.used ≤ limit) :
    Register limit { scene with toTransfers := transfers } := by
  obtain ⟨ids, tape, service, outcome⟩ := Transfers.start_cases started
  obtain ⟨_, uploads⟩ := transfers
  subst service
  have within : ids.used ≤ limit := within
  have fewer : scene.service.ids.used ≤ ids.used := by
    rcases outcome with ⟨_, more⟩ | ⟨_, _, more, _⟩
    all_goals omega
  have drawn (upload : Upload) (old : upload ∈ scene.uploads) : ∃ m n,
      m < ids.used ∧ upload.fileId = ⟨ids.tape m⟩ ∧ upload.blobName = (ids.tape n).toText := by
    obtain ⟨m, n, early, id, name⟩ := register.drawn upload old
    rw [tape]
    exact ⟨m, n, by omega, id, name⟩
  have injective : ∀ m n, m < limit → n < limit → ids.tape m = ids.tape n → m = n := by
    rw [tape]
    exact register.injective
  have undrawn : ∀ n, ids.used ≤ n → n < limit → ¬ scene.service.Knows ⟨ids.tape n⟩ := by
    rw [tape]
    exact fun n later small => register.undrawn n (by omega) small
  rcases outcome with ⟨same, _⟩ | ⟨upload, same, used, begins⟩
  · obtain rfl : uploads = scene.uploads := same
    exact ⟨within, injective, drawn, register.apart, register.sound, register.unasked, undrawn⟩
  · obtain rfl : uploads = scene.uploads ++ [upload] := same
    have more : scene.service.ids.used < limit := by omega
    have unlike (other : Upload) (old : other ∈ scene.uploads) : other.fileId ≠ upload.fileId := by
      obtain ⟨m, _, early, id, _⟩ := register.drawn other old
      rw [id, begins.fileId]
      exact fun same => register.differs early (Nat.le_refl _) more (FileId.mk.inj same)
    refine ⟨within, injective, fun other there => ?_, fun first there second there' same => ?_,
      fun other there => ?_, fun other there unasked => ?_, undrawn⟩
    · rcases List.mem_append.1 there with old | new
      · exact drawn other old
      · obtain rfl := List.mem_singleton.1 new
        have early : scene.service.ids.used < ids.used := by omega
        refine ⟨scene.service.ids.used, scene.service.ids.used + 1, early, ?_, ?_⟩
        · rw [tape]
          exact begins.fileId
        · rw [tape]
          exact begins.blobName
    · rcases List.mem_append.1 there with old | new
      · rcases List.mem_append.1 there' with old' | new'
        · exact register.apart first old second old' same
        · rw [List.mem_singleton.1 new'] at same
          exact absurd same (unlike first old)
      · rcases List.mem_append.1 there' with old' | new'
        · rw [List.mem_singleton.1 new] at same
          exact absurd same.symm (unlike second old')
        · rw [List.mem_singleton.1 new, List.mem_singleton.1 new']
    · rcases List.mem_append.1 there with old | new
      · exact register.sound other old
      · obtain rfl := List.mem_singleton.1 new
        obtain ⟨streams, _, idle⟩ := begins.stands
        refine ⟨fun draft writes => ?_, fun _ _ => streams.sending, ?_⟩
        · rw [begins.writer.1] at writes
          cases writes
        · rw [idle]
          trivial
    · rcases List.mem_append.1 there with old | new
      · exact register.unasked other old unasked
      · rw [List.mem_singleton.1 new, begins.fileId]
        exact register.undrawn _ (Nat.le_refl _) more

theorem act {before upload : Upload} {act : Act} {service : Service} {d : δ}
    (register : Register limit scene) (member : before ∈ scene.uploads)
    (moves : Moves disk ⟨scene.service, before, scene.disk⟩ act ⟨service, upload, d⟩) :
    Register limit (scene.after before act service upload d) := by
  have sound := register.sound before member
  have footprint := Footprint.of_moves sound.owns moves
  have ids : service.ids = scene.service.ids := footprint.ids
  have fileId : upload.fileId = before.fileId := footprint.file.fileId
  refine ⟨?_, ?_, fun other there => ?_, fun first there second there' same => ?_,
    fun other there => ?_, fun other there unasked => ?_, ?_⟩
  · exact ids ▸ register.within
  · change ∀ m n, _ → _ → service.ids.tape m = service.ids.tape n → m = n
    rw [ids]
    exact register.injective
  · change ∃ m n, m < service.ids.used ∧ other.fileId = ⟨service.ids.tape m⟩ ∧
      other.blobName = (service.ids.tape n).toText
    rw [ids]
    rcases register.mem_after member moves there with ⟨old, _⟩ | rfl
    · exact register.drawn other old
    · rw [fileId, footprint.file.blobName]
      exact register.drawn before member
  · rcases register.mem_after member moves there with ⟨old, different⟩ | rfl
    · rcases register.mem_after member moves there' with ⟨old', _⟩ | rfl
      · exact register.apart first old second old' same
      · exact absurd (same.trans fileId) different
    · rcases register.mem_after member moves there' with ⟨_, different⟩ | rfl
      · exact absurd (same.symm.trans fileId) different
      · rfl
  · rcases register.mem_after member moves there with ⟨old, _⟩ | rfl
    · exact register.sound other old
    · exact sound.moves moves
  · rcases register.mem_after member moves there with ⟨old, different⟩ | rfl
    · rcases sound.spares moves other.fileId with spares | ⟨own, _⟩
      · exact fun knows => register.unasked other old unasked (spares.knows knows)
      · exact absurd own.symm different
    · rw [fileId]
      rcases sound.spares moves before.fileId with spares | ⟨_, _, asked⟩
      · exact fun knows =>
          register.unasked before member (sound.unasked_of_moves moves unasked) (spares.knows knows)
      · exact absurd unasked asked
  · intro n later small
    have later : scene.service.ids.used ≤ n := ids ▸ later
    change ¬ service.Knows ⟨service.ids.tape n⟩
    rw [ids]
    rcases sound.spares moves ⟨scene.service.ids.tape n⟩ with spares | ⟨own, _⟩
    · exact fun knows => register.undrawn n later small (spares.knows knows)
    · obtain ⟨m, _, early, id, _⟩ := register.drawn before member
      exact absurd (FileId.mk.inj (id.symm.trans own)) (register.differs early later small)

theorem spares_errand (errand : Errand disk scene scene') (id : FileId) :
    scene.service.Spares id scene'.service := by
  obtain ⟨events, journal, quiet⟩ := errand.journal
  exact ⟨⟨events, journal, fun noted => (quiet _ noted).1 rfl⟩,
    fun file there _ => errand.files file there⟩

theorem of_same (register : Register limit scene) (uploads : scene'.uploads = scene.uploads)
    (ids : scene'.service.ids = scene.service.ids)
    (spares : ∀ id, scene.service.Spares id scene'.service) : Register limit scene' where
  within := ids ▸ register.within
  injective := by
    rw [ids]
    exact register.injective
  drawn := by
    rw [ids, uploads]
    exact register.drawn
  apart := by
    rw [uploads]
    exact register.apart
  sound := by
    rw [uploads]
    exact register.sound
  unasked upload member unasked knows :=
    register.unasked upload (uploads ▸ member) unasked ((spares _).knows knows)
  undrawn n later small knows := by
    rw [ids] at later knows
    exact register.undrawn n later small ((spares _).knows knows)

theorem errand (register : Register limit scene) (errand : Errand disk scene scene') :
    Register limit scene' :=
  register.of_same errand.uploads errand.ids (spares_errand errand)

theorem steps (register : Register limit scene) (draws : scene.Draws limit deed)
    (steps : scene.Steps disk deed scene') : Register limit scene' := by
  cases steps.turns with
  | start started =>
      refine register.start started ?_
      rw [Draws, started] at draws
      exact draws
  | act member _ _ moves => exact register.act member moves
  | errand _ errand => exact register.errand errand

theorem reaches (register : Register limit scene)
    (draws : ∀ scene deed, allows scene deed → Draws limit scene deed)
    (reaches : Reaches disk allows scene scene') : Register limit scene' := by
  induction reaches with
  | refl => exact register
  | step _ allowed steps ih => exact ih.steps (draws _ _ allowed) steps

theorem goes {upload : Upload} (register : Register limit scene)
    (steps : scene.Steps disk deed scene') (member : upload ∈ scene.uploads) :
    (upload ∈ scene'.uploads ∧ ∀ act, deed ≠ .act upload.fileId act) ∨
      ∃ act, deed = .act upload.fileId act ∧ ∃ next ∈ scene'.uploads,
        upload.SameFile next ∧
          Moves disk ⟨scene.service, upload, scene.disk⟩ act
            ⟨scene'.service, next, scene'.disk⟩ := by
  cases steps.turns with
  | @start _ _ _ transfers started =>
      refine .inl ⟨?_, by simp⟩
      obtain ⟨_, _, _, outcome⟩ := Transfers.start_cases started
      rcases outcome with ⟨same, _⟩ | ⟨fresh, same, _⟩
      · exact same ▸ member
      · have : upload ∈ transfers.uploads := same ▸ List.mem_append_left _ member
        exact this
  | @act before next act service d present _ _ moves =>
      have file := (Footprint.of_moves (register.sound before present).owns moves).file
      by_cases own : before.fileId = upload.fileId
      · obtain rfl := register.apart before present upload member own
        exact .inr ⟨act, rfl, next,
          Transfers.mem_store.2 (.inr ⟨rfl, before, member, file.fileId.symm⟩), file, moves⟩
      · refine .inl ⟨Transfers.mem_store.2 (.inl ⟨member, fun same => ?_⟩), fun _ same => ?_⟩
        · exact own (file.fileId.symm.trans same.symm)
        · exact own (Deed.act.inj same).1
  | errand idle errand =>
      refine .inl ⟨errand.uploads ▸ member, fun act same => ?_⟩
      rw [same] at idle
      cases idle

theorem moves {upload : Upload} {act : Act} (register : Register limit scene)
    (steps : scene.Steps disk (.act upload.fileId act) scene') (member : upload ∈ scene.uploads) :
    ∃ next ∈ scene'.uploads, upload.SameFile next ∧
      Moves disk ⟨scene.service, upload, scene.disk⟩ act ⟨scene'.service, next, scene'.disk⟩ := by
  rcases register.goes steps member with ⟨_, other⟩ | ⟨_, same, next, there, file, moves⟩
  · exact absurd rfl (other act)
  · cases same
    exact ⟨next, there, file, moves⟩

/-- What every move keeps for an upload a run keeps. -/
theorem follows (holds : Upload → Prop) {upload : Upload} (register : Register limit scene)
    (draws : ∀ scene deed, allows scene deed → Draws limit scene deed)
    (moved : ∀ (scene scene' : Scene δ) upload next act, Register limit scene →
      upload ∈ scene.uploads → allows scene (.act upload.fileId act) →
        Moves disk ⟨scene.service, upload, scene.disk⟩ act ⟨scene'.service, next, scene'.disk⟩ →
          holds upload → holds next)
    (reaches : Reaches disk allows scene scene') (member : upload ∈ scene.uploads)
    (here : holds upload) :
    ∃ next ∈ scene'.uploads, next.fileId = upload.fileId ∧ next.blobName = upload.blobName ∧
      holds next := by
  induction reaches with
  | refl => exact ⟨upload, member, rfl, rfl, here⟩
  | @step middle last deed reached allowed steps ih =>
      obtain ⟨next, present, fileId, blobName, here⟩ := ih
      have register := register.reaches draws reached
      rcases register.goes steps present with ⟨still, _⟩ | ⟨act, rfl, later, there, file, moves⟩
      · exact ⟨next, still, fileId, blobName, here⟩
      · exact ⟨later, there, file.fileId.trans fileId, file.blobName.trans blobName,
          moved _ _ _ _ _ register present allowed moves here⟩

/-- A step tells the catalog of a file only if the commit of its upload has waited
    for the writer. -/
theorem spares {id : FileId} (register : Register limit scene)
    (steps : scene.Steps disk deed scene')
    (quiet : ∀ upload ∈ scene.uploads, upload.fileId = id →
      ∀ size, upload.call ≠ .joinForSize size) :
    scene.service.Spares id scene'.service := by
  cases steps.turns with
  | start started =>
      obtain ⟨ids, _, service, _⟩ := Transfers.start_cases started
      exact .of_same (by rw [service]) (by rw [service])
  | @act before _ _ _ _ member _ _ moves =>
      rcases (register.sound before member).spares moves id with spares | ⟨own, ⟨size, joins⟩, _⟩
      · exact spares
      · exact absurd joins (quiet before member own size)
  | errand _ errand => exact spares_errand errand id

theorem spares_while (holds : Upload → Prop) {upload : Upload} (register : Register limit scene)
    (draws : ∀ scene deed, allows scene deed → Draws limit scene deed)
    (moved : ∀ (s s' : Spot δ) act, Moves disk s act s' → holds s.upload → holds s'.upload)
    (quiet : ∀ upload : Upload, holds upload → ∀ size, upload.call ≠ .joinForSize size)
    (reaches : Reaches disk allows scene scene') (member : upload ∈ scene.uploads)
    (here : holds upload) : scene.service.Spares upload.fileId scene'.service := by
  induction reaches with
  | refl => exact .of_same rfl rfl
  | step reached allowed steps ih =>
      obtain ⟨next, present, own, _, here⟩ :=
        register.follows holds draws (fun _ _ _ _ _ _ _ _ moves => moved _ _ _ moves) reached
          member here
      have register := register.reaches draws reached
      refine ih.trans (register.spares steps fun other there same => ?_)
      rw [register.apart other there next present (same.trans own.symm)]
      exact quiet next here

/-- What holds of every new upload, and what every move keeps, holds of all uploads. -/
theorem always (holds : Upload → Prop) {opening : Scene δ} (opens : opening.Opens limit)
    (fresh : ∀ upload : Upload, upload.call = .idle → holds upload)
    (moved : ∀ (s s' : Spot δ) act, Moves disk s act s' → holds s.upload → holds s'.upload)
    (reaches : Reaches disk (Draws limit) opening scene) :
    ∀ upload ∈ scene.uploads, holds upload := by
  induction reaches with
  | refl => simp [opens.uploads]
  | step reached allowed steps ih =>
      have register := opens.register.reaches (fun _ _ draws => draws) reached
      cases steps.turns with
      | @start _ _ _ transfers started =>
          intro upload (there : upload ∈ transfers.uploads)
          obtain ⟨_, _, _, outcome⟩ := Transfers.start_cases started
          rcases outcome with ⟨same, _⟩ | ⟨new, same, _, begins⟩
          · exact ih upload (same ▸ there)
          · rw [same] at there
            rcases List.mem_append.1 there with old | new
            · exact ih upload old
            · rw [List.mem_singleton.1 new]
              exact fresh _ begins.stands.2.2
      | act member _ _ moves =>
          intro upload there
          rcases register.mem_after member moves there with ⟨old, _⟩ | rfl
          · exact ih upload old
          · exact moved _ _ _ moves (ih _ member)
      | errand _ errand =>
          intro upload there
          exact ih upload (errand.uploads ▸ there)

end Register

end Scene

end Strongroom
