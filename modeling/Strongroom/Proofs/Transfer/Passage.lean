import Strongroom.Proofs.Stream.Layout
import Strongroom.Proofs.Transfer.Custody

/-! # The passage of records

Records pass from the encoder through the queue to the store. What an upload has
drawn, made and handed to the store is not part of its state, so it is written
down beside it, move by move. Then nothing is lost on the way, doubled or put in
another order: what the store has taken, what waits in the queue and what a call
has still to hand over are together what the encoder has made.
-/

namespace Strongroom

variable {δ : Type}

/-- What has passed through an upload so far. -/
structure Passage where
  /-- Random bytes that were drawn for its records. -/
  drawn : Bytes := []
  /-- Records that its encoder has handed out. -/
  made : List Bytes := []
  /-- Records that the writer's task has taken from the queue. -/
  taken : List Bytes := []

namespace Upload

/-- Records that the call under way has still to hand over. -/
def waiting (upload : Upload) : List Bytes :=
  match upload.call with
  | .handOff records => records
  | .handOffFinal record _ => [record]
  | _ => []

def handsOver (upload : Upload) : Bool :=
  match upload.call with
  | .handOff _ | .handOffFinal _ _ => true
  | _ => false

/-- The rest of the records will not be handed over. -/
def GivesUp (upload : Upload) : Prop :=
  upload.phase = .failed ∨ (upload.phase = .receiving ∧ upload.stopped = true) ∨
    (upload.phase = .writing ∧ upload.call = .idle) ∨
      (∃ held, upload.call = .joinForCause held) ∨
        (∃ held reason, upload.call = .joinForAbort held reason) ∨
          ∃ e, upload.call = .withdraw e

end Upload

namespace Passage

/-- What has passed after a move: the records that a new call hands over were
    made, and what has left the queue was taken. -/
def after (passage : Passage) (service service' : Service) (before upload : Upload) : Passage :=
  let taken := passage.taken ++ before.queue.take (before.queue.length - upload.queue.length)
  if upload.handsOver && !before.handsOver then
    ⟨passage.drawn ++ service.random.drawn service'.random, passage.made ++ upload.waiting, taken⟩
  else { passage with taken }

/-- The records of a whole plaintext were made. -/
structure IsWhole (passage : Passage) (key : DataKey) (size : Nat) (plaintext : Bytes) : Prop where
  made : passage.made = Stream.layout key size passage.drawn plaintext
  drew : passage.drawn.length = (plaintext.length / size + 1) * Aead.nonceSize

/-- The records of some plaintext were made, as far as an encoder makes them. -/
def Encodes (passage : Passage) (key : DataKey) (size : Nat) (plaintext : Bytes) : Prop :=
  (∃ encoder : Stream.Encoder, encoder.HasMade key size passage.drawn passage.made plaintext) ∨
    passage.IsWhole key size plaintext

/-- A record tells of an upload and of what has passed through it. -/
structure Fits (passage : Passage) (upload : Upload) (payload : Bytes) (record : FileRecord) :
    Prop where
  id : record.id = upload.fileId
  owner : record.owner = upload.owner
  fileName : record.fileName = upload.fileName
  blobName : record.blobName = upload.blobName
  fileSize : record.fileSize = payload.length
  blobSize : record.blobSize = passage.taken.flatten.length

variable {passage : Passage} {service service' : Service} {before upload : Upload}

theorem after_beside (calm : upload.handsOver = true → before.handsOver = true)
    (longer : before.queue.length ≤ upload.queue.length) :
    passage.after service service' before upload = passage := by
  have none : (upload.handsOver && !before.handsOver) = false := by
    cases here : upload.handsOver with
    | false => rfl
    | true => simp [calm here]
  rw [after, none, Nat.sub_eq_zero_of_le longer, List.take_zero, List.append_nil]
  rfl

theorem after_popped {popped : List Bytes}
    (calm : upload.handsOver = true → before.handsOver = true)
    (split : before.queue = popped ++ upload.queue) :
    passage.after service service' before upload =
      { passage with taken := passage.taken ++ popped } := by
  have none : (upload.handsOver && !before.handsOver) = false := by
    cases here : upload.handsOver with
    | false => rfl
    | true => simp [calm here]
  rw [after, none, split, List.length_append, Nat.add_sub_cancel, List.take_left]
  rfl

theorem taken_after (longer : before.queue.length ≤ upload.queue.length) :
    (passage.after service service' before upload).taken = passage.taken := by
  unfold after
  split
  all_goals
    dsimp only
    rw [Nat.sub_eq_zero_of_le longer, List.take_zero, List.append_nil]

theorem after_sealed (idle : before.handsOver = false) (hands : upload.handsOver = true)
    (same : upload.queue = before.queue) :
    passage.after service service' before upload =
      ⟨passage.drawn ++ service.random.drawn service'.random, passage.made ++ upload.waiting,
        passage.taken⟩ := by
  rw [after, idle, hands, same, Nat.sub_self, List.take_zero, List.append_nil]
  rfl

/-- The bytes that were taken are as many as were made just if no record is left. -/
theorem IsWhole.taken_all_iff {key : DataKey} {size : Nat} {plaintext : Bytes}
    {queue : List Bytes} (whole : passage.IsWhole key size plaintext)
    (handed : passage.taken ++ queue = passage.made) :
    passage.taken.flatten.length = passage.made.flatten.length ↔ queue = [] := by
  rw [← handed, List.flatten_append, List.length_append]
  constructor
  · intro same
    cases queue with
    | nil => rfl
    | cons record rest =>
        have made : record ∈ passage.made := by simp [← handed]
        rw [whole.made] at made
        have some := List.length_pos_iff.2 (Stream.ne_nil_of_mem_layout made)
        rw [List.flatten_cons, List.length_append] at same
        omega
  · rintro rfl
    rfl

end Passage

/-- A writer that has taken so many bytes, as far as it tells. -/
def Writer.HasTaken : Writer → Nat → Prop
  | .fresh, count | .waiting, count => count = 0
  | .storing draft, count | .cutting _ _ draft, count => draft.taken = count
  | .draining _ taken _, count => taken = count
  | .ended (.ok size), count => size = count
  | .ended (.error _), _ | .stalled, _ | .panicked, _ => True

namespace Upload

/-- Where the records of an upload are, by what it is about to do. -/
inductive Makes (upload : Upload) (key : DataKey) (size : Nat) (passage : Passage)
    (payload chunk : Bytes) : Prop where
  /-- All records were handed over, and the encoder has more to make. -/
  | receiving {encoder : Stream.Encoder} :
    upload.phase = .receiving → upload.encoder = some encoder →
      encoder.HasMade key size passage.drawn passage.made payload →
        passage.taken ++ upload.queue = passage.made →
          Makes upload key size passage payload chunk
  /-- The rest of what a write has made is still to be handed over. -/
  | writing {encoder : Stream.Encoder} {records : List Bytes} :
    upload.call = .handOff records → upload.encoder = some encoder →
      encoder.HasMade key size passage.drawn passage.made (payload ++ chunk) →
        passage.taken ++ upload.queue ++ records = passage.made →
          Makes upload key size passage payload chunk
  /-- The last record is still to be handed over. -/
  | sealing {record : Bytes} :
    upload.call = .handOffFinal record payload.length → passage.IsWhole key size payload →
      passage.taken ++ upload.queue ++ [record] = passage.made →
        Makes upload key size passage payload chunk
  | joining :
    upload.call = .joinForSize payload.length → passage.IsWhole key size payload →
      passage.taken ++ upload.queue = passage.made → Makes upload key size passage payload chunk
  | filing {record : FileRecord} {rest : Script (Except Error Unit)} :
    upload.call = .flushing record rest → passage.Fits upload payload record →
      passage.IsWhole key size payload → passage.taken ++ upload.queue = passage.made →
        Makes upload key size passage payload chunk
  | filed :
    upload.phase = .done →
      (∀ record, upload.call = .answered (.ok (some record)) →
        passage.Fits upload payload record) →
        passage.IsWhole key size payload → passage.taken ++ upload.queue = passage.made →
          Makes upload key size passage payload chunk
  /-- Some records may be lost, but nothing else. -/
  | givenUp {plaintext : Bytes} {lost : List Bytes} :
    upload.GivesUp → passage.Encodes key size plaintext →
      passage.taken ++ upload.queue ++ lost = passage.made →
        Makes upload key size passage payload chunk

/-- The records of an upload are on their way in order, in a queue that is never
    overfull, and the writer knows how much it has taken. -/
structure Passes (upload : Upload) (key : DataKey) (size : Nat) (passage : Passage)
    (payload chunk : Bytes) : Prop where
  room : upload.queue.length ≤ upload.capacity
  took : upload.writer.HasTaken passage.taken.flatten.length
  makes : upload.Makes key size passage payload chunk

section

variable {disk : Disk δ} {s s' : Spot δ} {act : Act} {gone : Prop} {upload : Upload}
  {key : DataKey} {size : Nat} {passage : Passage} {payload chunk : Bytes}

theorem not_givesUp_of_call (phase : upload.phase = .writing ∨ upload.phase = .committing)
    (idle : upload.call ≠ .idle) (asks : ∀ held, upload.call ≠ .joinForCause held)
    (aborts : ∀ held reason, upload.call ≠ .joinForAbort held reason)
    (withdraws : ∀ e, upload.call ≠ .withdraw e) : ¬ upload.GivesUp := by
  rintro (failed | ⟨receiving, _⟩ | ⟨_, call⟩ | ⟨held, call⟩ | ⟨held, reason, call⟩ |
    ⟨e, call⟩)
  · rcases phase with phase | phase
    all_goals cases phase.symm.trans failed
  · rcases phase with phase | phase
    all_goals cases phase.symm.trans receiving
  · exact idle call
  · exact asks held call
  · exact aborts held reason call
  · exact withdraws e call

theorem Stands.not_givesUp_of_receiving (stands : upload.Stands gone) (streams : upload.Streams)
    (phase : upload.phase = .receiving) : ¬ upload.GivesUp := by
  have midway := stands.midway
  rintro (failed | ⟨_, stopped⟩ | ⟨writing, _⟩ | ⟨held, call⟩ | ⟨held, reason, call⟩ |
    ⟨e, call⟩)
  · cases phase.symm.trans failed
  · cases streams.running.symm.trans stopped
  · cases phase.symm.trans writing
  · rw [call] at midway
    rcases midway.1 with other | other
    all_goals cases phase.symm.trans other
  · rw [call] at midway
    cases streams.running.symm.trans midway.2.1
  · rw [call] at midway
    cases phase.symm.trans midway.1

theorem Stands.not_givesUp_of_done (stands : upload.Stands gone)
    (done : upload.phase = .done) : ¬ upload.GivesUp := by
  have midway := stands.midway
  rintro (failed | ⟨receiving, _⟩ | ⟨writing, _⟩ | ⟨held, call⟩ | ⟨held, reason, call⟩ |
    ⟨e, call⟩)
  · cases done.symm.trans failed
  · cases done.symm.trans receiving
  · cases done.symm.trans writing
  · rw [call] at midway
    rcases midway.1 with other | other
    all_goals cases done.symm.trans other
  · rw [call] at midway
    exact midway.1 done
  · rw [call] at midway
    cases done.symm.trans midway.1

theorem Stands.elsewhere (stands : upload.Stands gone)
    (settled : upload.phase = .receiving ∨ upload.phase = .done ∨ upload.GivesUp) :
    match upload.call with
    | .handOff _ | .handOffFinal _ _ | .joinForSize _ | .flushing _ _ => False
    | _ => True := by
  have midway := stands.midway
  split
  case h_5 => trivial
  all_goals
    rename_i call
    rw [call] at midway
    have phase : upload.phase = .writing ∨ upload.phase = .committing := by simp [midway]
    rcases settled with receiving | done | gives
    · simp [receiving] at phase
    · simp [done] at phase
    · exact not_givesUp_of_call phase (by simp [call]) (by simp [call]) (by simp [call])
        (by simp [call]) gives

section

variable (makes : upload.Makes key size passage payload chunk) (stands : upload.Stands gone)

include makes stands

theorem Makes.of_receiving (streams : upload.Streams) (phase : upload.phase = .receiving) :
    ∃ encoder, upload.encoder = some encoder ∧
      encoder.HasMade key size passage.drawn passage.made payload ∧
        passage.taken ++ upload.queue = passage.made := by
  have midway := stands.midway
  cases makes with
  | receiving _ present has same => exact ⟨_, present, has, same⟩
  | writing call | sealing call =>
      rw [call] at midway
      cases midway.2.symm.trans phase
  | joining call | filing call =>
      rw [call] at midway
      cases midway.1.symm.trans phase
  | filed done => cases done.symm.trans phase
  | givenUp gives => exact absurd gives (stands.not_givesUp_of_receiving streams phase)

theorem Makes.midway :
    match upload.call with
    | .handOff records =>
        ∃ encoder, upload.encoder = some encoder ∧
          encoder.HasMade key size passage.drawn passage.made (payload ++ chunk) ∧
            passage.taken ++ upload.queue ++ records = passage.made
    | .handOffFinal record count =>
        count = payload.length ∧ passage.IsWhole key size payload ∧
          passage.taken ++ upload.queue ++ [record] = passage.made
    | .joinForSize count =>
        count = payload.length ∧ passage.IsWhole key size payload ∧
          passage.taken ++ upload.queue = passage.made
    | .flushing record _ =>
        passage.Fits upload payload record ∧ passage.IsWhole key size payload ∧
          passage.taken ++ upload.queue = passage.made
    | _ => True := by
  by_cases settled : upload.phase = .receiving ∨ upload.phase = .done ∨ upload.GivesUp
  · have none := stands.elsewhere settled
    split
    case h_5 => trivial
    all_goals
      rename_i call
      rw [call] at none
      exact none.elim
  · cases makes with
    | writing call present has same =>
        rw [call]
        exact ⟨_, present, has, same⟩
    | sealing call whole same | joining call whole same =>
        rw [call]
        exact ⟨rfl, whole, same⟩
    | filing call fits whole same =>
        rw [call]
        exact ⟨fits, whole, same⟩
    | receiving phase => exact absurd (.inl phase) settled
    | filed done => exact absurd (.inr (.inl done)) settled
    | givenUp gives => exact absurd (.inr (.inr gives)) settled

theorem Makes.of_done (done : upload.phase = .done) :
    (∀ record, upload.call = .answered (.ok (some record)) →
      passage.Fits upload payload record) ∧ passage.IsWhole key size payload ∧
        passage.taken ++ upload.queue = passage.made := by
  have midway := stands.midway
  cases makes with
  | filed _ fits whole same => exact ⟨fits, whole, same⟩
  | receiving phase => cases done.symm.trans phase
  | writing call | sealing call =>
      rw [call] at midway
      cases midway.2.symm.trans done
  | joining call | filing call =>
      rw [call] at midway
      cases midway.1.symm.trans done
  | givenUp gives => exact absurd gives (stands.not_givesUp_of_done done)

end

/-- What an upload has made is not lost but for what is still to be handed over. -/
theorem Makes.rest (makes : upload.Makes key size passage payload chunk) :
    ∃ plaintext lost, passage.Encodes key size plaintext ∧
      passage.taken ++ upload.queue ++ lost = passage.made := by
  cases makes with
  | receiving _ _ has same => exact ⟨_, [], .inl ⟨_, has⟩, by rw [List.append_nil, same]⟩
  | writing _ _ has same => exact ⟨_, _, .inl ⟨_, has⟩, same⟩
  | sealing _ whole same => exact ⟨_, _, .inr whole, same⟩
  | joining _ whole same | filing _ _ whole same | filed _ _ whole same =>
      exact ⟨_, [], .inr whole, by rw [List.append_nil, same]⟩
  | givenUp _ encodes same => exact ⟨_, _, encodes, same⟩

theorem AtRest.handsOver (rest : upload.AtRest act) : upload.handsOver = false := by
  unfold Upload.handsOver
  split
  · rename_i records call
    rcases rest with ⟨⟨ready, _⟩, _⟩ | ⟨idle, _⟩
    · simp only [IsReady, call] at ready
    · cases call.symm.trans idle
  · rename_i record count call
    rcases rest with ⟨⟨ready, _⟩, _⟩ | ⟨idle, _⟩
    · simp only [IsReady, call] at ready
    · cases call.symm.trans idle
  · rfl

theorem Makes.of_same {next : Upload} {taken : List Bytes}
    (makes : upload.Makes key size passage payload chunk)
    (same : next =
      { upload with
        queue := next.queue, writer := next.writer, cancelled := next.cancelled
        cleanup := next.cleanup })
    (queue : taken ++ next.queue = passage.taken ++ upload.queue)
    (still : upload.InCatalog → taken = passage.taken) :
    next.Makes key size { passage with taken } payload chunk := by
  have fits {record : FileRecord} (filed : upload.InCatalog)
      (fits : passage.Fits upload payload record) :
      Passage.Fits { passage with taken } next payload record := by
    rw [same, still filed]
    exact ⟨fits.id, fits.owner, fits.fileName, fits.blobName, fits.fileSize, fits.blobSize⟩
  have phase : next.phase = upload.phase := by rw [same]
  have call : next.call = upload.call := by rw [same]
  have encoder : next.encoder = upload.encoder := by rw [same]
  have stopped : next.stopped = upload.stopped := by rw [same]
  cases makes with
  | receiving here present has made =>
      exact .receiving (phase.trans here) (encoder.trans present) has (queue.trans made)
  | writing here present has made =>
      exact .writing (call.trans here) (encoder.trans present) has (queue ▸ made)
  | sealing here whole made =>
      exact .sealing (call.trans here) ⟨whole.made, whole.drew⟩ (queue ▸ made)
  | joining here whole made =>
      exact .joining (call.trans here) ⟨whole.made, whole.drew⟩ (queue.trans made)
  | filing here tells whole made =>
      exact .filing (call.trans here) (fits (.inr ⟨_, _, here⟩) tells) ⟨whole.made, whole.drew⟩
        (queue.trans made)
  | filed done tells whole made =>
      exact .filed (phase.trans done) (fun record answered => fits (.inl done)
        (tells record (call.symm.trans answered))) ⟨whole.made, whole.drew⟩ (queue.trans made)
  | givenUp gives encodes made =>
      refine .givenUp ?_ (encodes.imp_right fun whole => ⟨whole.made, whole.drew⟩)
        (queue ▸ made)
      rw [GivesUp, phase, call, stopped]
      exact gives

section

variable {service service' : Service} {before next : Upload}

theorem Makes.beside (calm : next.handsOver = true → before.handsOver = true)
    (longer : before.queue.length ≤ next.queue.length)
    (makes : next.Makes key size passage payload chunk) :
    next.Makes key size (passage.after service service' before next) payload chunk := by
  rw [Passage.after_beside calm longer]
  exact makes

theorem Makes.made (idle : before.handsOver = false) (hands : next.handsOver = true)
    (same : next.queue = before.queue)
    (makes : next.Makes key size
      ⟨passage.drawn ++ service.random.drawn service'.random, passage.made ++ next.waiting,
        passage.taken⟩ payload chunk) :
    next.Makes key size (passage.after service service' before next) payload chunk := by
  rw [Passage.after_sealed idle hands same]
  exact makes

/-- An upload that gives up loses what it had still to hand over. -/
theorem Makes.gives {payload' chunk' : Bytes}
    (makes : before.Makes key size passage payload chunk) (gives : next.GivesUp)
    (calm : next.handsOver = false) (queue : next.queue = before.queue) :
    next.Makes key size (passage.after service service' before next) payload' chunk' := by
  obtain ⟨plaintext, lost, encodes, same⟩ := makes.rest
  exact .beside (by simp [calm]) (by simp [queue]) (.givenUp gives encodes (queue ▸ same))

end

theorem Makes.drop {service : Service} {inside : Bool} {payload' chunk' : Bytes}
    (makes : upload.Makes key size passage payload chunk) (stands : upload.Stands gone)
    (handle : ¬ gone) (ready : upload.IsReady) (written : payload' = payload) :
    (upload.drop inside).Makes key size
      (passage.after service service upload (upload.drop inside)) payload' chunk' := by
  have calm : (upload.drop inside).handsOver = false := by simp [handsOver]
  by_cases done : upload.phase = .done
  · obtain ⟨_, whole, same⟩ := makes.of_done stands done
    refine .beside (by simp [calm]) (by simp)
      (.filed (drop_phase.trans done) ?_ (written ▸ whole) (by rw [drop_queue, same]))
    intro record answered
    cases drop_call.symm.trans answered
  · have rest : upload.AtRest (.drop inside) := .inl ⟨⟨ready, done⟩, rfl⟩
    refine makes.gives ?_ calm drop_queue
    rcases stands.atRest rest (fun _ => handle) with ⟨_, phase | phase⟩ | ⟨phase, _⟩
    · refine .inr (.inl ⟨drop_phase.trans phase, ?_⟩)
      rw [Upload.drop, phase]
    · exact .inr (.inr (.inl ⟨drop_phase.trans phase, drop_call⟩))
    · exact .inl (drop_phase.trans phase)

theorem Makes.of_enters {entered : Upload} {asked : Option Bytes} {encoder : Stream.Encoder}
    (makes : upload.Makes key size passage payload chunk) (stands : upload.Stands gone)
    (handle : act.takesHandle = true → ¬ gone) (enters : upload.Enters act asked entered)
    (phase : entered.phase = .receiving) (present : entered.encoder = some encoder) :
    encoder.HasMade key size passage.drawn passage.made payload ∧
      passage.taken ++ entered.queue = passage.made := by
  rw [enters.phase] at phase
  rcases stands.atRest enters.atRest handle with ⟨streams, _⟩ | ⟨failed, _⟩
  · obtain ⟨_, here, has, same⟩ := makes.of_receiving stands streams phase
    rw [enters.encoder, here] at present
    cases present
    exact ⟨has, enters.queue ▸ same⟩
  · cases phase.symm.trans failed

/-- What the caller does keeps the records on their way. -/
theorem Makes.callerMoves (makes : s.upload.Makes key size passage payload chunk)
    (took : s.upload.writer.HasTaken passage.taken.flatten.length)
    (stands : s.upload.Stands gone) (handle : act.takesHandle = true → ¬ gone)
    (behaves : s.upload.Behaves act) (moves : CallerMoves disk s act s') :
    s'.upload.Makes key size (passage.after s.service s'.service s.upload s'.upload)
      (s.upload.payloadAfter act chunk payload) (s.upload.chunkAfter act chunk) := by
  have midway := stands.midway
  have made := makes.midway stands
  cases moves with
  | stop stops =>
      have queue := congrArg Upload.queue stops.same
      exact makes.gives (.inr (.inr (.inr (.inr (.inl ⟨_, _, rfl⟩))))) rfl queue
  | deny enters notReceiving notWriting =>
      rw [enters.phase] at notReceiving notWriting
      rcases stands.atRest enters.atRest handle with ⟨_, phase⟩ | ⟨phase, _⟩
      · exact (phase.elim notReceiving notWriting).elim
      · exact makes.gives (.inl (enters.phase.trans phase)) rfl enters.queue
  | fed mayCall =>
      rcases stands.atRest (.inl ⟨mayCall, rfl⟩) handle with
        ⟨streams, phase | phase⟩ | ⟨phase, _⟩
      · obtain ⟨encoder, present, has, same⟩ := makes.of_receiving stands streams phase
        exact .beside (by simp [handsOver]) (Nat.le_refl _) (.receiving phase present has same)
      · exact makes.gives (.inr (.inr (.inl ⟨phase, rfl⟩))) rfl rfl
      · exact makes.gives (.inl phase) rfl rfl
  | @opened act data entered encoder next records random enters phase _ present wrote =>
      obtain ⟨has, same⟩ := makes.of_enters stands handle enters phase present
      rw [enters.payloadAfter, enters.chunkAfter]
      refine .made enters.atRest.handsOver rfl enters.queue
        (.writing rfl rfl (has.write wrote).2 ?_)
      rw [← same]
      rfl
  | sealed enters phase _ present finished =>
      obtain ⟨has, same⟩ := makes.of_enters stands handle enters phase present
      obtain ⟨_, made, drew⟩ := has.finish finished
      rw [enters.payloadAfter, has.count]
      refine .made enters.atRest.handsOver rfl enters.queue (.sealing rfl ⟨made, drew⟩ ?_)
      rw [← same]
      rfl
  | wrote call =>
      rw [call] at made
      obtain ⟨encoder, present, has, same⟩ := made
      rw [payloadAfter_wrote call]
      exact .beside (by simp [handsOver, call]) (Nat.le_refl _)
        (.receiving rfl present has (by simpa using same))
  | handed call =>
      rw [call] at made
      obtain ⟨encoder, present, has, same⟩ := made
      rw [payloadAfter_of_call (by simp [call]), chunkAfter_of_call (by simp [call])]
      exact .beside (by simp [handsOver, call]) (by simp)
        (.writing rfl present has (by simpa using same))
  | handedFinal call =>
      rw [call] at made
      obtain ⟨rfl, whole, same⟩ := made
      rw [payloadAfter_of_call (by simp [call])]
      exact .beside (by simp [handsOver]) (by simp) (.joining rfl whole (by simpa using same))
  | hungUp => exact makes.gives (.inr (.inr (.inr (.inl ⟨_, rfl⟩)))) rfl rfl
  | refused | unstaged =>
      exact makes.gives (.inr (.inr (.inr (.inr (.inr ⟨_, rfl⟩))))) rfl rfl
  | staged call stored =>
      rw [call] at made
      obtain ⟨rfl, whole, same⟩ := made
      rw [ended_of_result stored] at took
      rw [payloadAfter_of_call (by simp [call])]
      exact .beside (by simp [handsOver]) (Nat.le_refl _)
        (.filing rfl ⟨rfl, rfl, rfl, rfl, rfl, took⟩ whole same)
  | flushed call =>
      rw [call] at made
      obtain ⟨fits, whole, same⟩ := made
      rw [payloadAfter_of_call (by simp [call])]
      exact .beside (by simp [handsOver]) (Nat.le_refl _)
        (.filing rfl ⟨fits.id, fits.owner, fits.fileName, fits.blobName, fits.fileSize,
          fits.blobSize⟩ whole same)
  | filed call =>
      rw [call] at made
      obtain ⟨fits, whole, same⟩ := made
      rw [payloadAfter_of_call (by simp [call])]
      refine .beside (by simp [handsOver]) (Nat.le_refl _)
        (.filed rfl (fun record answered => ?_) whole same)
      cases answered
      exact ⟨fits.id, fits.owner, fits.fileName, fits.blobName, fits.fileSize, fits.blobSize⟩
  | removed => exact makes.gives (.inl rfl) rfl rfl
  | gaveUp =>
      obtain ⟨record, rest, call⟩ := behaves
      rw [call] at midway
      exact makes.gives (.inr (.inr (.inl ⟨midway.2, rfl⟩))) rfl rfl
  | dropped => exact makes.drop stands (handle rfl) behaves rfl
  | cancelled =>
      exact .beside (fun hands => hands) (Nat.le_refl _)
        (makes.of_same rfl rfl fun _ => rfl)

theorem hasTaken_writerMoves {count : Nat} (took : s.upload.writer.HasTaken count)
    (moves : WriterMoves disk s s') :
    ∃ popped, s.upload.queue = popped ++ s'.upload.queue ∧
      s'.upload.writer.HasTaken (count + popped.flatten.length) := by
  cases moves with
  | halted | notBegun | broke => exact ⟨[], rfl, trivial⟩
  | arrived fresh =>
      rw [fresh] at took
      exact ⟨[], rfl, took⟩
  | began opens _ begun =>
      have empty := congrArg BlobDraft.taken (BlobStore.eq_of_begin begun)
      refine ⟨[], rfl, ?_⟩
      cases opens with
      | store fresh | cut fresh =>
          rw [fresh] at took
          exact empty.trans took.symm
      | pass waiting =>
          rw [waiting] at took
          exact empty.trans took.symm
  | @stored next draft draft' record queue _ continues _ waits runs =>
      have counted := (BlobStore.same_of_take runs).2.2
      refine ⟨[record], waits, ?_⟩
      rw [List.flatten_singleton]
      generalize s.upload.writer = writer at continues took
      cases continues with
      | storing | cutting => exact counted.trans (congrArg (· + record.length) took)
  | notStored _ _ waits => exact ⟨[_], waits, trivial⟩
  | @closed draft result _ _ storing _ _ _ finished =>
      refine ⟨[], rfl, ?_⟩
      rw [storing] at took
      cases result with
      | ok size => exact (BlobStore.size_of_close finished).trans took
      | error e => trivial
  | drains fresh =>
      rw [fresh] at took
      exact ⟨[], rfl, took.symm⟩
  | @drained _ _ _ record _ draining _ waits =>
      rw [draining] at took
      refine ⟨[record], waits, ?_⟩
      rw [List.flatten_singleton]
      exact congrArg (· + record.length) took
  | @endedDraining _ _ ending _ _ draining _ _ ended =>
      rw [draining] at took
      cases ending with
      | early =>
          cases ended
          exact ⟨[], rfl, took⟩
      | fail | stall | panic =>
          cases ended
          exact ⟨[], rfl, trivial⟩

theorem taken_callerMoves (moves : CallerMoves disk s act s') :
    (passage.after s.service s'.service s.upload s'.upload).taken = passage.taken := by
  apply Passage.taken_after
  rcases queue_callerMoves moves with same | ⟨record, same, _⟩
  all_goals simp [same]

/-- A move keeps the records on their way. -/
theorem Passes.moves (passes : s.upload.Passes key size passage payload chunk)
    (stands : s.upload.Stands gone) (handle : act.takesHandle = true → ¬ gone)
    (behaves : s.upload.Behaves act) (owns : s.upload.OwnsDraft) (moves : Moves disk s act s') :
    s'.upload.Passes key size (passage.after s.service s'.service s.upload s'.upload)
      (s.upload.payloadAfter act chunk payload) (s.upload.chunkAfter act chunk) := by
  have capacity := (Footprint.of_moves owns moves).file.capacity
  obtain ⟨room, took, makes⟩ := passes
  cases moves with
  | caller moves =>
      refine ⟨?_, ?_, makes.callerMoves took stands handle behaves moves⟩
      · rw [capacity]
        rcases queue_callerMoves moves with same | ⟨record, same, more, _⟩
        · exact same ▸ room
        · rw [same, List.length_append]
          exact more
      · rw [taken_callerMoves moves, moves.writer]
        exact took
  | writer moves =>
      obtain ⟨popped, split, took⟩ := hasTaken_writerMoves took moves
      obtain ⟨runs, same⟩ := moves.same
      have calm : s'.upload.handsOver = true → s.upload.handsOver = true := by
        rw [same]
        exact id
      rw [Passage.after_popped calm split]
      refine ⟨?_, ?_, makes.of_same (by rw [same]) ?_ fun filed => ?_⟩
      · rw [capacity]
        rw [split, List.length_append] at room
        omega
      · rw [List.flatten_append, List.length_append]
        exact took
      · rw [List.append_assoc, ← split]
      · obtain ⟨count, writer⟩ := stands.stored filed
        rw [writer] at runs
        cases runs
  | cleared =>
      refine ⟨room, ?_, .beside (fun hands => hands) (Nat.le_refl _)
        (makes.of_same rfl rfl fun _ => rfl)⟩
      dsimp only
      rw [Passage.taken_after]
      · exact took
      · exact Nat.le_refl _

end

end Upload

end Strongroom
