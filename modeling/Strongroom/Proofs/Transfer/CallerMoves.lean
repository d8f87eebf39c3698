import Strongroom.Proofs.Transfer.Acts

/-! # Moves of the caller

What the calls on an upload and the steps of the caller's task come down to. A
move is one of the things that can be seen from outside: a record is handed
over, the upload stops, the record of the file is staged, and so on.
-/

namespace Strongroom

variable {δ : Type}

open Upload in
/-- What acts other than steps in the background change. -/
inductive CallerMoves (disk : Disk δ) (s : Spot δ) : Act → Spot δ → Prop where
  | stop {act : Act} {next : Upload} {reason : Error} {random : Entropy} :
    s.upload.Stops act next reason →
      CallerMoves disk s act
        { s with service := { s.service with random }, upload := next.abort reason }
  /-- A call on an upload that is over. -/
  | deny {act : Act} {asked : Option Bytes} {entered : Upload} :
    s.upload.Enters act asked entered →
      entered.phase ≠ .receiving → entered.phase ≠ .writing →
        CallerMoves disk s act
          { s with upload := entered.answer (.error (closedError entered.phase)) }
  | fed {items : List Inbound} :
    s.upload.MayCall →
      CallerMoves disk s (.feed items)
        { s with upload := { s.upload with call := .idle, inbound := some items } }
  | opened {act : Act} {data : Bytes} {entered : Upload} {encoder next : Stream.Encoder}
      {records : List Bytes} {random : Entropy} :
    s.upload.Enters act (some data) entered →
      entered.phase = .receiving → entered.cancelled = false →
        entered.encoder = some encoder →
          encoder.write data s.service.random = (.ok records, next, random) →
            CallerMoves disk s act
              { s with
                service := { s.service with random }
                upload := { entered with
                  phase := .writing, encoder := some next, call := .handOff records } }
  | sealed {act : Act} {entered : Upload} {encoder : Stream.Encoder} {record : Bytes}
      {random : Entropy} :
    s.upload.Enters act none entered →
      entered.phase = .receiving → entered.cancelled = false →
        entered.encoder = some encoder →
          encoder.finish s.service.random = (.ok record, random) →
            CallerMoves disk s act
              { s with
                service := { s.service with random }
                upload := { entered with
                  phase := .committing, encoder := none
                  call := .handOffFinal record encoder.received } }
  | wrote :
    s.upload.call = .handOff [] →
      CallerMoves disk s .caller
        { s with upload := { s.upload with
          phase := .receiving
          call := if s.upload.inbound.isSome then .idle else .answered (.ok none) } }
  | handed {record : Bytes} {rest : List Bytes} :
    s.upload.call = .handOff (record :: rest) →
      s.upload.sending = true → s.upload.cancelled = false → s.upload.writer.isOver = false →
        s.upload.queue.length < s.upload.capacity →
          CallerMoves disk s .caller
            { s with upload := { s.upload with
              queue := s.upload.queue ++ [record], call := .handOff rest } }
  | handedFinal {record : Bytes} {size : Nat} :
    s.upload.call = .handOffFinal record size →
      s.upload.sending = true → s.upload.cancelled = false → s.upload.writer.isOver = false →
        s.upload.queue.length < s.upload.capacity →
          CallerMoves disk s .caller
            { s with upload := { s.upload with
              queue := s.upload.queue ++ [record], sending := false, held := false
              call := .joinForSize size } }
  /-- The writer has closed the queue. -/
  | hungUp :
    (∃ record rest, s.upload.call = .handOff (record :: rest)) ∨
        (∃ record size, s.upload.call = .handOffFinal record size) →
      s.upload.sending = true → s.upload.cancelled = false → s.upload.writer.isOver = true →
        CallerMoves disk s .caller
          { s with upload := { s.upload with
            sending := false, held := false, call := .joinForCause s.upload.held } }
  | refused {size blobSize : Nat} {e : Error} :
    s.upload.call = .joinForSize size → s.upload.writer.result? = some (.ok blobSize) →
      s.service.conduct.insert = some e ∨
          s.service.catalog.stageFile (filedRecord s.service s.upload size blobSize) = .error e →
        CallerMoves disk s .caller
          { s with
            service := s.service.note .insert (toString s.upload.fileId)
            upload := { s.upload with call := .withdraw e } }
  | staged {size blobSize : Nat} {catalog : Catalog} :
    s.upload.call = .joinForSize size → s.upload.writer.result? = some (.ok blobSize) →
      s.service.conduct.insert = none →
        s.service.catalog.stageFile (filedRecord s.service s.upload size blobSize) = .ok catalog →
          CallerMoves disk s .caller
            { s with
              service := { s.service.note .insert (toString s.upload.fileId) with catalog }
              upload := { s.upload with
                call := .flushing (s.upload.recordOf s.service size blobSize) catalog.flush } }
  | flushed {record : FileRecord} {step : Step} {next : step.Reply → Script (Except Error Unit)}
      {reply : step.Reply} {d : δ} :
    s.upload.call = .flushing record (.step step next) → disk.replies s.disk step reply d →
      CallerMoves disk s .caller
        { s with upload := { s.upload with call := .flushing record (next reply) }, disk := d }
  | filed {record : FileRecord} :
    s.upload.call = .flushing record (.done (.ok ())) →
      CallerMoves disk s .caller
        { s with upload := { s.upload with
          phase := .done, call := .answered (.ok (some record)) } }
  | unstaged {record : FileRecord} {e : Error} :
    s.upload.call = .flushing record (.done (.error e)) →
      CallerMoves disk s .caller
        { s with
          service := { s.service with catalog := s.service.catalog.unstageFile record.id }
          upload := { s.upload with call := .withdraw e } }
  | removed {e : Error} {result : Except Error Unit} {service : Service} {d : δ} :
    s.upload.Clears e →
      Script.Runs disk s.disk (s.service.removeBlob s.upload.blobName) (result, service) d →
        CallerMoves disk s .caller
          ⟨service, { s.upload with phase := .failed, call := .answered (.error e) }, d⟩
  | gaveUp : CallerMoves disk s .giveUp { s with upload := s.upload.giveUp }
  | dropped {inside : Bool} :
    CallerMoves disk s (.drop inside) { s with upload := s.upload.drop inside }
  | cancelled : CallerMoves disk s .cancel { s with upload := { s.upload with cancelled := true } }

section

open Upload

variable {disk : Disk δ} {service service' : Service} {upload entered next : Upload} {act : Act}
  {asked : Option Bytes} {d : δ}

theorem moves_of_refuse (enters : upload.Enters act asked entered)
    (refused : entered.refuse? = some next) :
    CallerMoves disk ⟨service, upload, d⟩ act ⟨service, next, d⟩ := by
  unfold refuse? at refused
  split at refused
  · rename_i phase
    split at refused
    · rename_i fired
      cases refused
      exact .stop (.fired enters (.inl phase) fired)
    · cases refused
  · rename_i phase
    cases refused
    by_cases fired : entered.cancelled = true
    · rw [if_pos fired]
      exact .stop (.fired enters (.inr phase) fired)
    · rw [if_neg fired]
      exact .stop (.interrupted enters phase (Bool.not_eq_true _ ▸ fired))
  · rename_i notReceiving notWriting
    cases refused
    exact .deny enters notReceiving notWriting

theorem allows_of_refuse (allowed : entered.refuse? = none) :
    entered.phase = .receiving ∧ entered.cancelled = false := by
  unfold refuse? at allowed
  split at allowed
  · rename_i phase
    split at allowed
    · cases allowed
    · rename_i quiet
      exact ⟨phase, by simpa using quiet⟩
  · cases allowed
  · cases allowed

theorem moves_of_write {data : Bytes} (enters : upload.Enters act (some data) entered)
    (result : entered.write service data = (service', next)) :
    CallerMoves disk ⟨service, upload, d⟩ act ⟨service', next, d⟩ := by
  unfold write at result
  split at result
  · rename_i refused
    cases result
    exact moves_of_refuse enters refused
  · rename_i allowed
    obtain ⟨phase, quiet⟩ := allows_of_refuse allowed
    simp only at result
    split at result
    · cases result
      exact .stop (.unsealed enters phase quiet)
    · rename_i encoder present
      split at result
      · cases result
        exact .stop (.unsealed enters phase quiet)
      · rename_i wrote
        cases result
        exact .opened enters phase quiet present wrote

theorem moves_of_commit (enters : upload.Enters act none entered)
    (result : entered.commit service = (service', next)) :
    CallerMoves disk ⟨service, upload, d⟩ act ⟨service', next, d⟩ := by
  unfold commit at result
  split at result
  · rename_i refused
    cases result
    exact moves_of_refuse enters refused
  · rename_i allowed
    obtain ⟨phase, quiet⟩ := allows_of_refuse allowed
    split at result
    · cases result
      exact .stop (.unsealed enters phase quiet)
    · rename_i encoder present
      simp only at result
      split at result
      · cases result
        exact .stop (.unsealed enters phase quiet)
      · rename_i finished
        cases result
        exact .sealed enters phase quiet present finished

theorem moves_of_feed {items : List Inbound} (idle : upload.call = .idle)
    (inbound : upload.inbound = some items)
    (result : feed service upload items = (service', next)) :
    CallerMoves disk ⟨service, upload, d⟩ .caller ⟨service', next, d⟩ := by
  unfold feed at result
  split at result
  · rename_i fired
    cases result
    exact .stop (.unfed idle inbound fired)
  · rename_i quiet
    have quiet : upload.cancelled = false := by simpa using quiet
    cases items with
    | nil => exact moves_of_commit (.finish idle inbound quiet) result
    | cons item rest =>
        obtain ⟨content, fires⟩ := item
        cases content with
        | ok data => exact moves_of_write (.item idle inbound quiet) result
        | error text =>
            cases result
            exact .stop (.broken idle inbound quiet)

/-- Records wait to be handed over, `record` first. -/
def Sends (upload : Upload) (record : Bytes) : Prop :=
  (∃ rest, upload.call = .handOff (record :: rest)) ∨
    ∃ size, upload.call = .handOffFinal record size

theorem moves_of_handOver {record : Bytes} {change : Upload → Upload}
    (sends : Sends upload record) (result : upload.handOver record change = some next)
    (handed : upload.sending = true → upload.cancelled = false → upload.writer.isOver = false →
      upload.queue.length < upload.capacity →
        CallerMoves disk ⟨service, upload, d⟩ .caller
          ⟨service, change { upload with queue := upload.queue ++ [record] }, d⟩) :
    CallerMoves disk ⟨service, upload, d⟩ .caller ⟨service, next, d⟩ := by
  have waits : (∃ records, upload.call = .handOff records) ∨
      (∃ record size, upload.call = .handOffFinal record size) := by
    rcases sends with ⟨rest, call⟩ | ⟨size, call⟩
    · exact .inl ⟨_, call⟩
    · exact .inr ⟨_, size, call⟩
  unfold handOver at result
  split at result
  · rename_i closed
    cases result
    exact .stop (.unsent waits (by simpa using closed))
  · rename_i opened
    split at result
    · rename_i fired
      cases result
      exact .stop (.overtaken waits fired)
    · rename_i quiet
      have opened : upload.sending = true := by simpa using opened
      have quiet : upload.cancelled = false := by simpa using quiet
      split at result
      · rename_i spent
        cases result
        refine .hungUp ?_ opened quiet spent
        rcases sends with ⟨rest, call⟩ | ⟨size, call⟩
        · exact .inl ⟨record, rest, call⟩
        · exact .inr ⟨record, size, call⟩
      · rename_i running
        split at result
        · rename_i room
          cases result
          exact handed opened quiet (by simpa using running) room
        · cases result

theorem moves_of_insertRecord {size blobSize : Nat} (joins : upload.call = .joinForSize size)
    (stored : upload.writer.result? = some (.ok blobSize))
    (result : insertRecord service upload (upload.recordOf service size blobSize) =
      (service', next)) :
    CallerMoves disk ⟨service, upload, d⟩ .caller ⟨service', next, d⟩ := by
  unfold insertRecord at result
  simp only [Service.note] at result
  split at result
  · rename_i refuses
    cases result
    exact .refused joins stored (.inl refuses)
  · rename_i accepts
    split at result
    · rename_i refuses
      cases result
      exact .refused joins stored (.inr refuses)
    · rename_i staged
      cases result
      exact .staged joins stored accepts staged

theorem moves_of_removal {e : Error} {d' : δ} (clears : upload.Clears e)
    (runs : Script.Runs disk d (do
      let (_, service) ← service.removeBlob upload.blobName
      return (service, { upload with phase := .failed }.answer (.error e))) (service', next) d') :
    CallerMoves disk ⟨service, upload, d⟩ .caller ⟨service', next, d'⟩ := by
  obtain ⟨⟨result, cleared⟩, d₁, removed, rest⟩ := Script.runs_bind.1 runs
  obtain ⟨⟨⟩, rfl⟩ := Script.runs_pure.1 rest
  exact .removed clears removed

/-- Every step of the caller's task is a move. -/
theorem moves_of_callerStep {script : Script (Service × Upload)} {d' : δ}
    (offered : upload.callerStep service = some script)
    (runs : Script.Runs disk d script (service', next) d') :
    CallerMoves disk ⟨service, upload, d⟩ .caller ⟨service', next, d'⟩ := by
  unfold callerStep at offered
  split at offered
  case h_1 idle =>
    obtain ⟨items, inbound, rfl⟩ := Option.map_eq_some_iff.1 offered
    obtain ⟨fed, rfl⟩ := Script.runs_pure.1 runs
    exact moves_of_feed idle inbound fed.symm
  case h_2 call =>
    cases offered
    obtain ⟨⟨⟩, rfl⟩ := Script.runs_pure.1 runs
    have moves : CallerMoves disk ⟨service, upload, d'⟩ .caller ⟨service, { upload with
        phase := .receiving
        call := if upload.inbound.isSome then .idle else .answered (.ok none) }, d'⟩ := .wrote call
    split
    · rename_i fed
      rw [if_pos fed] at moves
      exact moves
    · rename_i direct
      rw [if_neg direct] at moves
      exact moves
  case h_3 record rest call =>
    obtain ⟨handed, given, rfl⟩ := Option.map_eq_some_iff.1 offered
    obtain ⟨⟨⟩, rfl⟩ := Script.runs_pure.1 runs
    exact moves_of_handOver (.inl ⟨rest, call⟩) given fun opened quiet running room =>
      .handed call opened quiet running room
  case h_4 record size call =>
    obtain ⟨handed, given, rfl⟩ := Option.map_eq_some_iff.1 offered
    obtain ⟨⟨⟩, rfl⟩ := Script.runs_pure.1 runs
    exact moves_of_handOver (.inr ⟨size, call⟩) given fun opened quiet running room =>
      .handedFinal call opened quiet running room
  case h_5 size call =>
    split at offered
    · cases offered
    · rename_i failed
      cases offered
      obtain ⟨⟨⟩, rfl⟩ := Script.runs_pure.1 runs
      exact .stop (.failed call failed)
    · rename_i blobSize stored
      cases offered
      obtain ⟨result, rfl⟩ := Script.runs_pure.1 runs
      exact moves_of_insertRecord call stored result.symm
  case h_6 record call =>
    cases offered
    obtain ⟨⟨⟩, rfl⟩ := Script.runs_pure.1 runs
    exact .filed call
  case h_7 record e call =>
    cases offered
    obtain ⟨⟨⟩, rfl⟩ := Script.runs_pure.1 runs
    exact .unstaged call
  case h_8 record step more call =>
    cases offered
    obtain ⟨reply, d₁, replied, rest⟩ := Script.runs_step.1 runs
    obtain ⟨⟨⟩, rfl⟩ := Script.runs_pure.1 rest
    exact .flushed call replied
  case h_9 e call =>
    cases offered
    exact moves_of_removal (.inl call) runs
  case h_10 held call =>
    split at offered
    · cases offered
    · rename_i e joined
      cases offered
      obtain ⟨⟨⟩, rfl⟩ := Script.runs_pure.1 runs
      exact .stop (.learned call joined)
    · rename_i size joined
      cases offered
      obtain ⟨⟨⟩, rfl⟩ := Script.runs_pure.1 runs
      exact .stop (.learned call joined)
  case h_11 held reason call =>
    split at offered
    · cases offered
    · rename_i free
      cases offered
      refine moves_of_removal (.inr ⟨held, call, ?_⟩) runs
      rintro rfl
      simpa using free
  case h_12 => cases offered

end

end Strongroom
