import Mathlib.Logic.Relation
import Mathlib.Data.List.Sort
import Strongroom.Proofs.Catalog.Maps
import Strongroom.Proofs.Transfer.Solo

/-! # What a user sees of the service

To one user the service is a key, the own files with their blobs, the uploads
that are under way and the downloads that are open. This is enough to answer
all that the user asks for, and to answer it in one way.
-/

namespace Strongroom

/-- What a user asks for. -/
inductive Wish where
  | start (fileName : String)
  | write (id : FileId) (data : Bytes)
  | commit (id : FileId)
  /-- A whole stream is uploaded. -/
  | upload (fileName : String) (items : List Inbound)
  | download (id : FileId)
  /-- The next piece of a download is read. -/
  | next (index : Nat)
  | delete (id : FileId)
  | list
  /-- Time goes by. -/
  | wait (clock : Nat)

/-- What the user gets. Of a download that is opened the record is shown. -/
inductive Reply where
  | started (result : Except Halt FileId)
  | called (result : Except Error (Option FileRecord))
  | opened (result : Except Halt FileRecord)
  | piece (result : Except Error (Option Bytes))
  | deleted (result : Except Error Unit)
  | listed (files : List FileRecord)
  | waited

/-- What a client is told where a call gives no value, if the service is still
    there to tell. -/
def Halt.forClient : Halt → Option ClientError
  | .failed e => some e.forClient
  | .panicked => none

/-- Replies with the same values, and with errors that a client is told alike. Lists
    may differ in the order of files of one age and name. -/
inductive Reply.Alike : Reply → Reply → Prop where
  | started {result result' : Except Halt FileId} :
    result.mapError Halt.forClient = result'.mapError Halt.forClient →
      Alike (.started result) (.started result')
  | called {result result' : Except Error (Option FileRecord)} :
    result.mapError Error.forClient = result'.mapError Error.forClient →
      Alike (.called result) (.called result')
  | opened {result result' : Except Halt FileRecord} :
    result.mapError Halt.forClient = result'.mapError Halt.forClient →
      Alike (.opened result) (.opened result')
  | piece {result result' : Except Error (Option Bytes)} :
    result.mapError Error.forClient = result'.mapError Error.forClient →
      Alike (.piece result) (.piece result')
  | deleted {result result' : Except Error Unit} :
    result.mapError Error.forClient = result'.mapError Error.forClient →
      Alike (.deleted result) (.deleted result')
  | listed {files files' : List FileRecord} :
    files.Perm files' →
      files.map (fun file => (file.createdAt, file.fileName)) =
        files'.map (fun file => (file.createdAt, file.fileName)) →
      Alike (.listed files) (.listed files')
  | waited : Alike .waited .waited

/-- The service as one user sees it. Of `service` only the key of the user, the
    configuration, the clock and what is drawn count. -/
structure Outlook where
  service : Service
  /-- The files of the user. -/
  file? : FileId → Option FileRecord := fun _ => none
  /-- Names of blobs that the user has had a record of. -/
  Known : String → Prop := fun _ => False
  blob? : String → Option Bytes := fun _ => none
  /-- The uploads of the user, as if each were alone. -/
  upload? : FileId → Option Upload := fun _ => none
  downloads : List Download := []

/-- Two listings of the same files give their ages and names in the same order. -/
theorem Maps.IsListing.order {maps : Maps} {owner : UserId} {list list' : List FileRecord}
    (first : maps.IsListing owner list) (second : maps.IsListing owner list') :
    list.map (fun file => (file.createdAt, file.fileName)) =
      list'.map (fun file => (file.createdAt, file.fileName)) := by
  have sorted {files : List FileRecord} (listing : maps.IsListing owner files) :
      (files.map fun file => (file.createdAt, file.fileName)).Pairwise fun a b =>
        a.1 < b.1 ∨ a.1 = b.1 ∧ a.2 ≤ b.2 :=
    List.pairwise_map.2 listing.sorted
  refine ((first.perm second).map _).eq_of_pairwise ?_ (sorted first) (sorted second)
  rintro ⟨age, name⟩ ⟨age', name'⟩ _ _ (older | ⟨same, before⟩) (younger | ⟨_, after⟩)
  · exact absurd older (Nat.lt_asymm younger)
  · simp only at older
    omega
  · simp only at younger same
    omega
  · exact Prod.ext same (String.le_antisymm before after)

namespace Outlook

def put (outlook : Outlook) (id : FileId) (service : Service) (upload : Upload) : Outlook :=
  { outlook with service, upload? := Function.update outlook.upload? id (some upload) }

def file (outlook : Outlook) (record : FileRecord) (data : Bytes) : Outlook :=
  { outlook with
    file? := Function.update outlook.file? record.id (some record)
    Known := fun name => name = record.blobName ∨ outlook.Known name
    blob? := Function.update outlook.blob? record.blobName (some data) }

def drop (outlook : Outlook) (record : FileRecord) : Outlook :=
  { outlook with
    file? := Function.update outlook.file? record.id none
    blob? := Function.update outlook.blob? record.blobName none }

def advance (outlook : Outlook) (id : FileId) : Option Outlook := do
  let upload ← outlook.upload? id
  let (service, next) ← upload.soloStep outlook.service
  let filed := match upload.call with
    | .joinForSize size =>
      let data := upload.queue.flatten
      outlook.file (upload.recordOf outlook.service size data.length) data
    | _ => outlook
  return filed.put id service next

/-- A call on an upload begins, goes on, and is answered. -/
def Calls (outlook : Outlook) (id : FileId) (begin : Service → Upload → Service × Upload)
    (result : Except Error (Option FileRecord)) (outlook' : Outlook) : Prop :=
  ∃ upload last, outlook.upload? id = some upload ∧ upload.phase ≠ .done ∧
    Relation.ReflTransGen (fun first second => first.advance id = some second)
        (outlook.put id (begin outlook.service upload).1 (begin outlook.service upload).2)
        outlook' ∧
      outlook'.upload? id = some last ∧ last.call = .answered result

def start (outlook : Outlook) (user : UserId) (fileName : String) :
    Except Halt FileId × Outlook :=
  match Upload.start outlook.service user fileName with
  | (.error halt, service) => (.error halt, { outlook with service })
  | (.ok upload, service) => (.ok upload.fileId, outlook.put upload.fileId service upload)

def openFile (outlook : Outlook) (record : FileRecord) : Except Halt Download :=
  match outlook.service.keyOf record.owner with
  | .error e => .error (.failed e)
  | .ok key =>
    match outlook.blob? record.blobName with
    | none =>
      .error (.failed (.storage s!"blob {record.blobName} missing for file {record.id}"))
    | some _ =>
      if maxBuffer < outlook.service.config.readBufferSize then .error .panicked
      else .ok (.ofSource record key outlook.service.config [])

/-- A download reads its blob when its first piece is asked for. -/
def load (outlook : Outlook) (download : Download) : Download :=
  if download.opened then download
  else
    let piece := match outlook.blob? download.record.blobName with
      | some data => .data data
      | none => .fault s!"{BlobStore.faultName .notFound} (permanent) at read"
    { download with
      opened := true
      decoder := { download.decoder with
        reader := { download.decoder.reader with inner := [piece] } } }

/-- What a user may get, and what the user sees then. No more than the first `limit`
    identifiers are drawn. -/
inductive Gives (user : UserId) (limit : Nat) (outlook : Outlook) :
    Wish → Reply → Outlook → Prop where
  | start {fileName : String} {result : Except Halt FileId} {outlook' : Outlook} :
    outlook.start user fileName = (result, outlook') → outlook'.service.ids.used ≤ limit →
      Gives user limit outlook (.start fileName) (.started result) outlook'
  | write {id : FileId} {data : Bytes} {result : Except Error (Option FileRecord)}
      {outlook' : Outlook} :
    outlook.Calls id (fun service upload => upload.write service data) result outlook' →
      Gives user limit outlook (.write id data) (.called result) outlook'
  | commit {id : FileId} {result : Except Error (Option FileRecord)} {outlook' : Outlook} :
    outlook.Calls id (fun service upload => upload.commit service) result outlook' →
      Gives user limit outlook (.commit id) (.called result) outlook'
  | notUploaded {fileName : String} {items : List Inbound} {halt : Halt} {outlook' : Outlook} :
    outlook.start user fileName = (.error halt, outlook') → outlook'.service.ids.used ≤ limit →
      Gives user limit outlook (.upload fileName items) (.started (.error halt)) outlook'
  | upload {fileName : String} {items : List Inbound} {id : FileId}
      {result : Except Error (Option FileRecord)} {started outlook' : Outlook} :
    outlook.start user fileName = (.ok id, started) → started.service.ids.used ≤ limit →
      started.Calls id (fun service upload => (service, upload.fedFrom items)) result outlook' →
        Gives user limit outlook (.upload fileName items) (.called result) outlook'
  | download {id : FileId} {record : FileRecord} :
    outlook.file? id = some record →
      Gives user limit outlook (.download id)
        (.opened ((outlook.openFile record).map Download.record))
        { outlook with downloads := outlook.downloads ++ (outlook.openFile record).toOption.toList }
  | notFound {id : FileId} {e : Error} :
    outlook.file? id = none → e.forClient = .notFound →
      Gives user limit outlook (.download id) (.opened (.error (.failed e))) outlook
  | next {index : Nat} {download later : Download} {result : Except Error (Option Bytes)} :
    outlook.downloads[index]? = some download →
      (outlook.load download).advance = (result, later) →
        Gives user limit outlook (.next index) (.piece result)
          { outlook with downloads := outlook.downloads.set index later }
  | delete {id : FileId} {record : FileRecord} :
    outlook.file? id = some record →
      Gives user limit outlook (.delete id) (.deleted (.ok ())) (outlook.drop record)
  | notDeleted {id : FileId} {e : Error} :
    outlook.file? id = none → e.forClient = .notFound →
      Gives user limit outlook (.delete id) (.deleted (.error e)) outlook
  | list {files : List FileRecord} :
    { file? := outlook.file? : Maps }.IsListing user files →
      Gives user limit outlook .list (.listed files) outlook
  | wait {clock : Nat} :
    Gives user limit outlook (.wait clock) .waited
      { outlook with service := { outlook.service with clock } }

variable {outlook first second : Outlook} {id : FileId} {user : UserId} {limit : Nat}
  {wish : Wish} {reply reply' : Reply}

/-- Two courses that both came to their end came to the same. -/
theorem eq_of_ends {α : Type} {next : α → Option α} {start last last' : α}
    (course : Relation.ReflTransGen (fun a b => next a = some b) start last)
    (course' : Relation.ReflTransGen (fun a b => next a = some b) start last')
    (ends : next last = none) (ends' : next last' = none) : last = last' := by
  induction course using Relation.ReflTransGen.head_induction_on with
  | refl =>
      rcases Relation.ReflTransGen.cases_head course' with same | ⟨_, step, _⟩
      · exact same
      · rw [ends] at step
        cases step
  | head step _ ih =>
      rcases Relation.ReflTransGen.cases_head course' with rfl | ⟨_, step', rest⟩
      · rw [ends'] at step
        cases step
      · cases step.symm.trans step'
        exact ih rest

theorem advance_cases (advances : first.advance id = some second) :
    ∃ alone next, first.upload? id = some alone ∧ (alone.soloStep first.service).isSome ∧
      second.upload? = Function.update first.upload? id (some next) ∧
        second.downloads = first.downloads := by
  obtain ⟨alone, here, rest⟩ := Option.bind_eq_some_iff.1 advances
  obtain ⟨⟨service, next⟩, step, same⟩ := Option.bind_eq_some_iff.1 rest
  refine ⟨alone, next, here, by rw [step]; rfl, ?_⟩
  cases same
  dsimp only [put]
  split
  · exact ⟨rfl, rfl⟩
  · exact ⟨rfl, rfl⟩

theorem seen_of_update {next : Upload} {other : FileId}
    (updates : second.upload? = Function.update first.upload? id (some next))
    (seen : (second.upload? other).isSome) : (first.upload? other).isSome ∨ other = id := by
  by_cases own : other = id
  · exact .inr own
  · rw [updates, Function.update_of_ne own] at seen
    exact .inl seen

theorem advance_of_answered {upload : Upload} {result : Except Error (Option FileRecord)}
    (here : outlook.upload? id = some upload) (answered : upload.call = .answered result) :
    outlook.advance id = none := by
  simp [advance, here, Upload.soloStep, answered]

theorem advance_of_moves {alone next : Upload} {service : Service}
    (here : outlook.upload? id = some alone) (joins : ∀ size, alone.call ≠ .joinForSize size)
    (step : alone.soloStep outlook.service = some (service, next)) :
    outlook.advance id = some (outlook.put id service next) := by
  simp only [advance, here, step, Option.bind_eq_bind, Option.bind_some]
  rfl

theorem advance_of_files {alone : Upload} {size : Nat} (here : outlook.upload? id = some alone)
    (call : alone.call = .joinForSize size) :
    outlook.advance id =
      let data := alone.queue.flatten
      let record := alone.recordOf outlook.service size data.length
      some ((outlook.file record data).put id outlook.service
        ({ alone with phase := .done }.answer (.ok (some record)))) := by
  simp only [advance, here, Upload.soloStep, call, Option.bind_eq_bind, Option.bind_some]
  rfl

theorem put_self {alone : Upload} (here : outlook.upload? id = some alone) :
    outlook.put id outlook.service alone = outlook := by
  rw [put, Function.update_eq_self_iff.2 here.symm]

theorem Calls.eq {begin : Service → Upload → Service × Upload}
    {result result' : Except Error (Option FileRecord)}
    (calls : outlook.Calls id begin result first) (calls' : outlook.Calls id begin result' second) :
    result = result' ∧ first = second := by
  obtain ⟨upload, last, here, _, course, present, answered⟩ := calls
  obtain ⟨upload', last', here', _, course', present', answered'⟩ := calls'
  cases here.symm.trans here'
  obtain rfl := eq_of_ends course course' (advance_of_answered present answered)
    (advance_of_answered present' answered')
  cases present.symm.trans present'
  cases answered.symm.trans answered'
  exact ⟨rfl, rfl⟩

/-- What a user sees tells the reply, and what the user sees then. -/
theorem Gives.alike (gives : outlook.Gives user limit wish reply first)
    (gives' : outlook.Gives user limit wish reply' second) :
    reply.Alike reply' ∧ first = second := by
  cases gives with
  | start started =>
      cases gives' with
      | start started' =>
          cases started.symm.trans started'
          exact ⟨.started rfl, rfl⟩
  | write calls =>
      cases gives' with
      | write calls' =>
          obtain ⟨rfl, rfl⟩ := calls.eq calls'
          exact ⟨.called rfl, rfl⟩
  | commit calls =>
      cases gives' with
      | commit calls' =>
          obtain ⟨rfl, rfl⟩ := calls.eq calls'
          exact ⟨.called rfl, rfl⟩
  | notUploaded started =>
      cases gives' with
      | notUploaded started' =>
          cases started.symm.trans started'
          exact ⟨.started rfl, rfl⟩
      | upload started' => cases started.symm.trans started'
  | upload started _ calls =>
      cases gives' with
      | notUploaded started' => cases started.symm.trans started'
      | upload started' _ calls' =>
          cases started.symm.trans started'
          obtain ⟨rfl, rfl⟩ := calls.eq calls'
          exact ⟨.called rfl, rfl⟩
  | download there =>
      cases gives' with
      | download there' =>
          cases there.symm.trans there'
          exact ⟨.opened rfl, rfl⟩
      | notFound absent => cases there.symm.trans absent
  | notFound absent told =>
      cases gives' with
      | download there => cases there.symm.trans absent
      | notFound _ told' =>
          refine ⟨.opened ?_, rfl⟩
          simp only [Except.mapError, Halt.forClient, told, told']
  | next there reads =>
      cases gives' with
      | next there' reads' =>
          cases there.symm.trans there'
          cases reads.symm.trans reads'
          exact ⟨.piece rfl, rfl⟩
  | delete there =>
      cases gives' with
      | delete there' =>
          cases there.symm.trans there'
          exact ⟨.deleted rfl, rfl⟩
      | notDeleted absent => cases there.symm.trans absent
  | notDeleted absent told =>
      cases gives' with
      | delete there => cases there.symm.trans absent
      | notDeleted _ told' =>
          refine ⟨.deleted ?_, rfl⟩
          simp only [Except.mapError, told, told']
  | list listing =>
      cases gives' with
      | list listing' => exact ⟨.listed (listing.perm listing') (listing.order listing'), rfl⟩
  | wait =>
      cases gives'
      exact ⟨.waited, rfl⟩

end Outlook

end Strongroom
