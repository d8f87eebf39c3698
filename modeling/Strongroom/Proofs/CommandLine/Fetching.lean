import Strongroom.Proofs.Blob.Objects
import Strongroom.Proofs.Cipher.Sealing
import Strongroom.Proofs.CommandLine.Confinement
import Strongroom.Proofs.Disk.Failing
import Strongroom.Proofs.Transfer.Release

/-! # What a fetch leaves on the disk

The plaintext of a file is written into a hidden file and moved to its place last.
If it cannot be had or written the hidden file is removed. If it cannot be moved the
hidden file stays, with all of the plaintext.
-/

namespace Strongroom

namespace FileTree

variable {tree : FileTree} {path : Path} {place : Location} {pieces : List Bytes}

theorem at?_eq_none (leads : tree.locate path = .ok place) (nothing : tree.find? place = none) :
    tree.at? path = none := by
  refine Option.eq_none_iff_forall_ne_some.2 fun found shows => ?_
  obtain ⟨leads', stands, _⟩ := at?_eq_some.1 shows
  rw [leads] at leads'
  cases leads'
  rw [nothing] at stands
  cases stands

theorem removeFile_of_at? (shows : tree.at? path = some (place, .file pieces)) :
    tree.removeFile path = .ok (tree.erase place) := by
  rw [removeFile, resolve_of_at? shows]
  rfl

theorem at?_of_read {data : Bytes} {tree' : FileTree}
    (performed : tree.perform (.read path) = (.ok data, tree')) :
    ∃ place pieces, tree.at? path = some (place, .file pieces) ∧
      (FileNode.file pieces).content = data := by
  have replied := congrArg Prod.fst performed
  unfold at?
  cases resolved : tree.resolve path with
  | error fault =>
      simp only [perform, resolved] at replied
      cases replied
  | ok found =>
      obtain ⟨place, node⟩ := found
      simp only [perform, resolved] at replied
      cases node with
      | folder => cases replied
      | file pieces => exact ⟨place, pieces, rfl, Except.ok.inj replied⟩

end FileTree

theorem BlobStore.object?_of_read {store : BlobStore} {name : String} {tree tree' : FileTree}
    {found : Except String Bytes}
    (runs : Script.Runs FileTree.faltering tree (store.read name) found tree') :
    tree' = tree ∧ ∀ data, found = .ok data →
      store.object? tree (storedName name) = some data := by
  unfold BlobStore.read at runs
  dsimp only at runs
  generalize storedName name = key at runs ⊢
  cases store with
  | memory objects =>
      dsimp only at runs
      cases held : objects.lookup key with
      | none =>
          rw [held] at runs
          obtain ⟨rfl, rfl⟩ := Script.runs_pure.1 runs
          exact ⟨rfl, fun data never => by cases never⟩
      | some data =>
          rw [held] at runs
          obtain ⟨rfl, rfl⟩ := Script.runs_pure.1 runs
          exact ⟨rfl, fun data same => Except.ok.inj same ▸ held⟩
  | folder root =>
      obtain ⟨reply, tree₁, replied, rest⟩ := Script.runs_ask_bind.1 runs
      obtain rfl : tree₁ = tree := FileTree.eq_of_no_targets rfl replied
      cases reply with
      | error fault =>
          obtain ⟨rfl, rfl⟩ := Script.runs_pure.1 rest
          exact ⟨rfl, fun data never => by cases never⟩
      | ok read =>
          obtain ⟨rfl, rfl⟩ := Script.runs_pure.1 rest
          refine ⟨rfl, fun data same => ?_⟩
          obtain rfl := Except.ok.inj same
          rcases replied with performed | falters
          · obtain ⟨place, pieces, shows, content⟩ := FileTree.at?_of_read performed
            rw [object?, shows]
            exact congrArg some content
          · cases falters

theorem BlobStore.object?_of_truncate {store : BlobStore} {key : String} {path : Path}
    {tree made : FileTree} {data : Bytes} (emptied : tree.truncate path = .ok made)
    (held : store.object? made key = some data) :
    store.object? tree key = some data ∨ data = [] := by
  cases store with
  | memory objects => exact .inl held
  | folder root =>
      obtain ⟨place, leads, file, none, rfl⟩ := FileTree.truncate_ok emptied
      unfold object? at held ⊢
      dsimp only at held ⊢
      generalize filePath root key = own at held ⊢
      by_cases here : tree.locate own = .ok place ∧ ¬ own.meansFolder
      · rw [FileTree.at?_insert_self here.1 none here.2] at held
        exact .inr (Option.some.inj held).symm
      · have aside : tree.locate own = .ok place → own.meansFolder := fun leads =>
          not_not.1 fun named => here ⟨leads, named⟩
        rw [FileTree.at?_insert_file none aside] at held
        exact .inl held

theorem Stream.not_whole_nil (key : DataKey) (payload : Bytes) : ¬ Whole key [] payload := by
  intro whole
  rw [Whole, parse, if_pos (by decide), dif_pos List.length_nil] at whole
  exact shortage_ne_ok none .missingFinal (congrArg Reading.ending whole)

namespace Download

variable {record : FileRecord} {key : DataKey} {config : TransferConfig} {source : Stream.Source}
  {service : Service} {now after : FileTree} {loaded : Download}

/-- A download that has begun serves what its blob carries, and there is enough fuel for it. -/
theorem streams_begun (record : FileRecord) (key : DataKey) (source : Stream.Source)
    (asks : 0 < config.downloadChunkSize) :
    let reading := Stream.parse key (Stream.Supply.content source) (Stream.Supply.fault? source)
    let download := begun record key config source
    ∃ pieces last, download.piecesFor download.bound [] =
        (pieces, download.verdict reading, last) ∧
      pieces.flatten = reading.plaintext ∧ pieces.length < download.bound := by
  intro reading download
  have owes : download.Owes reading := owes_begun asks
  obtain ⟨pieces, course, flat, fits⟩ := owes.course
  have many := length_le_flatten fun piece member => (fits piece member).1
  have bound : reading.plaintext.length < download.bound := bound_begun source
  rw [← flat] at bound
  have enough := Nat.lt_of_le_of_lt many bound
  exact ⟨pieces, _, course.streams _ [] enough, flat, enough⟩

/-- If the pieces of a download end cleanly they are the payload of a whole blob. -/
theorem whole_of_pieces {pieces : List Bytes} {last : Download}
    (streamed : (begun record key config source).piecesFor (begun record key config source).bound
      [] = (pieces, .ok (), last)) :
    Stream.Supply.fault? source = none ∧
      Stream.Whole key (Stream.Supply.content source) pieces.flatten ∧
        pieces.flatten.length = record.fileSize := by
  by_cases asks : 0 < config.downloadChunkSize
  · obtain ⟨served, last', all, flat, _⟩ := streams_begun record key source asks
    rw [streamed, Prod.mk.injEq, Prod.mk.injEq] at all
    obtain ⟨rfl, clean, _⟩ := all
    obtain ⟨unbroken, payload, whole, size⟩ := verdict_begun_eq_ok.1 clean.symm
    rw [unbroken, whole] at flat
    rw [flat]
    exact ⟨unbroken, whole, size⟩
  · have none : config.downloadChunkSize = 0 := Nat.eq_zero_of_not_pos asks
    have refused : (begun record key config source).advance =
        (.error (.invalidInput "read length must be at least 1"),
          begun record key config source) := by
      simp [begun, ofSource, advance, none, Stream.Decoder.read_zero, Stream.refusal]
    rw [bound, piecesFor, refused] at streamed
    cases streamed

theorem piecesFor_append (fuel : Nat) (download : Download) (done : List Bytes) :
    ∃ more, (download.piecesFor fuel done).1 = done.reverse ++ more := by
  induction fuel generalizing download done with
  | zero => exact ⟨[], (List.append_nil _).symm⟩
  | succ fuel ih =>
      rw [piecesFor]
      rcases download.advance with ⟨e | (_ | piece), next⟩
      · exact ⟨[], (List.append_nil _).symm⟩
      · exact ⟨[], (List.append_nil _).symm⟩
      · obtain ⟨more, served⟩ := ih next (piece :: done)
        refine ⟨piece :: more, ?_⟩
        rw [List.reverse_cons, List.append_assoc] at served
        exact served

theorem load_begun (runs : Script.Runs FileTree.faltering now
    ((begun record key config source).load service) loaded after) :
    after = now ∧ ∃ found, found = source ∧ loaded = begun record key config found := by
  obtain ⟨rfl, rfl⟩ := Script.runs_pure.1 runs
  exact ⟨rfl, source, rfl, rfl⟩

/-- A source that does not break is the object that a store holds for a record. -/
def Reads (store : BlobStore) (record : FileRecord) (now : FileTree) (source : Stream.Source) :
    Prop :=
  Stream.Supply.fault? source = none →
    store.object? now (BlobStore.storedName record.blobName) =
      some (Stream.Supply.content source)

theorem load_ofSource (runs : Script.Runs FileTree.faltering now
    ((ofSource record key config []).load service) loaded after) :
    after = now ∧ ∃ source, Reads service.blobs record now source ∧
      loaded = begun record key config source := by
  obtain ⟨found, tree₁, read, rest⟩ := Script.runs_bind.1 runs
  obtain ⟨rfl, held⟩ := BlobStore.object?_of_read read
  cases found with
  | error text =>
      obtain ⟨rfl, rfl⟩ := Script.runs_pure.1 rest
      exact ⟨rfl, [.fault text], fun never => (by cases never), rfl⟩
  | ok data =>
      obtain ⟨rfl, rfl⟩ := Script.runs_pure.1 rest
      refine ⟨rfl, [.data data], fun _ => ?_, rfl⟩
      exact (held data rfl).trans (congrArg some (List.append_nil data).symm)

end Download

namespace Command

open FileTree (SameBut faltering)

variable {before tree tree' : FileTree} {out : Path} {place : Location} {written : Bytes}

/-- The disk while a file is fetched: the hidden file holds what was written, and all
    else is as it was before. -/
structure Receiving (before : FileTree) (out : Path) (place : Location) (written : Bytes)
    (tree : FileTree) : Prop where
  leads : before.locate (partPath out) = .ok place
  file : ¬ (partPath out).meansFolder
  free : before.find? place ≠ some .folder
  same : SameBut (· = place) before tree
  holds : ∃ pieces, tree.find? place = some (.file pieces) ∧
    (FileNode.file pieces).content = written

namespace Receiving

theorem created (emptied : before.truncate (partPath out) = .ok tree) :
    ∃ place, Receiving before out place [] tree := by
  obtain ⟨place, leads, file, none, rfl⟩ := FileTree.truncate_ok emptied
  refine ⟨place, leads, file, none, .insert rfl, [], ?_, rfl⟩
  rw [FileTree.find?_insert _ _ (FileTree.proper_of_find? none), if_pos rfl]

section

variable (receiving : Receiving before out place written tree)

include receiving

theorem free' : tree.find? place ≠ some .folder := by
  obtain ⟨pieces, stands, _⟩ := receiving.holds
  rw [stands]
  exact fun never => by cases never

theorem leads' : tree.locate (partPath out) = .ok place :=
  (receiving.same.locate_iff receiving.free receiving.free' place).1 receiving.leads

theorem shows : ∃ pieces, tree.at? (partPath out) = some (place, .file pieces) ∧
    (FileNode.file pieces).content = written := by
  obtain ⟨pieces, stands, content⟩ := receiving.holds
  have file := receiving.file
  exact ⟨pieces, FileTree.at?_eq_some.2 ⟨receiving.leads', stands, fun means => absurd means file⟩,
    content⟩

theorem aside : before.locate out ≠ .ok place :=
  FileTree.locate_withFileName_ne (component_hiddenName out) (fileName?_ne_hiddenName out)
    receiving.leads

theorem target : tree.at? out = before.at? out :=
  receiving.same.at?_eq receiving.free receiving.free' receiving.aside

theorem append (data : Bytes) :
    Receiving before out place (written ++ data) (tree.append (partPath out) data) := by
  obtain ⟨pieces, shows, content⟩ := receiving.shows
  rw [FileTree.append_of_at? shows]
  refine ⟨receiving.leads, receiving.file, receiving.free, receiving.same.trans (.insert rfl),
    data :: pieces, ?_, ?_⟩
  · rw [FileTree.find?_insert _ _ (FileTree.proper_of_find? receiving.free'), if_pos rfl]
  · rw [← content]
    simp [FileNode.content]

theorem appends (pieces : List Bytes) :
    Receiving before out place (written ++ pieces.flatten)
      (tree.appends (partPath out) pieces) := by
  induction pieces generalizing tree written with
  | nil =>
      rw [List.flatten_nil, List.append_nil]
      exact receiving
  | cons piece pieces ih =>
      rw [List.flatten_cons, ← List.append_assoc, FileTree.appends_cons]
      exact ih (receiving.append piece)

theorem still : Receiving before out place (written ++ ([] : List Bytes).flatten) tree := by
  rw [List.flatten_nil, List.append_nil]
  exact receiving

theorem remove {reply : Except DiskFault Unit}
    (removed : tree.perform (.removeFile (partPath out)) = (reply, tree')) :
    SameBut (· = place) before tree' ∧ tree'.at? (partPath out) = none ∧
      tree'.at? out = before.at? out := by
  obtain ⟨pieces, shows, _⟩ := receiving.shows
  have removed : tree.settle (tree.removeFile (partPath out)) = (reply, tree') := removed
  rw [FileTree.removeFile_of_at? shows] at removed
  cases removed
  have same : SameBut (· = place) before (tree.erase place) := receiving.same.trans (.erase rfl)
  have gone : (tree.erase place).find? place = none := by
    rw [FileTree.find?_erase _ (FileTree.proper_of_find? receiving.free'), if_pos rfl]
  have none' : (tree.erase place).find? place ≠ some .folder := by
    rw [gone]
    exact fun never => by cases never
  exact ⟨same, FileTree.at?_eq_none ((same.locate_iff receiving.free none' place).1 receiving.leads)
    gone, same.at?_eq receiving.free none' receiving.aside⟩

theorem rename (moved : tree.rename (partPath out) out = .ok tree') :
    tree'.at? (partPath out) = none ∧ ∃ goal pieces, before.locate out = .ok goal ∧
      SameBut (fun other => other = place ∨ other = goal) before tree' ∧
        tree'.at? out = some (goal, .file pieces) ∧ (FileNode.file pieces).content = written := by
  obtain ⟨pieces, shows, content⟩ := receiving.shows
  obtain ⟨goal', shows'⟩ := FileTree.at?_rename moved shows
  obtain ⟨start, pieces', goal, source, leads, free, file, outcome⟩ := FileTree.rename_ok moved
  rw [shows] at source
  cases source
  have leadsBefore : before.locate out = .ok goal :=
    (receiving.same.locate_iff receiving.free receiving.free' goal).2 leads
  have apart : goal ≠ place := by
    rintro rfl
    exact receiving.aside leadsBefore
  rcases outcome with ⟨rfl, _⟩ | rfl
  · exact absurd rfl apart
  · have proper := FileTree.proper_of_find? receiving.free'
    have freeErased : (tree.erase place).find? goal ≠ some .folder :=
      mt (FileTree.folders_erase receiving.free' goal).1 free
    have insertion := FileTree.find?_insert (tree.erase place) (.file pieces)
      (FileTree.proper_of_find? freeErased)
    have leads'' : ∀ {path : Path} {found}, tree.locate path = .ok found →
        ((tree.erase place).insert goal (.file pieces)).locate path = .ok found := by
      intro path found located
      refine (FileTree.locate_congr (by rfl) (fun other => ?_) found).1 located
      rw [FileTree.folders_insert_file freeErased, FileTree.folders_erase receiving.free']
    have gone : ((tree.erase place).insert goal (.file pieces)).find? place = none := by
      rw [insertion, if_neg apart.symm, FileTree.find?_erase _ proper, if_pos rfl]
    have stands : ((tree.erase place).insert goal (.file pieces)).find? goal =
        some (.file pieces) := by
      rw [insertion, if_pos rfl]
    have first : SameBut (fun other => other = place ∨ other = goal) before tree :=
      receiving.same.mono fun _ here => .inl here
    exact ⟨FileTree.at?_eq_none (leads'' receiving.leads') gone, goal, pieces, leadsBefore,
      first.trans ((SameBut.erase (.inl rfl)).trans (.insert (.inr rfl))),
      FileTree.at?_eq_some.2 ⟨leads'' leads, stands, fun means => absurd means file⟩, content⟩

/-- Whatever fails, a fetch goes on at the end of the hidden file; it is done when the
    download has ended cleanly, and then all its pieces are written. -/
theorem fetch {fuel : Nat} {download : Download} {result : Except Failure Unit}
    (runs : Script.Runs faltering tree (Command.fetch (partPath out) fuel download) result tree') :
    ∃ pieces, Receiving before out place (written ++ pieces.flatten) tree' ∧
      (result = .ok () → ∀ done, ∃ last,
        download.piecesFor fuel done = (done.reverse ++ pieces, .ok (), last)) := by
  induction fuel generalizing download tree written with
  | zero =>
      obtain ⟨rfl, rfl⟩ := Script.runs_pure.1 runs
      exact ⟨[], receiving.still, fun never => by cases never⟩
  | succ fuel ih =>
      unfold Command.fetch at runs
      cases advanced : download.advance with
      | mk result next =>
      rw [advanced] at runs
      rcases result with e | (_ | piece)
      · obtain ⟨rfl, rfl⟩ := Script.runs_pure.1 runs
        exact ⟨[], receiving.still, fun never => by cases never⟩
      · obtain ⟨reply, tree₁, replied, rest⟩ := Script.runs_ask_bind.1 runs
        obtain rfl : tree₁ = tree := FileTree.eq_of_no_targets rfl replied
        cases reply with
        | error fault =>
            obtain ⟨rfl, rfl⟩ := Script.runs_pure.1 rest
            exact ⟨[], receiving.still, fun never => by cases never⟩
        | ok =>
            obtain ⟨rfl, rfl⟩ := Script.runs_pure.1 rest
            refine ⟨[], receiving.still, fun _ done => ⟨next, ?_⟩⟩
            rw [Download.piecesFor, advanced, List.append_nil]
      · obtain ⟨reply, tree₁, replied, rest⟩ := Script.runs_ask_bind.1 runs
        cases reply with
        | error fault =>
            obtain ⟨rfl, rfl⟩ := Script.runs_pure.1 rest
            rcases replied with performed | falters
            · cases performed
            · cases falters with
              | append part lost =>
                  refine ⟨[part], ?_, fun never => by cases never⟩
                  rw [List.flatten_singleton]
                  exact receiving.append part
        | ok =>
            obtain rfl : tree₁ = tree.append (partPath out) piece := by
              rcases replied with performed | falters
              · rw [FileTree.perform, Prod.mk.injEq] at performed
                exact performed.2.symm
              · cases falters
            obtain ⟨pieces, kept, streams⟩ := ih (receiving.append piece) rest
            refine ⟨piece :: pieces, ?_, fun done' done => ?_⟩
            · rw [List.flatten_cons, ← List.append_assoc]
              exact kept
            · obtain ⟨last, streamed⟩ := streams done' (piece :: done)
              refine ⟨last, ?_⟩
              rw [Download.piecesFor, advanced]
              simpa using streamed

end

end Receiving

variable {record : FileRecord} {key : DataKey} {config : TransferConfig} {service : Service}
  {outcome : Outcome}

/-- How a fetch of a file may end, and what of the plaintext is left then, if that is
    one of some payloads. -/
inductive Leaves (before : FileTree) (out : Path) (record : FileRecord) (payload : Bytes → Prop) :
    Outcome → FileTree → Prop where
  /-- Nothing was made. -/
  | untouched {fault : DiskFault} :
    Leaves before out record payload
      (.failed (faultWhile s!"creating {(partPath out).text}" fault)) before
  /-- The hidden file was made, and is gone. -/
  | removed {failure : Failure} {tree : FileTree} :
    tree.at? (partPath out) = none → tree.at? out = before.at? out →
      Leaves before out record payload (.failed (failure.within s!"downloading {record.id}")) tree
  /-- The hidden file could not be moved. It is still there, with all of a payload. -/
  | stranded {fault : DiskFault} {tree : FileTree} {place : Location} {pieces : List Bytes} :
    payload (FileNode.file pieces).content →
      tree.at? (partPath out) = some (place, .file pieces) → tree.at? out = before.at? out →
        Leaves before out record payload
          (.failed (faultWhile s!"moving download into {out.text}" fault)) tree
  /-- All of a payload is where it was wanted. -/
  | moved {tree : FileTree} {place : Location} {pieces : List Bytes} :
    payload (FileNode.file pieces).content → tree.at? (partPath out) = none →
      tree.at? out = some (place, .file pieces) →
        Leaves before out record payload
          (.printed s!"  wrote:   {out.text} ({Size.text record.fileSize})\n") tree

/-- Where the hidden file is, and where it is moved to. -/
def Concerns (tree : FileTree) (out : Path) (place : Location) : Prop :=
  tree.locate (partPath out) = .ok place ∨ tree.locate out = .ok place

theorem Leaves.mono {payload payload' : Bytes → Prop}
    (leaves : Leaves before out record payload outcome tree)
    (weaker : ∀ whole, payload whole → payload' whole) :
    Leaves before out record payload' outcome tree := by
  cases leaves with
  | untouched => exact .untouched
  | removed gone same => exact .removed gone same
  | stranded whole shows same => exact .stranded (weaker _ whole) shows same
  | moved whole gone shows => exact .moved (weaker _ whole) gone shows

/-- What a blob of the recorded length carries if it is whole. -/
structure IsPayload (record : FileRecord) (key : DataKey) (source : Stream.Source)
    (payload : Bytes) : Prop where
  unbroken : Stream.Supply.fault? source = none
  whole : Stream.Whole key (Stream.Supply.content source) payload
  size : payload.length = record.fileSize

theorem leaves_receive {download : Download} (reads : FileTree → Stream.Source → Prop)
    (loads : ∀ {now loaded after},
      Script.Runs faltering now (download.load service) loaded after →
        after = now ∧ ∃ source, reads now source ∧
          loaded = Download.begun record key config source)
    (runs : Script.Runs faltering before (receive service download out) outcome tree) :
    SameBut (Concerns before out) before tree ∧
      Leaves before out record (fun payload => ∃ made source,
        before.truncate (partPath out) = .ok made ∧ reads made source ∧
          IsPayload record key source payload) outcome tree := by
  unfold receive at runs
  obtain ⟨reply, made, replied, rest⟩ := Script.runs_ask_bind.1 runs
  have truncated : (∃ fault, reply = .error fault ∧ made = before) ∨
      reply = .ok () ∧ before.truncate (partPath out) = .ok made := by
    rcases replied with performed | falters
    · exact FileTree.settle_cases performed
    · cases falters with
      | truncate => exact .inl ⟨_, rfl, rfl⟩
  rcases truncated with ⟨fault, rfl, rfl⟩ | ⟨rfl, emptied⟩
  · obtain ⟨rfl, rfl⟩ := Script.runs_pure.1 rest
    exact ⟨.refl _ _, .untouched⟩
  obtain ⟨place, receiving⟩ := Receiving.created emptied
  have inside {tree : FileTree} (same : SameBut (· = place) before tree) :
      SameBut (Concerns before out) before tree :=
    same.mono fun other here => .inl (here ▸ receiving.leads)
  obtain ⟨loaded, tree₁, loading, rest⟩ := Script.runs_bind.1 rest
  obtain ⟨rfl, source, found, rfl⟩ := loads loading
  obtain ⟨result, tree₂, fetching, rest⟩ := Script.runs_bind.1 rest
  obtain ⟨pieces, written, streams⟩ := receiving.fetch fetching
  rcases result with failure | ⟨⟩
  · obtain ⟨reply, tree₃, replied, rest⟩ := Script.runs_ask_bind.1 rest
    obtain ⟨rfl, rfl⟩ := Script.runs_pure.1 rest
    have removed : tree₂.perform (.removeFile (partPath out)) = (reply, tree) := by
      rcases replied with performed | falters
      · exact performed
      · cases falters
    obtain ⟨same, gone, target⟩ := written.remove removed
    exact ⟨inside same, .removed gone target⟩
  · obtain ⟨last, streamed⟩ := streams rfl []
    obtain ⟨unbroken, whole, size⟩ := Download.whole_of_pieces streamed
    rw [List.reverse_nil, List.nil_append] at whole size
    rw [List.nil_append] at written
    obtain ⟨reply, tree₃, replied, final⟩ := Script.runs_ask_bind.1 rest
    have renamed : (∃ fault, reply = .error fault ∧ tree₃ = tree₂) ∨
        reply = .ok () ∧ tree₂.rename (partPath out) out = .ok tree₃ := by
      rcases replied with performed | falters
      · exact FileTree.settle_cases performed
      · cases falters with
        | rename => exact .inl ⟨_, rfl, rfl⟩
    rcases renamed with ⟨fault, rfl, rfl⟩ | ⟨rfl, moved⟩
    · obtain ⟨rfl, rfl⟩ := Script.runs_pure.1 final
      obtain ⟨kept, shows, content⟩ := written.shows
      rw [← content] at whole size
      exact ⟨inside written.same,
        .stranded ⟨_, source, emptied, found, ⟨unbroken, whole, size⟩⟩ shows written.target⟩
    · obtain ⟨rfl, rfl⟩ := Script.runs_pure.1 final
      obtain ⟨gone, goal, kept, leads, same, shows, content⟩ := written.rename moved
      rw [← content] at whole size
      refine ⟨same.mono fun other here => ?_,
        .moved ⟨_, source, emptied, found, ⟨unbroken, whole, size⟩⟩ gone shows⟩
      rcases here with rfl | rfl
      · exact .inl receiving.leads
      · exact .inr leads

/-- On a disk that does not fail all that a download serves is written. -/
theorem runs_fetch {target : Path} {fuel : Nat} {download last : Download}
    (done : List Bytes) {pieces : List Bytes}
    (streamed : download.piecesFor fuel done = (done.reverse ++ pieces, .ok (), last))
    (enough : pieces.length < fuel) :
    Script.Runs FileTree.disk tree (fetch target fuel download) (.ok ())
      (tree.appends target pieces) := by
  induction fuel generalizing download done pieces tree with
  | zero => cases enough
  | succ fuel ih =>
      rw [Download.piecesFor] at streamed
      unfold fetch
      cases advanced : download.advance with
      | mk result next =>
      rw [advanced] at streamed
      rcases result with e | (_ | piece)
      · cases congrArg (·.2.1) streamed
      · have nothing := congrArg Prod.fst streamed
        obtain rfl : pieces = [] := List.append_right_eq_self.1 nothing.symm
        exact .step rfl .done
      · obtain ⟨more, served⟩ := Download.piecesFor_append fuel next (piece :: done)
        dsimp only at streamed
        rw [streamed, List.reverse_cons, List.append_assoc] at served
        obtain rfl : pieces = piece :: more := List.append_cancel_left served
        refine .step rfl (ih (piece :: done) ?_ (Nat.lt_of_succ_lt_succ enough))
        rw [streamed, List.reverse_cons, List.append_assoc]
        rfl

theorem rename_into_folder {source target : Path} {start goal : Location} {pieces : List Bytes}
    (shows : tree.at? source = some (start, .file pieces))
    (folder : tree.at? target = some (goal, .folder)) :
    tree.rename source target = .error .isFolder := by
  obtain ⟨leads, stands, _⟩ := FileTree.at?_eq_some.1 folder
  have resolved := FileTree.resolve_of_at? shows
  simp [FileTree.rename, resolved, leads, stands, Bind.bind, Except.bind]

/-- A whole blob that is fetched to where a folder stands stays in the hidden file. -/
theorem stranded_in_folder {source : Stream.Source} {payload : Bytes} {made : FileTree}
    {goal : Location} (asks : 0 < config.downloadChunkSize)
    (unbroken : Stream.Supply.fault? source = none)
    (whole : Stream.Whole key (Stream.Supply.content source) payload)
    (size : payload.length = record.fileSize)
    (emptied : before.truncate (partPath out) = .ok made)
    (folder : before.at? out = some (goal, .folder)) :
    ∃ tree place pieces,
      Script.Runs FileTree.disk before
          (receive service (Download.begun record key config source) out)
          (.failed (faultWhile s!"moving download into {out.text}" .isFolder)) tree ∧
        tree.at? (partPath out) = some (place, .file pieces) ∧
          (FileNode.file pieces).content = payload := by
  obtain ⟨place, receiving⟩ := Receiving.created emptied
  obtain ⟨served, last, streamed, flat, enough⟩ := Download.streams_begun record key source asks
  have clean : (Download.begun record key config source).verdict _ = .ok () :=
    Download.verdict_begun_eq_ok.2 ⟨unbroken, payload, whole, size⟩
  rw [clean] at streamed
  rw [unbroken, whole] at flat
  have written := receiving.appends served
  rw [List.nil_append, flat] at written
  obtain ⟨pieces, shows, content⟩ := written.shows
  have refused := rename_into_folder shows (written.target.trans folder)
  refine ⟨_, place, pieces, ?_, shows, content⟩
  have truncated : before.perform (.truncate (partPath out)) = (.ok (), made) := by
    rw [FileTree.perform, emptied]
    rfl
  have kept : (made.appends (partPath out) served).perform (.rename (partPath out) out) =
      (.error .isFolder, made.appends (partPath out) served) := by
    rw [FileTree.perform, refused]
    rfl
  unfold receive
  refine Script.runs_ask_bind.2 ⟨_, _, truncated, ?_⟩
  refine Script.runs_bind.2 ⟨_, _, Script.runs_pure.2 ⟨rfl, rfl⟩, ?_⟩
  refine Script.runs_bind.2 ⟨_, _, runs_fetch [] streamed enough, ?_⟩
  exact Script.runs_ask_bind.2 ⟨_, _, kept, Script.runs_pure.2 ⟨rfl, rfl⟩⟩

/-- A store holds a payload for a record: the object is a whole blob of the length that
    the record says. -/
def Held (store : BlobStore) (tree : FileTree) (record : FileRecord) (key : DataKey)
    (payload : Bytes) : Prop :=
  ∃ data, store.object? tree (BlobStore.storedName record.blobName) = some data ∧
    Stream.Whole key data payload ∧ payload.length = record.fileSize

/-- To get a file leaves the disk as it was, or a download has started and is fetched. -/
theorem leaves_runGet {user : UserId} {file : FileId} {goal : Option Path}
    (runs : Script.Runs faltering before (runGet service user file goal) outcome tree) :
    (tree = before ∧ ∀ text, outcome ≠ .printed text) ∨
      ∃ record key out, Download.StartOf service file user record key ∧
        target? record goal = some out ∧ SameBut (Concerns before out) before tree ∧
          Leaves before out record (Held service.blobs before record key) outcome tree := by
  obtain ⟨⟨result, after⟩, tree₁, starting, rest⟩ := Script.runs_bind.1 runs
  have gives := starting.returns (Download.returns_start service file user)
  obtain rfl : tree₁ = before := by
    have step (now : FileTree) (s : Step) (reply : s.Reply) (next : FileTree)
        (targets : ∀ path ∈ s.targets, path ∈ []) (replied : faltering.replies now s reply next)
        (same : now = before) : next = before := by
      have nothing : s.targets = [] :=
        List.eq_nil_iff_forall_not_mem.2 fun path member => by cases targets path member
      exact (FileTree.eq_of_no_targets nothing replied).trans same
    exact starting.keeps (within_start [] service file user) step rfl
  cases result with
  | error halt =>
      obtain ⟨rfl, rfl⟩ := Script.runs_pure.1 rest
      refine .inl ⟨rfl, fun text => ?_⟩
      cases halt with
      | failed | panicked => exact fun never => by cases never
  | ok download =>
      obtain ⟨record, key, start, rfl, rfl⟩ := gives download rfl
      cases leads : target? record goal with
      | none =>
          have nowhere : target? (Download.ofSource record key service.config []).record goal =
              none := leads
          simp only [nowhere] at rest
          obtain ⟨rfl, rfl⟩ := Script.runs_pure.1 rest
          exact .inl ⟨rfl, fun text never => by cases never⟩
      | some out =>
          have leads' : target? (Download.ofSource record key service.config []).record goal =
              some out := leads
          simp only [leads'] at rest
          obtain ⟨same, leaves⟩ := leaves_receive (Download.Reads service.blobs record)
            Download.load_ofSource rest
          refine .inr ⟨record, key, out, start, leads, same, leaves.mono ?_⟩
          rintro payload ⟨made, source, emptied, held, ⟨unbroken, whole, size⟩⟩
          rcases BlobStore.object?_of_truncate emptied (held unbroken) with stored | nothing
          · exact ⟨_, stored, whole, size⟩
          · rw [nothing] at whole
            exact absurd whole (Stream.not_whole_nil key payload)

/-- A fetch on a disk where reading, writing, syncing and moving may fail, of a blob that
    comes in pieces of any kind and may break. If it is refused nothing has changed, and
    if the plaintext cannot be had or written the hidden file is gone and the rest is as
    it was. If it succeeds the payload of a whole blob is at the target and the hidden
    file is gone. But where the move fails, all of the payload stays in the hidden file,
    and so it is for every whole blob whose target is a folder. -/
theorem plaintext_stays_where_move_fails (service : Service) (before : FileTree) :
    (∀ (user : UserId) (file : FileId) (goal : Option Path) (tree : FileTree) (outcome : Outcome),
      Script.Runs faltering before (runGet service user file goal) outcome tree →
        (tree = before ∧ ∀ text, outcome ≠ .printed text) ∨
          ∃ record key out, Download.StartOf service file user record key ∧
            target? record goal = some out ∧ SameBut (Concerns before out) before tree ∧
              Leaves before out record (Held service.blobs before record key) outcome tree) ∧
      ∀ (record : FileRecord) (key : DataKey) (config : TransferConfig) (source : Stream.Source)
          (out : Path),
        let script := receive service (Download.begun record key config source) out
        (∀ outcome tree, Script.Runs faltering before script outcome tree →
          SameBut (Concerns before out) before tree ∧
            Leaves before out record (IsPayload record key source) outcome tree) ∧
          ∀ payload made goal, 0 < config.downloadChunkSize →
            IsPayload record key source payload → before.truncate (partPath out) = .ok made →
              before.at? out = some (goal, .folder) → ∃ tree place pieces,
                Script.Runs FileTree.disk before script
                    (.failed (faultWhile s!"moving download into {out.text}" .isFolder)) tree ∧
                  tree.at? (partPath out) = some (place, .file pieces) ∧
                    (FileNode.file pieces).content = payload := by
  refine ⟨fun _ _ _ _ _ => leaves_runGet, ?_⟩
  intro record key config source out script
  refine ⟨fun outcome tree runs => ?_, ?_⟩
  · obtain ⟨same, leaves⟩ := leaves_receive (fun _ found => found = source)
      Download.load_begun runs
    refine ⟨same, leaves.mono ?_⟩
    rintro payload ⟨_, _, _, rfl, isPayload⟩
    exact isPayload
  · rintro payload made goal asks ⟨unbroken, whole, size⟩ emptied folder
    exact stranded_in_folder asks unbroken whole size emptied folder

/-- Three bytes that are fetched to where a folder stands: the command fails, and they
    stay beside it. -/
theorem three_bytes_stay_beside_folder :
    let key : DataKey := ⟨List.replicate 32 0, rfl⟩
    let master : MasterKey := ⟨List.replicate 32 0, rfl⟩
    let record : FileRecord := { (default : FileRecord) with fileSize := 3 }
    let user : UserRecord := ⟨record.owner, "", key.wrapWith master (List.replicate 12 0)⟩
    let blob := Stream.record true (Block.encryptWith key (List.replicate 12 0) [1, 2, 3])
    let service : Service :=
      ⟨.memory [(BlobStore.storedName record.blobName, blob)], .memory ⟨[user], [record]⟩, master,
        {}, ⟨fun _ => 0, 0⟩, ⟨fun _ => default, 0⟩, 0, {}, []⟩
    let before : FileTree := { entries := [(["out"], .folder)] }
    ∃ tree place pieces,
      Script.Runs faltering before (runGet service record.owner record.id (some ⟨"out"⟩))
          (.failed (faultWhile "moving download into out" .isFolder)) tree ∧
        SameBut (Concerns before ⟨"out"⟩) before tree ∧
          tree.at? ⟨".out.part"⟩ = some (place, .file pieces) ∧
            (FileNode.file pieces).content = [1, 2, 3] := by
  intro key master record user blob service before
  have beside : partPath ⟨"out"⟩ = ⟨".out.part"⟩ := by decide
  have owned : service.ownedRecord record.id record.owner = .ok record := by
    simp [Service.ownedRecord, Catalog.file?, Catalog.entries, Entries.file?, service]
  have known : service.keyOf record.owner = .ok key := by
    have wrapped : service.catalog.wrappedKey? record.owner = some user.wrappedKey := by
      simp [Catalog.wrappedKey?, Catalog.entries, Entries.wrappedKey?, Entries.user?, service, user]
    rw [Service.keyOf, Vault.resolve, wrapped]
    exact DataKey.unwrap_wrapWith List.length_replicate
  let source : Stream.Source := [.data blob]
  have whole : Stream.Whole key (Stream.Supply.content source) [1, 2, 3] := by
    have alone : Stream.Whole key blob [1, 2, 3] :=
      Stream.whole_sealed key (by decide) List.length_replicate
    rwa [← List.append_nil blob] at alone
  have held (name : String) : [(name, blob)].lookup name = some blob := List.lookup_cons_self
  obtain ⟨tree, place, pieces, fetches, shows, content⟩ :=
    ((plaintext_stays_where_move_fails (service.note .get record.blobName) before).2 record key {}
      source ⟨"out"⟩).2 [1, 2, 3] _ ["out"] (by decide) ⟨rfl, whole, rfl⟩
        (by rw [beside]; rfl) rfl
  rw [beside] at shows
  have starts : Download.start service record.id record.owner =
      pure (.ok (Download.ofSource record key {} []), service.note .get record.blobName) := by
    have found : service.blobs.find record.blobName = pure (.ok ()) := by
      unfold BlobStore.find
      dsimp only [service]
      rw [held]
      rfl
    rw [Download.start, owned]
    simp only [known]
    change service.blobs.find record.blobName >>= _ = _
    rw [found]
    rfl
  have loads : (Download.ofSource record key {} []).load (service.note .get record.blobName) =
      pure (Download.begun record key {} source) := by
    have read : (service.note .get record.blobName).blobs.read record.blobName =
        pure (.ok blob) := by
      unfold BlobStore.read
      dsimp only [service, Service.note]
      rw [held]
    change BlobStore.read _ record.blobName >>= _ = _
    rw [read]
    rfl
  have leads : target? (Download.ofSource record key {} []).record (some ⟨"out"⟩) =
      some ⟨"out"⟩ := rfl
  have goesOn : (Download.begun record key {} source).load (service.note .get record.blobName) =
      pure (Download.begun record key {} source) := rfl
  have runs := FileTree.runs_faltering fetches
  simp only [receive, goesOn, pure_bind] at runs
  have gets : Script.Runs faltering before (runGet service record.owner record.id (some ⟨"out"⟩))
      (.failed (faultWhile "moving download into out" .isFolder)) tree := by
    rw [runGet, starts]
    simp only [pure_bind, leads, receive, loads]
    exact runs
  rcases (plaintext_stays_where_move_fails service before).1 _ _ _ _ _ gets with
    ⟨rfl, _⟩ | ⟨_, _, out, _, leads', same, _⟩
  · cases shows
  · cases leads'
    exact ⟨tree, place, pieces, gets, same, shows, content⟩

end Command

end Strongroom
