import Strongroom.Proofs.Stream.Serving
import Strongroom.Proofs.Transfer.Custody

/-! # What a download delivers

A download of a whole stream, of the length that the record says, serves its
plaintext to the end, in pieces that fit. So whoever owns a file that is kept
gets what was written to it. The one thing in the way is a read buffer that no
machine can have.
-/

namespace Strongroom

variable {δ : Type}

namespace Download

/-- A download that has some plaintext left to serve, and then ends cleanly. -/
structure IsDue (download : Download) (rest : Bytes) : Prop where
  left : download.decoder.remaining = ⟨rest, .ok ()⟩
  unfinished : download.finished = false
  asks : 0 < download.chunkSize
  count : download.served + rest.length = download.record.fileSize

theorem IsDue.advance {download : Download} {rest : Bytes} (due : download.IsDue rest) :
    (rest = [] ∧ ∃ last, download.advance = (.ok none, last)) ∨
      ∃ piece more next, rest = piece ++ more ∧ piece ≠ [] ∧ piece.length ≤ download.chunkSize ∧
        download.advance = (.ok (some piece), next) ∧ next.chunkSize = download.chunkSize ∧
          next.IsDue more := by
  obtain ⟨left, unfinished, asks, count⟩ := due
  have sound : ¬ download.decoder.hasFailed := by
    rintro ⟨e, failed⟩
    simp [Stream.Decoder.remaining, failed] at left
  have step := Stream.Decoder.step_serve download.decoder download.chunkSize asks sound
  rw [← Stream.Decoder.read_of_pos _ asks] at step
  unfold Download.advance
  generalize download.decoder.read download.chunkSize = outcome at step
  cases step with
  | @piece piece next nonempty fits split =>
      rw [left] at split
      refine .inr ⟨piece, next.remaining.plaintext,
        { download with decoder := next, served := download.served + piece.length },
        congrArg Stream.Reading.plaintext split, nonempty, fits, by simp [unfinished], rfl, ?_,
        unfinished, asks, ?_⟩
      · have ending : next.remaining.ending = .ok () :=
          (congrArg Stream.Reading.ending split).symm
        exact congrArg (Stream.Reading.mk next.remaining.plaintext) ending
      · have length := congrArg (fun reading => reading.plaintext.length) split
        simp only [Stream.Reading.plaintext_after, List.length_append] at length
        dsimp only
        omega
  | finished nothing =>
      rw [left] at nothing
      have rest : rest = [] := congrArg Stream.Reading.plaintext nothing
      subst rest
      have count : download.served = download.record.fileSize := count
      exact .inl ⟨rfl, by simp [unfinished, count]⟩
  | failed failed =>
      rw [left] at failed
      cases congrArg Stream.Reading.ending failed

/-- All that is due is served, in pieces that fit. -/
theorem IsDue.piecesFor {download : Download} {rest : Bytes} {fuel : Nat}
    (due : download.IsDue rest) (enough : rest.length < fuel) (done : List Bytes) :
    ∃ pieces last, download.piecesFor fuel done = (done.reverse ++ pieces, .ok (), last) ∧
      pieces.flatten = rest ∧
        ∀ piece ∈ pieces, piece ≠ [] ∧ piece.length ≤ download.chunkSize := by
  induction fuel generalizing download rest done with
  | zero => omega
  | succ fuel ih =>
      rcases due.advance with
        ⟨rfl, last, ends⟩ | ⟨piece, more, next, rfl, nonempty, fits, serves, size, due⟩
      · refine ⟨[], last, ?_, rfl, by simp⟩
        rw [Download.piecesFor, ends]
        simp
      · have shorter : more.length < fuel := by
          have := List.length_pos_iff.2 nonempty
          rw [List.length_append] at enough
          omega
        obtain ⟨pieces, last, served, flat, all⟩ := ih due shorter (piece :: done)
        rw [size] at all
        refine ⟨piece :: pieces, last, ?_, ?_, ?_⟩
        · rw [Download.piecesFor, serves]
          simp [served]
        · rw [List.flatten_cons, flat]
        · exact List.forall_mem_cons.2 ⟨⟨nonempty, fits⟩, all⟩

/-- What a download of some data serves when it has read them, if that is a whole
    stream of the length that the record says. -/
theorem isDue_ofSource {record : FileRecord} {key : DataKey} {data payload : Bytes}
    (config : TransferConfig) (whole : Stream.Whole key data payload)
    (size : payload.length = record.fileSize) (asks : 0 < config.downloadChunkSize) :
    { ofSource record key config [.data data] with opened := true }.IsDue payload := by
  refine ⟨?_, rfl, asks, by simpa [ofSource] using size⟩
  have content : Stream.Supply.content
      (⟨config.readBufferSize, [], [.data data]⟩ : Stream.Buffered Stream.Source) = data :=
    List.append_nil data
  rw [ofSource, Stream.Decoder.remaining_create, content]
  exact whole

end Download

section

variable {disk : Disk δ} {root path : Option Path} {shelf : ConformingShelf disk root path}
  {limit : Nat} {scene : Scene δ} {file : FileRecord}

theorem Books.ownedRecord (books : Books limit scene)
    (there : file ∈ scene.service.catalog.entries.files) :
    scene.service.ownedRecord file.id file.owner = .ok file := by
  have found : scene.service.catalog.file? file.id = some file := by
    cases looked : scene.service.catalog.file? file.id with
    | none =>
        rw [Catalog.file?, Entries.file?, List.find?_eq_none] at looked
        exact absurd (decide_eq_true rfl) (looked file there)
    | some other =>
        obtain ⟨member, same⟩ := Entries.mem_of_file? looked
        rw [books.single other member file there (.inl same)]
  rw [Service.ownedRecord, found]
  simp

/-- A download of a file that is there starts, unless no machine can have its
    buffer. -/
theorem ConformingShelf.runs_start (shelf : ConformingShelf disk root path)
    {service after : Service}
    {key : DataKey} {data : Bytes} {result : Except Halt Download} {d d' : δ}
    (rooted : service.blobs.root? = root) (named : IsBlobName file.blobName)
    (owned : service.ownedRecord file.id file.owner = .ok file)
    (known : service.keyOf file.owner = .ok key)
    (there : shelf.object service.blobs d file.blobName = some data)
    (runs : Script.Runs disk d (Download.start service file.id file.owner) (result, after) d') :
    result =
      if maxBuffer < service.config.readBufferSize then .error .panicked
      else .ok (Download.ofSource file key service.config []) := by
  rw [Download.start, owned] at runs
  simp only [known] at runs
  obtain ⟨found, d₁, looked, rest⟩ := Script.runs_bind.1 runs
  obtain rfl := shelf.found rooted named there looked
  dsimp only at rest
  split at rest
  · rename_i large
    exact (congrArg Prod.fst (Script.runs_pure.1 rest).1).trans (if_pos large).symm
  · rename_i fits
    exact (congrArg Prod.fst (Script.runs_pure.1 rest).1).trans (if_neg fits).symm

/-- A download that has just started delivers the plaintext of its blob, if that is
    a whole stream of the length that the record says. -/
theorem ConformingShelf.runs_pieces (shelf : ConformingShelf disk root path) {service : Service}
    {key : DataKey} {config : TransferConfig} {data payload : Bytes} {pieces : List Bytes}
    {ending : Except Error Unit} {last : Download} {d d' : δ}
    (rooted : service.blobs.root? = root) (named : IsBlobName file.blobName)
    (there : shelf.object service.blobs d file.blobName = some data)
    (whole : Stream.Whole key data payload) (size : payload.length = file.fileSize)
    (asks : 0 < config.downloadChunkSize)
    (runs : Script.Runs disk d ((Download.ofSource file key config []).pieces service)
      (pieces, ending, last) d') :
    ending = .ok () ∧ pieces.flatten = payload ∧
      ∀ piece ∈ pieces, piece ≠ [] ∧ piece.length ≤ config.downloadChunkSize := by
  obtain ⟨loaded, d₁, loads, serves⟩ := Script.runs_bind.1 runs
  obtain ⟨found, d₂, read, rest⟩ := Script.runs_bind.1 loads
  obtain rfl := shelf.given rooted named there read
  obtain ⟨piece, d₃, given, rest⟩ := Script.runs_bind.1 rest
  obtain ⟨rfl, rfl⟩ := Script.runs_pure.1 given
  obtain ⟨rfl, rfl⟩ := Script.runs_pure.1 rest
  have due := Download.isDue_ofSource config whole size asks
  have enough : payload.length <
      { Download.ofSource file key config [.data data] with opened := true }.bound := by
    have length := Stream.length_parse key data none
    rw [whole] at length
    change payload.length < 0 + (0 + (data.length + 0)) + 2
    simp only at length
    omega
  obtain ⟨all, last', served, flat, fits⟩ := due.piecesFor enough []
  have served := (Script.runs_pure.1 serves).1.trans served
  cases served
  exact ⟨rfl, flat, fits⟩

end

end Strongroom
