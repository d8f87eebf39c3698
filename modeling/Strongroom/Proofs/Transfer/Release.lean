import Strongroom.Proofs.Stream.Alike
import Strongroom.Proofs.Transfer.Delivery

/-! # What a download releases

A download serves plaintext of records that opened, in pieces that fit, and then
tells how it ended for as long as it is asked. It ends cleanly only if the blob is
a whole stream of the length that the record says; after an error it serves
nothing more. Neither the read buffer nor the pieces of the blob show.
-/

namespace Strongroom

variable {δ : Type}

namespace Stream

/-- The plaintexts of the leading records that open under a key. -/
def verified (key : DataKey) (bytes : Bytes) : List Bytes :=
  if bytes.length < 4 then []
  else
    let number := Bytes.toNatBE (bytes.take 4)
    let size := number % 2 ^ 31
    let rest := bytes.drop 4
    if size < 28 ∨ 65564 < size ∨ rest.length < size then []
    else
      match Block.decrypt key (rest.take size) with
      | .error _ => []
      | .ok plaintext =>
        plaintext :: if number < 2 ^ 31 then verified key (rest.drop size) else []
termination_by bytes.length
decreasing_by
  simp only [List.length_drop]
  omega

/-- What a byte string carries was opened record by record. -/
theorem plaintext_prefix_verified (key : DataKey) (bytes : Bytes) (broken : Option String) :
    (parse key bytes broken).plaintext <+: (verified key bytes).flatten := by
  fun_induction parse key bytes broken with
  | case1 | case2 | case3 | case4 | case5 | case7 | case8 => exact List.nil_prefix
  | case6 bytes _ header number size rest good fits plaintext opens more below ih =>
      have step : verified key bytes = plaintext :: verified key more := by
        have whole : ¬(size < 28 ∨ 65564 < size ∨ rest.length < size) := by omega
        rw [verified, if_neg header]
        dsimp only
        rw [if_neg whole, opens, if_pos below]
      rw [step, List.flatten_cons]
      exact (List.prefix_append_right_inj plaintext).2 ih
  | case9 bytes _ header number size rest good fits plaintext opens more above =>
      have step : verified key bytes = [plaintext] := by
        have whole : ¬(size < 28 ∨ 65564 < size ∨ rest.length < size) := by omega
        rw [verified, if_neg header]
        dsimp only
        rw [if_neg whole, opens, if_neg above]
      refine ⟨[], ?_⟩
      rw [step, List.flatten_singleton, List.append_nil]

theorem shortage_ne_ok (broken : Option String) (cut : Fault) : shortage broken cut ≠ .ok () := by
  cases broken with
  | none => exact fun clean => by cases clean
  | some text => exact fun clean => by cases clean

theorem unbroken_of_clean {key : DataKey} {bytes : Bytes} {broken : Option String}
    (clean : (parse key bytes broken).ending = .ok ()) : broken = none := by
  fun_induction parse key bytes broken with
  | case1 | case2 | case4 => exact absurd clean (shortage_ne_ok _ _)
  | case3 | case5 | case7 | case8 => cases clean
  | case6 _ _ _ _ _ _ _ _ _ _ _ _ ih => exact ih clean
  | case9 _ _ _ _ _ _ _ _ _ _ _ _ _ unbroken => exact unbroken

theorem Source.length_content (source : Source) : (content source).length ≤ size source := by
  induction source with
  | nil => exact Nat.le_refl 0
  | cons piece rest ih =>
      cases piece with
      | fault text => exact Nat.zero_le _
      | data bytes =>
          rw [content, size, List.length_append]
          exact Nat.add_le_add_left ih _

end Stream

namespace Download

def after : Nat → Download → Download
  | 0, download => download
  | n + 1, download => after n download.advance.2

def answer (n : Nat) (download : Download) : Stream.Answer :=
  (download.after n).advance.1

/-- A download that answers in one way from now on. -/
def Stays (download : Download) (answer : Stream.Answer) : Prop :=
  download.advance = (answer, download)

/-- A download that has a reading left to serve. -/
structure Owes (download : Download) (reading : Stream.Reading) : Prop where
  left : download.decoder.remaining = reading
  sound : ¬ download.decoder.hasFailed
  unfinished : download.finished = false
  asks : 0 < download.chunkSize

/-- How a download of a reading ends: as the reading does, unless its length is
    not the one of the record. -/
def verdict (download : Download) (reading : Stream.Reading) : Except Error Unit :=
  match reading.ending with
  | .error e => .error e
  | .ok () =>
    let size := download.served + reading.plaintext.length
    if size = download.record.fileSize then .ok ()
    else .error (Stream.Fault.lengthMismatch size download.record.fileSize).toError

/-- The whole course of a download: some pieces, then how it ended, and then it
    stays so and serves nothing more. -/
structure Course (download : Download) (pieces : List Bytes) (ending : Except Error Unit) :
    Prop where
  serves : ∀ n (inside : n < pieces.length), download.answer n = .ok (some (pieces.get ⟨n, inside⟩))
  ends : download.answer pieces.length = Stream.closing ending
  rests : ending = .ok () → ∀ n, pieces.length < n → download.answer n = .ok none
  fails : ∀ e, ending = .error e → ∀ n, pieces.length < n → ∃ e', download.answer n = .error e'
  counts : ∀ n, (download.after n).served = download.served + (pieces.take n).flatten.length
  /-- As a stream it has the same pieces, and ends right behind them. -/
  streams : ∀ fuel done, pieces.length < fuel →
    download.piecesFor fuel done =
      (done.reverse ++ pieces, ending, download.after (pieces.length + 1))

theorem Stays.after {download : Download} {answer : Stream.Answer}
    (stays : download.Stays answer) (n : Nat) : download.after n = download := by
  induction n with
  | zero => rfl
  | succ n ih =>
      have still : download.advance.2 = download := by rw [stays]
      rw [Download.after, still, ih]

theorem length_le_flatten {pieces : List Bytes} (nonempty : ∀ piece ∈ pieces, piece ≠ []) :
    pieces.length ≤ pieces.flatten.length := by
  induction pieces with
  | nil => exact Nat.le_refl 0
  | cons piece pieces ih =>
      obtain ⟨first, rest⟩ := List.forall_mem_cons.1 nonempty
      have positive := List.length_pos_iff.2 first
      have others := ih rest
      rw [List.length_cons, List.flatten_cons, List.length_append]
      omega

theorem course_nil {download next : Download} {ending : Except Error Unit}
    {again : Stream.Answer} (ends : download.advance = (Stream.closing ending, next))
    (stays : next.Stays again) (same : next.served = download.served)
    (rests : ending = .ok () → again = .ok none)
    (fails : ∀ e, ending = .error e → ∃ e', again = .error e') :
    download.Course [] ending := by
  have behind (n : Nat) : download.after (n + 1) = next := by
    rw [after, ends]
    exact stays.after n
  have later (n : Nat) (positive : 0 < n) : download.answer n = again := by
    obtain ⟨n, rfl⟩ := Nat.exists_eq_succ_of_ne_zero (Nat.pos_iff_ne_zero.1 positive)
    rw [answer, behind, stays]
  constructor
  · intro n inside
    cases inside
  · exact congrArg Prod.fst ends
  · intro clean n past
    rw [later n past, rests clean]
  · intro e failed n past
    rw [later n past]
    exact fails e failed
  · intro n
    cases n with
    | zero => rfl
    | succ n => simp [behind, same]
  · intro fuel done enough
    obtain ⟨fuel, rfl⟩ := Nat.exists_eq_succ_of_ne_zero (Nat.pos_iff_ne_zero.1 enough)
    rw [piecesFor, ends]
    cases ending with
    | ok value => simp [Stream.closing, behind]
    | error e => simp [Stream.closing, behind]

theorem Course.cons {download next : Download} {piece : Bytes} {pieces : List Bytes}
    {ending : Except Error Unit} (serves : download.advance = (.ok (some piece), next))
    (count : next.served = download.served + piece.length) (course : next.Course pieces ending) :
    download.Course (piece :: pieces) ending := by
  have behind (n : Nat) : download.after (n + 1) = next.after n := by
    rw [after, serves]
  have later (n : Nat) : download.answer (n + 1) = next.answer n := by
    rw [answer, behind, answer]
  constructor
  · intro n inside
    cases n with
    | zero => exact congrArg Prod.fst serves
    | succ n =>
        rw [later]
        exact course.serves n (Nat.lt_of_succ_lt_succ inside)
  · rw [List.length_cons, later]
    exact course.ends
  · intro clean n past
    cases n with
    | zero => cases past
    | succ n =>
        rw [later]
        exact course.rests clean n (Nat.lt_of_succ_lt_succ past)
  · intro e failed n past
    cases n with
    | zero => cases past
    | succ n =>
        rw [later]
        exact course.fails e failed n (Nat.lt_of_succ_lt_succ past)
  · intro n
    cases n with
    | zero => rfl
    | succ n =>
        rw [behind, course.counts, count, List.take_succ_cons, List.flatten_cons,
          List.length_append, Nat.add_assoc]
  · intro fuel done enough
    cases fuel with
    | zero => cases enough
    | succ fuel =>
        rw [piecesFor, serves]
        dsimp only
        rw [course.streams fuel (piece :: done) (Nat.lt_of_succ_lt_succ enough)]
        simp [behind]

/-- A download runs its course over what it has left to serve. -/
theorem Owes.course {download : Download} {reading : Stream.Reading}
    (owes : download.Owes reading) :
    ∃ pieces, download.Course pieces (download.verdict reading) ∧
      pieces.flatten = reading.plaintext ∧
        ∀ piece ∈ pieces, piece ≠ [] ∧ piece.length ≤ download.chunkSize := by
  -- Every piece leaves less plaintext behind it.
  generalize length : reading.plaintext.length = size
  induction size using Nat.strongRecOn generalizing download reading with
  | ind size ih =>
      obtain ⟨left, sound, unfinished, asks⟩ := owes
      have step := Stream.Decoder.step_serve download.decoder download.chunkSize asks sound
      rw [← Stream.Decoder.read_of_pos _ asks] at step
      cases read : download.decoder.read download.chunkSize with
      | mk result decoder =>
      rw [read] at step
      cases step with
      | @piece piece _ nonempty fits split sound' =>
          rw [left] at split
          let next := { download with decoder, served := download.served + piece.length }
          have serves : download.advance = (.ok (some piece), next) := by
            simp [advance, unfinished, read, next]
          have shorter : decoder.remaining.plaintext.length < size := by
            have := List.length_pos_iff.2 nonempty
            rw [← length, split, Stream.Reading.plaintext_after, List.length_append]
            omega
          obtain ⟨pieces, course, flat, all⟩ :=
            ih _ shorter (show next.Owes _ from ⟨rfl, sound', unfinished, asks⟩) rfl
          have same : next.verdict decoder.remaining = download.verdict reading := by
            simp only [verdict, next, split, Stream.Reading.ending_after,
              Stream.Reading.plaintext_after, List.length_append, Nat.add_assoc]
          rw [same] at course
          refine ⟨piece :: pieces, course.cons serves rfl, ?_, ?_⟩
          · rw [List.flatten_cons, flat, split, Stream.Reading.plaintext_after]
          · exact List.forall_mem_cons.2 ⟨⟨nonempty, fits⟩, all⟩
      | finished nothing stands ready =>
          rw [left] at nothing
          subst nothing
          have still (limit : Nat) (pos : 0 < limit) :
              decoder.read limit = (.ok none, decoder) := by
            rw [Stream.Decoder.read_of_pos _ pos, Stream.Decoder.serve_of_finished stands ready]
          refine ⟨[], ?_, rfl, by simp⟩
          by_cases whole : download.served = download.record.fileSize
          · have ends : download.advance =
                (.ok none, { download with decoder, finished := true }) := by
              simp [advance, unfinished, read, whole]
            have clean : download.verdict ⟨[], .ok ()⟩ = .ok () := by simp [verdict, whole]
            rw [clean]
            have stays : Stays { download with decoder, finished := true } (.ok none) := rfl
            exact course_nil ends stays rfl (fun _ => rfl) (fun e never => by cases never)
          · let fault : Error :=
              (Stream.Fault.lengthMismatch download.served download.record.fileSize).toError
            have ends : download.advance = (.error fault, { download with decoder }) := by
              simp [advance, unfinished, read, whole, fault]
            have stays : Stays { download with decoder } (.error fault) := by
              simp [Stays, advance, unfinished, still _ asks, whole, fault]
            have late : download.verdict ⟨[], .ok ()⟩ = .error fault := by
              simp [verdict, whole, fault]
            rw [late]
            exact course_nil ends stays rfl (fun never => by cases never)
              (fun e _ => ⟨fault, rfl⟩)
      | @failed e _ nothing stands =>
          rw [left] at nothing
          subst nothing
          have ends : download.advance = (.error e, { download with decoder }) := by
            simp [advance, unfinished, read]
          have stays : Stays { download with decoder } (.error (Stream.keptError e)) := by
            simp [Stays, advance, unfinished, Stream.Decoder.read_of_pos _ asks,
              Stream.Decoder.serve_of_failed stands]
          refine ⟨[], ?_, rfl, by simp⟩
          exact course_nil ends stays rfl (fun never => by cases never)
            (fun e' _ => ⟨Stream.keptError e, rfl⟩)

/-- Two downloads in the same state whose decoders cannot be told apart. -/
structure Alike (a b : Download) : Prop where
  decoder : a.decoder.Alike b.decoder
  record : a.record = b.record
  chunkSize : a.chunkSize = b.chunkSize
  served : a.served = b.served
  finished : a.finished = b.finished

theorem Alike.advance {a b : Download} (alike : a.Alike b) :
    a.advance.1 = b.advance.1 ∧ a.advance.2.Alike b.advance.2 := by
  obtain ⟨record, chunkSize, decoder, opened, served, finished⟩ := a
  obtain ⟨_, _, decoder', opened', _, _⟩ := b
  obtain ⟨decoders, rfl, rfl, rfl, rfl⟩ := alike
  obtain ⟨same, next⟩ := decoders.read chunkSize
  unfold Download.advance
  dsimp only at decoders same next ⊢
  cases finished with
  | true => exact ⟨rfl, decoders, rfl, rfl, rfl, rfl⟩
  | false =>
      rw [if_neg Bool.false_ne_true, if_neg Bool.false_ne_true]
      generalize decoder.read chunkSize = first at same next
      generalize decoder'.read chunkSize = second at same next
      obtain ⟨result, decoder⟩ := first
      obtain ⟨result', decoder'⟩ := second
      obtain rfl : result = result' := same
      rcases result with e | (_ | piece)
      · exact ⟨rfl, next, rfl, rfl, rfl, rfl⟩
      · dsimp only
        split
        all_goals exact ⟨rfl, next, rfl, rfl, rfl, rfl⟩
      · exact ⟨rfl, next, rfl, rfl, rfl, rfl⟩

theorem Alike.answer {a b : Download} (alike : a.Alike b) (n : Nat) :
    a.answer n = b.answer n := by
  induction n generalizing a b with
  | zero => exact alike.advance.1
  | succ n ih => exact ih alike.advance.2

/-- A download that has found what it reads. -/
def begun (record : FileRecord) (key : DataKey) (config : TransferConfig)
    (source : Stream.Source) : Download :=
  { ofSource record key config source with opened := true }

section

variable {record : FileRecord} {key : DataKey} {config : TransferConfig} {source : Stream.Source}

theorem owes_begun (asks : 0 < config.downloadChunkSize) :
    (begun record key config source).Owes
      (Stream.parse key (Stream.Supply.content source) (Stream.Supply.fault? source)) where
  left := rfl
  sound := Stream.Decoder.sound_create key _
  unfinished := rfl
  asks := asks

/-- The clean end is the one of a whole stream of the recorded length. -/
theorem verdict_begun_eq_ok :
    (begun record key config source).verdict
        (Stream.parse key (Stream.Supply.content source) (Stream.Supply.fault? source)) = .ok () ↔
      Stream.Supply.fault? source = none ∧ ∃ payload,
        Stream.Whole key (Stream.Supply.content source) payload ∧
          payload.length = record.fileSize := by
  have served : (begun record key config source).served = 0 := rfl
  have recorded : (begun record key config source).record = record := rfl
  rw [verdict, served, recorded]
  constructor
  · intro clean
    split at clean
    · cases clean
    · rename_i ends
      have unbroken := Stream.unbroken_of_clean ends
      rw [unbroken] at clean ends
      dsimp only at clean
      split at clean
      · rename_i size
        rw [Nat.zero_add] at size
        exact ⟨unbroken, _, congrArg (Stream.Reading.mk _) ends, size⟩
      · cases clean
  · rintro ⟨unbroken, payload, whole, size⟩
    rw [unbroken, whole]
    simp [size]

theorem bound_begun (source : Stream.Source) :
    (Stream.parse key (Stream.Supply.content source) (Stream.Supply.fault? source)).plaintext.length
      < (begun record key config source).bound := by
  have carried := Stream.length_parse key (Stream.Supply.content source)
    (Stream.Supply.fault? source)
  have come := Stream.Source.length_content source
  change _ < 0 + (0 + source.size) + 2
  change _ ≤ (Stream.Source.content source).length at carried
  omega

theorem alike_begun {config' : TransferConfig} {source' : Stream.Source}
    (asks : config'.downloadChunkSize = config.downloadChunkSize)
    (content : Stream.Supply.content source' = Stream.Supply.content source)
    (fault : Stream.Supply.fault? source' = Stream.Supply.fault? source) :
    (begun record key config' source').Alike (begun record key config source) where
  decoder := Stream.Decoder.alike_create key ⟨content, fault⟩
  record := rfl
  chunkSize := asks
  served := rfl
  finished := rfl

variable {disk : Disk δ} {service : Service} {d d' : δ}

/-- A start fails, or gives a download that has read nothing yet, unless no
    machine can have its buffer. -/
theorem result_of_start {id : FileId} {user : UserId} {result : Except Halt Download}
    {after : Service} (owned : service.ownedRecord id user = .ok record)
    (known : service.keyOf record.owner = .ok key)
    (runs : Script.Runs disk d (start service id user) (result, after) d') :
    (∃ e, result = .error (.failed e)) ∨
      result = if maxBuffer < service.config.readBufferSize then .error .panicked
        else .ok (ofSource record key service.config []) := by
  rw [start, owned] at runs
  simp only [known] at runs
  obtain ⟨found, d₁, _, rest⟩ := Script.runs_bind.1 runs
  split at rest
  · exact .inl ⟨_, congrArg Prod.fst (Script.runs_pure.1 rest).1⟩
  · exact .inl ⟨_, congrArg Prod.fst (Script.runs_pure.1 rest).1⟩
  · right
    split at rest
    · rename_i large
      exact (congrArg Prod.fst (Script.runs_pure.1 rest).1).trans (if_pos large).symm
    · rename_i fits
      exact (congrArg Prod.fst (Script.runs_pure.1 rest).1).trans (if_neg fits).symm

theorem begun_of_load {loaded : Download}
    (runs : Script.Runs disk d ((ofSource record key config []).load service) loaded d') :
    ∃ piece, loaded = begun record key config [piece] := by
  obtain ⟨found, d₁, _, rest⟩ := Script.runs_bind.1 runs
  cases found with
  | error text | ok data =>
      obtain ⟨piece, d₂, _, rest⟩ := Script.runs_bind.1 rest
      exact ⟨piece, (Script.runs_pure.1 rest).1⟩

end

/-- A download of a blob whose bytes come in pieces of any kind, and then end or
    break, serves pieces that fit, of plaintext that its leading records opened to.
    It ends cleanly exactly if the blob is a whole stream of the length that the
    record says, and all of it was served then. Its buffer and the pieces of the
    blob do not show. A start that finds the blob gives such a download unless no
    machine can have its buffer. -/
theorem releases_verified_plaintext (record : FileRecord) (key : DataKey)
    (config : TransferConfig) (source : Stream.Source) (asks : 0 < config.downloadChunkSize) :
    let download := begun record key config source
    let data := Stream.Supply.content source
    let broken := Stream.Supply.fault? source
    (∃ pieces ending, download.Course pieces ending ∧
        (∀ piece ∈ pieces, piece ≠ [] ∧ piece.length ≤ config.downloadChunkSize) ∧
          pieces.flatten <+: (Stream.verified key data).flatten ∧
            (ending = .ok () ↔ broken = none ∧
              ∃ payload, Stream.Whole key data payload ∧ payload.length = record.fileSize) ∧
                (ending = .ok () → Stream.Whole key data pieces.flatten) ∧
                  pieces.length < download.bound) ∧
      (∀ (config' : TransferConfig) (source' : Stream.Source),
        config'.downloadChunkSize = config.downloadChunkSize →
          Stream.Supply.content source' = data → Stream.Supply.fault? source' = broken →
            ∀ n, (begun record key config' source').answer n = download.answer n) ∧
        ∀ (disk : Disk δ) (service : Service) (d d' : δ), service.config = config →
          (∀ id user result after, service.ownedRecord id user = .ok record →
            service.keyOf record.owner = .ok key →
              Script.Runs disk d (start service id user) (result, after) d' →
                (∃ e, result = .error (.failed e)) ∨
                  result = if maxBuffer < config.readBufferSize then .error .panicked
                    else .ok (ofSource record key config [])) ∧
            (∀ answer next,
              Script.Runs disk d ((ofSource record key config []).next service) (answer, next) d' →
                ∃ piece, (answer, next) = (begun record key config [piece]).advance) ∧
              ∀ pieces ending last,
                Script.Runs disk d ((ofSource record key config []).pieces service)
                  (pieces, ending, last) d' →
                    ∃ piece, (begun record key config [piece]).Course pieces ending := by
  have courses (source : Stream.Source) :=
    (show (begun record key config source).Owes _ from owes_begun asks).course
  have within {source : Stream.Source} {pieces : List Bytes}
      (flat : pieces.flatten = (Stream.parse key (Stream.Supply.content source)
        (Stream.Supply.fault? source)).plaintext)
      (fits : ∀ piece ∈ pieces, piece ≠ [] ∧ piece.length ≤ config.downloadChunkSize) :
      pieces.length < (begun record key config source).bound := by
    have many := length_le_flatten fun piece member => (fits piece member).1
    have bound : _ < (begun record key config source).bound := bound_begun source
    rw [← flat] at bound
    exact Nat.lt_of_le_of_lt many bound
  refine ⟨?_, ?_, ?_⟩
  · obtain ⟨pieces, course, flat, fits⟩ := courses source
    refine ⟨pieces, _, course, fits, ?_, verdict_begun_eq_ok, ?_, within flat fits⟩
    · rw [flat]
      exact Stream.plaintext_prefix_verified key _ _
    · intro clean
      obtain ⟨unbroken, payload, whole, _⟩ := verdict_begun_eq_ok.1 clean
      rw [flat, unbroken, whole]
      exact whole
  · intro config' source' sizes content fault n
    exact (alike_begun sizes content fault).answer n
  · intro disk service d d' configured
    subst configured
    refine ⟨?_, ?_, ?_⟩
    · intro id user result after owned known runs
      exact result_of_start owned known runs
    · intro answer next runs
      obtain ⟨loaded, d₁, loads, rest⟩ := Script.runs_bind.1 runs
      obtain ⟨piece, rfl⟩ := begun_of_load loads
      exact ⟨piece, (Script.runs_pure.1 rest).1⟩
    · intro pieces ending last runs
      obtain ⟨loaded, d₁, loads, rest⟩ := Script.runs_bind.1 runs
      obtain ⟨piece, rfl⟩ := begun_of_load loads
      obtain ⟨served, course, flat, fits⟩ := courses [piece]
      have all := course.streams _ [] (within flat fits)
      have same := (Script.runs_pure.1 rest).1.trans all
      cases same
      exact ⟨piece, course⟩

/-- A blob of one record, in three pieces one of which is empty, read through a
    buffer of a byte. -/
theorem releases_three_verified_bytes :
    let key : DataKey := ⟨List.replicate 32 0, rfl⟩
    let blob := Stream.record true (Block.encryptWith key (List.replicate 12 0) [1, 2, 3])
    let source : Stream.Source := [.data (blob.take 5), .data [], .data (blob.drop 5)]
    let record : FileRecord := { (default : FileRecord) with fileSize := 3 }
    let config : TransferConfig := { downloadChunkSize := 2, readBufferSize := 1 }
    0 < config.downloadChunkSize ∧
      ∃ pieces, (begun record key config source).Course pieces (.ok ()) ∧
        pieces.flatten = [1, 2, 3] ∧ ∀ piece ∈ pieces, piece ≠ [] ∧ piece.length ≤ 2 := by
  intro key blob source record config
  have whole : Stream.Whole key blob [1, 2, 3] :=
    Stream.whole_sealed key (by decide) List.length_replicate
  have content : Stream.Supply.content source = blob := by
    change blob.take 5 ++ ([] ++ (blob.drop 5 ++ [])) = blob
    rw [List.append_nil, List.nil_append, List.take_append_drop]
  obtain ⟨⟨pieces, ending, course, fits, _, clean, all, _⟩, _⟩ :=
    @releases_verified_plaintext FileTree record key config source (by decide)
  rw [content] at clean all
  obtain rfl : ending = .ok () := clean.2 ⟨rfl, _, whole, rfl⟩
  have served := (all rfl).symm.trans whole
  exact ⟨by decide, pieces, course, congrArg Stream.Reading.plaintext served, fits⟩

end Download

end Strongroom
