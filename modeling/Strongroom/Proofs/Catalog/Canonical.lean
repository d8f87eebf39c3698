import Mathlib.Data.List.Sort
import Strongroom.Proofs.Catalog.Interchange
import Strongroom.Proofs.Catalog.Remains

/-! # The document is a canonical form

The document of a catalog depends on what the catalog holds, and neither on the order in
which this came to be nor on the one in which it is gone through: no two users have one
login and no two files one identifier, so both orders of the document are total. That
logins are unique holds of whatever opens, too, also where a flush has stopped. So
whatever was called, failed and was opened anew, the file shows the document of what is
held since the last flush; what a write that breaks off may tear is a document in its own
place alone, and only until the next flush.
-/

namespace Strongroom

/-- If a relation tells all members of a list apart, their order is no matter. -/
theorem mergeSort_eq_of_perm {α : Type} {le : α → α → Bool} {list list' : List α}
    (trans : ∀ a b c, le a b → le b c → le a c) (total : ∀ a b, le a b || le b a)
    (apart : ∀ a ∈ list, ∀ b ∈ list, le a b → le b a → a = b) (perm : list.Perm list') :
    list.mergeSort le = list'.mergeSort le := by
  have same : (list.mergeSort le).Perm (list'.mergeSort le) :=
    (List.mergeSort_perm list le).trans (perm.trans (List.mergeSort_perm list' le).symm)
  refine same.eq_of_pairwise (fun a b member member' => ?_)
    (List.pairwise_mergeSort trans total list) (List.pairwise_mergeSort trans total list')
  exact apart a ((List.mergeSort_perm list le).mem_iff.1 member) b
    (perm.mem_iff.2 ((List.mergeSort_perm list' le).mem_iff.1 member'))

namespace Entries

variable {entries entries' : Entries}

theorem writtenBefore_iff (a b : FileRecord) :
    writtenBefore a b ↔ a.createdAt < b.createdAt ∨
      a.createdAt = b.createdAt ∧ a.id.uuid.value.toNat ≤ b.id.uuid.value.toNat := by
  simp only [writtenBefore, Bool.or_eq_true, Bool.and_eq_true, decide_eq_true_eq]

theorem userWrittenBefore_iff (a b : UserRecord) : userWrittenBefore a b ↔ a.login ≤ b.login := by
  rw [userWrittenBefore, Bool.not_eq_true', decide_eq_false_iff_not, String.not_lt]

theorem writtenBefore_trans (a b c : FileRecord) (first : writtenBefore a b)
    (second : writtenBefore b c) : writtenBefore a c := by
  rw [writtenBefore_iff] at *
  omega

theorem writtenBefore_total (a b : FileRecord) : writtenBefore a b || writtenBefore b a := by
  rw [Bool.or_eq_true, writtenBefore_iff, writtenBefore_iff]
  omega

theorem id_eq_of_writtenBefore {a b : FileRecord} (first : writtenBefore a b)
    (second : writtenBefore b a) : a.id = b.id := by
  rw [writtenBefore_iff] at first second
  have value : a.id.uuid.value = b.id.uuid.value := BitVec.eq_of_toNat_eq (by omega)
  exact congrArg (fun value => (⟨⟨value⟩⟩ : FileId)) value

theorem Distinct.mem_users (distinct : entries.Distinct) {user : UserRecord} :
    user ∈ entries.users ↔ entries.maps.user? user.id = some user :=
  (and_iff_left rfl).symm.trans distinct.user?_eq_some.symm

theorem Distinct.mem_files (distinct : entries.Distinct) {file : FileRecord} :
    file ∈ entries.files ↔ entries.maps.file? file.id = some file :=
  (and_iff_left rfl).symm.trans distinct.file?_eq_some.symm

/-- Entries in another order. -/
structure Reordered (entries entries' : Entries) : Prop where
  users : entries.users.Perm entries'.users
  files : entries.files.Perm entries'.files

theorem Distinct.reordered (distinct : entries.Distinct) (distinct' : entries'.Distinct)
    (same : entries.maps = entries'.maps) : entries.Reordered entries' where
  users := by
    refine (List.perm_ext_iff_of_nodup (List.Nodup.of_map UserRecord.id distinct.users)
      (List.Nodup.of_map UserRecord.id distinct'.users)).2 fun user => ?_
    rw [distinct.mem_users, distinct'.mem_users, same]
  files := by
    refine (List.perm_ext_iff_of_nodup (List.Nodup.of_map FileRecord.id distinct.files)
      (List.Nodup.of_map FileRecord.id distinct'.files)).2 fun file => ?_
    rw [distinct.mem_files, distinct'.mem_files, same]

theorem Reordered.sound (reordered : entries.Reordered entries') (sound : entries.Sound) :
    entries'.Sound where
  users := (reordered.users.map UserRecord.id).nodup_iff.1 sound.users
  files := (reordered.files.map FileRecord.id).nodup_iff.1 sound.files
  fits file member := sound.fits file (reordered.files.mem_iff.2 member)

theorem Reordered.maps_eq (reordered : entries.Reordered entries') (sound : entries.Sound) :
    entries'.maps = entries.maps :=
  Entries.maps_eq (reordered.sound sound).toDistinct sound.toDistinct
    (fun _ => reordered.users.mem_iff.symm) fun _ => reordered.files.mem_iff.symm

/-- What is written is told by the maps, since no two users have one login. -/
theorem toText_eq (distinct : entries.Distinct) (distinct' : entries'.Distinct)
    (unique : entries.maps.Sound) (same : entries.maps = entries'.maps) :
    entries.toText = entries'.toText := by
  have reordered := distinct.reordered distinct' same
  have users : entries.users.mergeSort userWrittenBefore =
      entries'.users.mergeSort userWrittenBefore := by
    refine mergeSort_eq_of_perm ?_ ?_ ?_ reordered.users
    · intro a b c first second
      rw [userWrittenBefore_iff] at *
      exact String.le_trans first second
    · intro a b
      rw [Bool.or_eq_true, userWrittenBefore_iff, userWrittenBefore_iff]
      exact String.le_total _ _
    · intro a here b there first second
      rw [userWrittenBefore_iff] at first second
      have known := distinct.mem_users.1 here
      have known' := distinct.mem_users.1 there
      have one := unique.logins _ _ _ _ known known' (String.le_antisymm first second)
      rw [one, known'] at known
      exact (Option.some.inj known).symm
  have files : entries.files.mergeSort writtenBefore = entries'.files.mergeSort writtenBefore := by
    refine mergeSort_eq_of_perm writtenBefore_trans writtenBefore_total ?_
      reordered.files
    intro a here b there first second
    exact List.inj_on_of_nodup_map distinct.files here there (id_eq_of_writtenBefore first second)
  rw [toText, toText, toJson, toJson, users, files]

theorem maps_eq_of_toText (sound : entries.Sound) (sound' : entries'.Sound)
    (same : entries.toText = entries'.toText) : entries.maps = entries'.maps := by
  have read := Catalog.read_toText ⟨""⟩ sound.toDistinct sound.fits
  rw [same, Catalog.read_toText ⟨""⟩ sound'.toDistinct sound'.fits] at read
  rw [← maps_written sound.toDistinct, ← maps_written sound'.toDistinct, Except.ok.inj read]

end Entries

namespace Catalog

variable {path : Path} {tree tree' : FileTree} {place : Location} {pieces : List Bytes}
  {entries : Entries}

/-- What opens from a file, if anything does, has one user for each login. -/
def Unambiguous (path : Path) (pieces : List Bytes) : Prop :=
  ∀ place entries, opened path (some (place, .file pieces)) = .ok (.file path entries) →
    entries.maps.Sound

/-- What a flush has written of a document is unambiguous: it is the document, or it does
    not open. -/
theorem unambiguous_of_cut {lost : Bytes} (sound : entries.Sound) (unique : entries.maps.Sound)
    (cuts : (FileNode.file pieces).content ++ lost = Bytes.ofText entries.toText) :
    Unambiguous path pieces := by
  intro place shown opens
  by_cases whole : lost = []
  · rw [whole, List.append_nil] at cuts
    have same : (FileNode.file pieces).content =
        (FileNode.file [Bytes.ofText entries.toText]).content :=
      cuts.trans (List.append_nil _).symm
    rw [opened_congr place place same, opened_toText path place sound] at opens
    cases opens
    rw [Entries.maps_written sound.toDistinct]
    exact unique
  · obtain ⟨e, closed⟩ : ∃ e, opened path (some (place, .file pieces)) = .error e :=
      opened_of_cut place cuts whole
    rw [closed] at opens
    cases opens

/-- The disk of a catalog is in order, and a file that stands where its path leads is
    unambiguous. -/
structure Tended (path : Path) (tree : FileTree) : Prop where
  formed : tree.WellFormed
  clear : path.meansFolder ∨ ∀ pieces, tree.find? (tree.destination path) = some (.file pieces) →
    Unambiguous path pieces

namespace Tended

theorem of_at? (formed : tree.WellFormed) (shows : tree.at? path = some (place, .file pieces))
    (clear : Unambiguous path pieces) : Tended path tree := by
  refine ⟨formed, .inr fun other stands => ?_⟩
  obtain ⟨leads, here, _⟩ := FileTree.at?_eq_some.1 shows
  rw [← FileTree.locate_eq_destination leads, here] at stands
  cases stands
  exact clear

theorem unique (tended : Tended path tree)
    (opens : opened path (tree.at? path) = .ok (.file path entries)) : entries.maps.Sound := by
  cases shows : tree.at? path with
  | none =>
      rw [shows] at opens
      cases opens
      exact Maps.sound_empty
  | some found =>
      obtain ⟨place, node⟩ := found
      rw [shows] at opens
      cases node with
      | folder => cases opens
      | file pieces =>
          obtain ⟨leads, stands, only⟩ := FileTree.at?_eq_some.1 shows
          rcases tended.clear with means | clear
          · cases only means
          · rw [FileTree.locate_eq_destination leads] at stands
            exact clear pieces stands _ _ opens

/-- A folder is no document, and neither is a file that stands elsewhere. -/
theorem insert (tended : Tended path tree) {node : FileNode} (proper : place ≠ [])
    (formed : (tree.insert place node).WellFormed)
    (harmless : place = tree.destination path → node = .folder ∨ path.meansFolder) :
    Tended path (tree.insert place node) := by
  refine ⟨formed, ?_⟩
  rw [FileTree.destination_congr (show (tree.insert place node).current = tree.current from rfl)]
  by_cases here : place = tree.destination path
  · rcases harmless here with rfl | means
    · right
      intro pieces stands
      rw [FileTree.find?_insert _ _ proper, if_pos here.symm] at stands
      cases stands
    · exact .inl means
  · refine tended.clear.imp_right fun clear pieces => ?_
    rw [FileTree.find?_insert _ _ proper, if_neg (Ne.symm here)]
    exact clear pieces

theorem prepares (tree : FileTree) (s : Step) (reply : s.Reply) (tree' : FileTree)
    (prepares : Prepares path s) (replied : FileTree.failing.replies tree s reply tree')
    (tended : Tended path tree) : Tended path tree' := by
  cases prepares with
  | look other =>
      rcases replied with replied | fails
      · cases replied
        exact tended
      · cases fails
  | @makeFolder first leads =>
      rcases replied with replied | fails
      · have replied : tree.settle (tree.makeFolder first) = (reply, tree') := replied
        rcases FileTree.settle_cases replied with ⟨_, _, rfl⟩ | ⟨_, made⟩
        · exact tended
        · have formed := tended.formed.makeFolder made
          obtain ⟨place, _, nothing, rfl⟩ := FileTree.makeFolder_ok made
          have proper : place ≠ [] := by
            rintro rfl
            cases nothing
          exact tended.insert proper formed fun _ => .inl rfl
      · cases fails
        exact tended

theorem append (beside : temporary path ≠ path) (tended : Tended path tree) (data : Bytes) :
    Tended path (tree.append (temporary path) data) := by
  have formed := tended.formed.append (temporary path) data
  rcases tree.append_eq (temporary path) data with same | ⟨place, pieces, there, written⟩
  · rwa [same]
  · obtain ⟨leads, stands, _⟩ := FileTree.at?_eq_some.1 there
    have none : tree.find? place ≠ some .folder := by
      rw [stands]
      exact fun never => by cases never
    rw [written] at formed ⊢
    exact tended.insert (FileTree.proper_of_find? none) formed fun here =>
      .inr (apart_of_temporary beside leads here)

theorem appends (beside : temporary path ≠ path) (tended : Tended path tree)
    (pieces : List Bytes) : Tended path (tree.appends (temporary path) pieces) :=
  FileTree.appends_keeps (fun tended data => tended.append beside data) tended pieces

theorem write (tended : Tended path tree) (sound : entries.Sound) (unique : entries.maps.Sound)
    (stops : (Script.write (temporary path) (Bytes.ofText entries.toText)).StopsAt tree tree') :
    Tended path tree' := by
  rcases Script.stopsAt_write stops with rfl | ⟨changed, pieces, lost, emptied, whole, rfl⟩
  · exact tended
  · have formed := tended.formed.truncate emptied
    by_cases beside : temporary path = path
    · rw [beside] at emptied ⊢
      obtain ⟨place, empty⟩ := FileTree.at?_truncate emptied
      have here := FileTree.at?_appends empty pieces
      have cuts : (FileNode.file (pieces.reverse ++ [])).content ++ lost =
          Bytes.ofText entries.toText := by
        rw [FileNode.content, List.append_nil, List.reverse_reverse]
        exact whole
      exact .of_at? (formed.appends path pieces) here (unambiguous_of_cut sound unique cuts)
    · obtain ⟨place, leads, _, none, rfl⟩ := FileTree.truncate_ok emptied
      refine appends beside ?_ pieces
      exact tended.insert (FileTree.proper_of_find? none) formed fun here =>
        .inr (apart_of_temporary beside leads here)

/-- Wherever a flush stops, the disk is in order still. -/
theorem stopsAt (tended : Tended path tree) (sound : entries.Sound) (unique : entries.maps.Sound)
    (stops : (replaceDocument path entries.toText).StopsAt tree tree') : Tended path tree' := by
  have formed := formed_of_stop tended.formed stops
  rcases stopsAt_replaceDocument stops with first | ⟨tree₁, made, outcome⟩
  · exact first.keeps (prepares_makeParent path) prepares (fun _ _ never => by cases never) tended
  · have tended₁ := made.keeps (prepares_makeParent path) prepares tended
    rcases outcome with second | ⟨tree₂, wrote, moved⟩
    · exact tended₁.write sound unique second
    · obtain ⟨_, there⟩ := at?_of_write wrote
      obtain ⟨place, here⟩ := FileTree.at?_rename moved there
      have whole : (FileNode.file [Bytes.ofText entries.toText]).content ++ [] =
          Bytes.ofText entries.toText := by
        simp [FileNode.content]
      exact .of_at? formed here (unambiguous_of_cut sound unique whole)

end Tended

/-- Whether a call has flushed a change. -/
def flushed : CatalogRequest → CatalogAnswer → Bool
  | .insert _, .done (.ok ()) | .delete _ _, .done (.ok ()) | .insertUser _, .done (.ok ()) => true
  | _, _ => false

/-- What may come to be of a catalog that is opened where no file is, on a disk where any
    change may fail: calls that succeed or fail, that open it anew too, with what it holds
    in another order at any time. And whether a change was flushed by then. Where the
    document is written in its own place, and what stood there is gone as that failed, a
    change has to be flushed again. -/
inductive History (path : Path) : Catalog → FileTree → Bool → Prop where
  | opened {catalog : Catalog} {tree tree' : FileTree} :
    tree.WellFormed → (∀ pieces, tree.find? (tree.destination path) ≠ some (.file pieces)) →
      Script.Runs FileTree.failing tree (openFile path) (.ok catalog) tree' →
        History path catalog tree' false
  | reordered {entries entries' : Entries} {tree : FileTree} {kept : Bool} :
    History path (.file path entries) tree kept → entries.Reordered entries' →
      History path (.file path entries') tree kept
  | called {catalog next : Catalog} {tree tree' : FileTree} {kept : Bool}
      {request : CatalogRequest} {answer : CatalogAnswer} :
    History path catalog tree kept → request.Fits →
      Script.Runs FileTree.failing tree (request.run catalog) (answer, next) tree' →
        (temporary path = path → flushed request answer = false →
          tree'.at? path = tree.at? path) →
          History path next tree' (kept || flushed request answer)
  | torn {catalog next : Catalog} {tree tree' : FileTree} {kept : Bool}
      {request : CatalogRequest} {answer : CatalogAnswer} :
    temporary path = path → History path catalog tree kept → request.Fits →
      Script.Runs FileTree.failing tree (request.run catalog) (answer, next) tree' →
        History path next tree' false

theorem History.calls (beside : temporary path ≠ path) {catalog next : Catalog} {kept : Bool}
    {request : CatalogRequest} {answer : CatalogAnswer}
    (history : History path catalog tree kept) (fits : request.Fits)
    (runs : Script.Runs FileTree.disk tree (request.run catalog) (answer, next) tree') :
    History path next tree' (kept || flushed request answer) :=
  history.called fits (FileTree.runs_failing runs) fun inPlace => absurd inPlace beside

/-- What stands on disk for a catalog: the document of what it holds, once that was
    flushed. -/
structure Settled (path : Path) (entries : Entries) (tree : FileTree) (kept : Bool) : Prop where
  sound : entries.Sound
  unique : entries.maps.Sound
  tended : Tended path tree
  written : kept = true →
    ∃ place, tree.at? path = some (place, .file [Bytes.ofText entries.toText])

namespace Settled

variable {entries' : Entries} {kept : Bool}

theorem forget (settled : Settled path entries tree kept) : Settled path entries tree false :=
  { settled with written := fun never => by cases never }

theorem congr (settled : Settled path entries tree kept) (sound : entries'.Sound)
    (same : entries'.maps = entries.maps) : Settled path entries' tree kept where
  sound := sound
  unique := same ▸ settled.unique
  tended := settled.tended
  written done := by
    rw [Entries.toText_eq sound.toDistinct settled.sound.toDistinct (same ▸ settled.unique) same]
    exact settled.written done

theorem of_flush (settled : Settled path entries tree kept) (sound : entries'.Sound)
    (unique : entries'.maps.Sound)
    (runs : Script.Runs FileTree.failing tree (replaceDocument path entries'.toText) (.ok ())
      tree') : Settled path entries' tree' true where
  sound := sound
  unique := unique
  tended := settled.tended.stopsAt sound unique runs.stopsAt
  written _ := at?_of_replaceDocument runs

/-- A flush that fails leaves what stands there, unless that is where it writes. -/
theorem of_failure (settled : Settled path entries tree kept) (sound : entries'.Sound)
    (unique : entries'.maps.Sound) {e : Error}
    (runs : Script.Runs FileTree.failing tree (replaceDocument path entries'.toText) (.error e)
      tree')
    (intact : kept = true → temporary path = path → tree'.at? path = tree.at? path) :
    Settled path entries tree' kept where
  sound := settled.sound
  unique := settled.unique
  tended := settled.tended.stopsAt sound unique runs.stopsAt
  written done := by
    obtain ⟨place, here⟩ := settled.written done
    refine ⟨place, ?_⟩
    by_cases beside : temporary path = path
    · rw [intact done beside, here]
    · have shows : Shows path (tree.at? path) tree :=
        ⟨settled.tended.formed, .inl ⟨place, (FileTree.at?_eq_some.1 here).1⟩, rfl⟩
      rcases shows.replaceDocument beside runs with ⟨_, _, kept⟩ | ⟨never, _⟩
      · rw [kept.here, here]
      · cases never

theorem opened (settled : Settled path entries tree kept) {catalog : Catalog}
    (opens : Catalog.opened path (tree.at? path) = .ok catalog) :
    ∃ entries', catalog = .file path entries' ∧ Settled path entries' tree kept := by
  obtain ⟨entries', rfl, sound⟩ := sound_of_opened opens
  refine ⟨entries', rfl, sound, settled.tended.unique opens, settled.tended, fun done => ?_⟩
  obtain ⟨place, here⟩ := settled.written done
  rw [here, opened_toText path place settled.sound] at opens
  cases opens
  have same := Entries.maps_written settled.sound.toDistinct
  exact (settled.congr sound same).written done

end Settled

theorem flushed_of_still {request : CatalogRequest} {answer : CatalogAnswer} {maps : Maps}
    (answers : ∀ outcome, maps.Answers outcome request answer maps) :
    flushed request answer = false := by
  cases answers (.error (.notFound "")) with
  | changed _ never => cases never
  | lost | refused => cases request <;> rfl
  | shown shows =>
      cases shows with
      | get | list | wrappedKey | reopen => rfl

theorem flushed_of_changes {request : CatalogRequest} {maps next : Maps}
    (changes : maps.Changes request next) : flushed request (.done (.ok ())) = true := by
  cases changes with
  | insert | delete | insertUser => rfl

theorem Settled.run {kept : Bool} (settled : Settled path entries tree kept)
    {request : CatalogRequest} (fits : request.Fits) {answer : CatalogAnswer} {next : Catalog}
    (runs : Script.Runs FileTree.failing tree (request.run (.file path entries)) (answer, next)
      tree')
    (intact : kept = true → temporary path = path → flushed request answer = false →
      tree'.at? path = tree.at? path) :
    ∃ entries', next = .file path entries' ∧
      Settled path entries' tree' (kept || flushed request answer) := by
  by_cases call : request = .reopen
  · subst call
    obtain ⟨result, tree₁, looked, rest⟩ := Script.runs_bind.1 runs
    obtain ⟨rfl, rfl⟩ := runs_openFile looked
    cases opens : Catalog.opened path (tree₁.at? path) with
    | error e =>
        rw [opens] at rest
        obtain ⟨done, rfl⟩ := Script.runs_pure.1 rest
        cases done
        exact ⟨entries, rfl, by simpa [flushed] using settled⟩
    | ok catalog =>
        rw [opens] at rest
        obtain ⟨done, rfl⟩ := Script.runs_pure.1 rest
        cases done
        obtain ⟨entries', rfl, settled'⟩ := settled.opened opens
        exact ⟨entries', rfl, by simpa [flushed] using settled'⟩
  · have sound : (Catalog.file path entries).entries.Sound := settled.sound
    have outcome := CatalogRequest.outcome_of_run call sound fits runs
    cases outcome with
    | still _ answers =>
        refine ⟨entries, rfl, ?_⟩
        rw [flushed_of_still answers, Bool.or_false]
        exact settled
    | @kept after _ _ sound changes flushes =>
        refine ⟨after, rfl, ?_⟩
        rw [flushed_of_changes changes, Bool.or_true]
        exact settled.of_flush sound (changes.sound settled.unique) flushes
    | @undone after before e _ _ sound changes flushes restored same =>
        refine ⟨before, rfl, ?_⟩
        have failed : flushed request (.done (.error e)) = false := by
          cases request <;> rfl
        rw [failed, Bool.or_false]
        have settled' := settled.of_failure sound (changes.sound settled.unique) flushes
          fun done inPlace => intact done inPlace failed
        exact settled'.congr restored same

/-- What one call keeps, every history does. -/
theorem History.settled {catalog : Catalog} {kept : Bool}
    (history : History path catalog tree kept) :
    ∃ entries, catalog = .file path entries ∧ Settled path entries tree kept := by
  induction history with
  | @opened catalog before after formed nothing opens =>
      obtain ⟨opened, rfl⟩ := runs_openFile opens
      obtain ⟨entries, rfl, sound⟩ := sound_of_opened opened.symm
      have tended : Tended path after := ⟨formed, .inr fun pieces here => absurd here (nothing _)⟩
      exact ⟨entries, rfl, sound, tended.unique opened.symm, tended, fun never => by cases never⟩
  | reordered _ reordered ih =>
      obtain ⟨_, ⟨⟩, settled⟩ := ih
      exact ⟨_, rfl,
        settled.congr (reordered.sound settled.sound) (reordered.maps_eq settled.sound)⟩
  | called _ fits runs intact ih =>
      obtain ⟨entries, rfl, settled⟩ := ih
      exact settled.run fits runs fun _ => intact
  | torn _ _ fits runs ih =>
      obtain ⟨entries, rfl, settled⟩ := ih
      obtain ⟨entries', rfl, settled'⟩ := settled.forget.run fits runs fun never => by cases never
      exact ⟨entries', rfl, settled'.forget⟩

theorem unique_of_staged {entries : Entries} (sound : entries.Sound) (unique : entries.maps.Sound)
    {request : CatalogRequest} (fits : request.Fits) {staged : Catalog}
    (stages : request.staged? (.file path entries) = some staged) :
    staged.entries.Sound ∧ staged.entries.maps.Sound := by
  have call : request ≠ .reopen := by
    rintro rfl
    cases stages
  obtain ⟨⟨answer, next⟩, tree, runs⟩ :=
    Script.exists_runs FileTree.disk (request.run (.file path entries)) {}
  have sound : (Catalog.file path entries).entries.Sound := sound
  have outcome := CatalogRequest.outcome_of_run call sound fits runs
  cases outcome with
  | still nothing =>
      rw [nothing] at stages
      cases stages
  | kept stages' sound changes | undone stages' sound changes =>
      rw [stages'] at stages
      cases stages
      exact ⟨sound, changes.sound unique⟩

/-- Take two catalogs that were opened where no file was, at any paths and on any disks.
    Whatever was called, failed and was opened anew since, once each has flushed a change,
    their files hold the same bytes exactly if the catalogs hold the same users and the
    same files. And whatever is flushed next, the order in which the catalog is gone through
    is no matter. -/
theorem document_is_canonical {path path' : Path} {catalog catalog' : Catalog}
    {tree tree' : FileTree} (history : History path catalog tree true)
    (history' : History path' catalog' tree' true) :
    (∃ place place' pieces pieces', tree.at? path = some (place, .file pieces) ∧
      tree'.at? path' = some (place', .file pieces') ∧
        ((FileNode.file pieces).content = (FileNode.file pieces').content ↔
          (∀ user, user ∈ catalog.entries.users ↔ user ∈ catalog'.entries.users) ∧
            ∀ file, file ∈ catalog.entries.files ↔ file ∈ catalog'.entries.files)) ∧
      ∀ request staged order, CatalogRequest.Fits request →
        request.staged? catalog = some staged → staged.entries.Reordered order →
          order.toText = staged.entries.toText := by
  obtain ⟨entries, rfl, settled⟩ := history.settled
  obtain ⟨entries', rfl, settled'⟩ := history'.settled
  obtain ⟨place, shows⟩ := settled.written rfl
  obtain ⟨place', shows'⟩ := settled'.written rfl
  have whole (entries : Entries) : (FileNode.file [Bytes.ofText entries.toText]).content =
      Bytes.ofText entries.toText := List.append_nil _
  refine ⟨⟨place, place', _, _, shows, shows', ?_⟩, ?_⟩
  · rw [whole, whole]
    change _ ↔ (∀ user, user ∈ entries.users ↔ user ∈ entries'.users) ∧
      ∀ file, file ∈ entries.files ↔ file ∈ entries'.files
    constructor
    · intro bytes
      have text := congrArg Bytes.text? bytes
      rw [Bytes.text?_ofText, Bytes.text?_ofText] at text
      have same := Entries.maps_eq_of_toText settled.sound settled'.sound (Option.some.inj text)
      have reordered := settled.sound.reordered settled'.sound.toDistinct same
      exact ⟨fun _ => reordered.users.mem_iff, fun _ => reordered.files.mem_iff⟩
    · rintro ⟨users, files⟩
      rw [Entries.toText_eq settled.sound.toDistinct settled'.sound.toDistinct settled.unique
        (Entries.maps_eq settled.sound.toDistinct settled'.sound.toDistinct users files)]
  · intro request staged order fits stages reordered
    obtain ⟨sound, unique⟩ := unique_of_staged settled.sound settled.unique fits stages
    have same := reordered.maps_eq sound
    exact Entries.toText_eq (reordered.sound sound).toDistinct sound.toDistinct
      (same ▸ unique) same

/-- Two users who are added in either order, once with the catalog opened anew in between,
    leave the same bytes at two paths. -/
theorem document_is_canonical_of_two_users :
    let path : Path := ⟨"catalog.json"⟩
    let path' : Path := ⟨"other.json"⟩
    let alice : UserRecord := ⟨⟨⟨1⟩⟩, "alice", [1, 2, 3]⟩
    let bob : UserRecord := ⟨⟨⟨2⟩⟩, "bob", [4, 5, 6]⟩
    ∃ tree tree' place place' pieces pieces',
      History path (.file path ⟨[alice, bob], []⟩) tree true ∧
        History path' (.file path' ⟨[bob, alice], []⟩) tree' true ∧
          tree.at? path = some (place, .file pieces) ∧
            tree'.at? path' = some (place', .file pieces') ∧
              (FileNode.file pieces).content = (FileNode.file pieces').content := by
  intro path path' alice bob
  have adds (user : UserRecord) := CatalogRequest.fits_insertUser user
  have nothing (path : Path) (pieces : List Bytes) :
      ({} : FileTree).find? (({} : FileTree).destination path) ≠ some (.file pieces) := by
    unfold FileTree.find?
    split
    · exact fun never => by cases never
    · exact fun never => by cases never
  have first : ∃ tree, History ⟨"catalog.json"⟩
      (.file ⟨"catalog.json"⟩ ⟨[alice, bob], []⟩) tree true := by
    have opens : (openFile ⟨"catalog.json"⟩).run {} = (.ok (.file ⟨"catalog.json"⟩ {}), {}) := rfl
    have one : ((CatalogRequest.insertUser alice).run (.file ⟨"catalog.json"⟩ {})).run {} =
        ((.done (.ok ()), .file ⟨"catalog.json"⟩ ⟨[alice], []⟩), { entries :=
          [(["catalog.json"], .file [Bytes.ofText (Entries.toText ⟨[alice], []⟩)])] }) := rfl
    have two : ((CatalogRequest.insertUser bob).run (.file ⟨"catalog.json"⟩ ⟨[alice], []⟩)).run
        { entries := [(["catalog.json"], .file [Bytes.ofText (Entries.toText ⟨[alice], []⟩)])] } =
        ((.done (.ok ()), .file ⟨"catalog.json"⟩ ⟨[alice, bob], []⟩), { entries :=
          [(["catalog.json"], .file [Bytes.ofText (Entries.toText ⟨[alice, bob], []⟩)])] }) := rfl
    have history := History.opened FileTree.wellFormed_empty (nothing _)
      (FileTree.runs_failing (Script.runs_tree.2 opens))
    have history := history.calls (by decide) (adds alice) (Script.runs_tree.2 one)
    exact ⟨_, history.calls (by decide) (adds bob) (Script.runs_tree.2 two)⟩
  have second : ∃ tree, History ⟨"other.json"⟩
      (.file ⟨"other.json"⟩ ⟨[bob, alice], []⟩) tree true := by
    let kept : FileTree :=
      { entries := [(["other.json"], .file [Bytes.ofText (Entries.toText ⟨[bob], []⟩)])] }
    have opens : (openFile ⟨"other.json"⟩).run {} = (.ok (.file ⟨"other.json"⟩ {}), {}) := rfl
    have one : ((CatalogRequest.insertUser bob).run (.file ⟨"other.json"⟩ {})).run {} =
        ((.done (.ok ()), .file ⟨"other.json"⟩ ⟨[bob], []⟩), kept) := rfl
    have shows : kept.at? ⟨"other.json"⟩ = some (["other.json"],
        .file [Bytes.ofText (Entries.toText ⟨[bob], []⟩)]) := rfl
    have sound : (⟨[bob], []⟩ : Entries).Sound :=
      ⟨⟨List.nodup_singleton _, List.nodup_nil⟩, List.forall_mem_nil _⟩
    have written : (⟨[bob], []⟩ : Entries).written = ⟨[bob], []⟩ := by
      simp [Entries.written]
    have again : (openFile ⟨"other.json"⟩).run kept =
        (.ok (.file ⟨"other.json"⟩ ⟨[bob], []⟩), kept) := by
      rw [run_openFile, shows, opened_toText _ _ sound, written]
    have reopens : Script.Runs FileTree.disk kept
        (CatalogRequest.reopen.run (.file ⟨"other.json"⟩ ⟨[bob], []⟩))
        (.done (.ok ()), .file ⟨"other.json"⟩ ⟨[bob], []⟩) kept :=
      Script.runs_bind.2 ⟨_, _, Script.runs_tree.2 again, Script.runs_pure.2 ⟨rfl, rfl⟩⟩
    have two : ((CatalogRequest.insertUser alice).run (.file ⟨"other.json"⟩ ⟨[bob], []⟩)).run
        kept = ((.done (.ok ()), .file ⟨"other.json"⟩ ⟨[bob, alice], []⟩), { entries :=
          [(["other.json"], .file [Bytes.ofText (Entries.toText ⟨[bob, alice], []⟩)])] }) := rfl
    have history := History.opened FileTree.wellFormed_empty (nothing _)
      (FileTree.runs_failing (Script.runs_tree.2 opens))
    have history := history.calls (by decide) (adds bob) (Script.runs_tree.2 one)
    have fits : CatalogRequest.reopen.Fits := trivial
    have history := history.calls (by decide) fits reopens
    exact ⟨_, history.calls (by decide) (adds alice) (Script.runs_tree.2 two)⟩
  obtain ⟨tree, history⟩ := first
  obtain ⟨tree', history'⟩ := second
  obtain ⟨⟨place, place', pieces, pieces', shows, shows', same⟩, _⟩ :=
    document_is_canonical history history'
  refine ⟨tree, tree', place, place', pieces, pieces', history, history', shows, shows',
    same.2 ⟨fun user => ?_, fun file => Iff.rfl⟩⟩
  change user ∈ [alice, bob] ↔ user ∈ [bob, alice]
  rw [List.mem_pair, List.mem_pair, or_comm]

/-- Where the path of a catalog ends in `.tmp`, its document has no other place to be
    written to. A flush that fails may leave it empty: the catalog holds what it held when
    its document was whole, and the bytes are others. -/
theorem failed_flush_empties_document_in_its_own_place :
    let path : Path := ⟨"catalog.tmp"⟩
    let alice : UserRecord := ⟨⟨⟨1⟩⟩, "alice", [1, 2, 3]⟩
    let bob : UserRecord := ⟨⟨⟨2⟩⟩, "bob", [4, 5, 6]⟩
    let catalog : Catalog := .file path ⟨[alice], []⟩
    let document := Bytes.ofText (Entries.toText ⟨[alice], []⟩)
    temporary path = path ∧ document ≠ [] ∧
      ∃ tree tree' e, History path catalog tree true ∧
        tree.at? path = some (["catalog.tmp"], .file [document]) ∧
          Script.Runs FileTree.failing tree ((CatalogRequest.insertUser bob).run catalog)
              (.done (.error e), catalog) tree' ∧
            tree'.at? path = some (["catalog.tmp"], .file []) := by
  intro path alice bob catalog document
  let tree : FileTree := { entries := [(["catalog.tmp"], .file [document])] }
  let torn : FileTree := { entries := [(["catalog.tmp"], .file [])] }
  have nothing (pieces : List Bytes) :
      ({} : FileTree).find? (({} : FileTree).destination ⟨"catalog.tmp"⟩) ≠
        some (.file pieces) := by
    unfold FileTree.find?
    split
    · exact fun never => by cases never
    · exact fun never => by cases never
  have opens : (openFile ⟨"catalog.tmp"⟩).run {} = (.ok (.file ⟨"catalog.tmp"⟩ {}), {}) := rfl
  have one : ((CatalogRequest.insertUser alice).run (.file ⟨"catalog.tmp"⟩ {})).run {} =
      ((.done (.ok ()), .file ⟨"catalog.tmp"⟩ ⟨[alice], []⟩), tree) := rfl
  have history := History.opened FileTree.wellFormed_empty nothing
    (FileTree.runs_failing (Script.runs_tree.2 opens))
  have history := history.called (CatalogRequest.fits_insertUser alice)
    (FileTree.runs_failing (Script.runs_tree.2 one)) fun _ unflushed => by cases unflushed
  -- The first step of the flush makes the file empty, and then fails.
  have emptied : tree.Fails (.truncate ⟨"catalog.tmp"⟩)
      (.error (.other "No space left on device (os error 28)")) torn := .truncated rfl
  have fails : ∃ e, Script.Runs FileTree.failing tree
      ((CatalogRequest.insertUser bob).run (.file ⟨"catalog.tmp"⟩ ⟨[alice], []⟩))
        (.done (.error e), .file ⟨"catalog.tmp"⟩ ⟨[alice], []⟩) torn :=
    ⟨_, .step (.inr emptied) .done⟩
  obtain ⟨e, fails⟩ := fails
  have closed : opened ⟨"catalog.tmp"⟩ (some (["catalog.tmp"], .file [])) =
      .error (.storage "parsing catalog catalog.tmp") := rfl
  have shown : tree.at? ⟨"catalog.tmp"⟩ = some (["catalog.tmp"], .file [document]) := rfl
  have empty : torn.at? ⟨"catalog.tmp"⟩ = some (["catalog.tmp"], .file []) := rfl
  refine ⟨by decide, fun none => ?_, tree, torn, e, history, shown, fails, empty⟩
  -- What is whole opens, and what is empty does not.
  have sound : (⟨[alice], []⟩ : Entries).Sound :=
    ⟨⟨List.nodup_singleton _, List.nodup_nil⟩, List.forall_mem_nil _⟩
  have same : opened ⟨"catalog.tmp"⟩ (some (["catalog.tmp"], .file [document])) =
      opened ⟨"catalog.tmp"⟩ (some (["catalog.tmp"], .file [])) :=
    opened_congr _ _ (congrArg (· ++ []) none)
  rw [opened_toText _ _ sound, closed] at same
  cases same

end Catalog

end Strongroom
