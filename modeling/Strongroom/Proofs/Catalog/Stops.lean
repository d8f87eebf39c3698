import Strongroom.Proofs.Catalog.Remains

/-! # Stops in the midst of a call

The process may stop at any step of a call, also while some of the bytes of a
document are written. Opening the path anew then gives what the catalog held before
the call or what it holds after it.
-/

namespace Strongroom

namespace Catalog

variable {path : Path} {tree tree' : FileTree} {catalog : Catalog} {request : CatalogRequest}

theorem stopsAt_settle {changed undone : Catalog}
    (stops : (changed.settle undone).StopsAt tree tree') : changed.flush.StopsAt tree tree' := by
  rcases Script.StopsAt.bind stops with first | ⟨flushed, tree₁, runs, rest⟩
  · exact first
  · obtain rfl : tree' = tree₁ := by
      rcases flushed with e | _
      · exact Script.stopsAt_pure rest
      · exact Script.stopsAt_pure rest
    exact runs.stopsAt

/-- A step that changes nothing. -/
inductive Looks : Step → Prop where
  | look (path : Path) : Looks (.look path)
  | read (path : Path) : Looks (.read path)

theorem looks_openFile (path : Path) : (openFile path).Asks Looks := by
  have text : (Script.readText path).Asks Looks := by
    refine Script.Asks.bind ⟨.read path, fun _ => trivial⟩ fun data => ?_
    split
    · exact trivial
    · split
      · exact trivial
      · exact trivial
  refine Script.Asks.bind ⟨.look path, fun _ => trivial⟩ fun found => ?_
  split
  · refine text.bind fun read => ?_
    split
    · exact trivial
    · exact trivial
  · exact trivial

theorem Looks.keeps {s : Step} {reply : s.Reply} (looks : Looks s)
    (replied : FileTree.failing.replies tree s reply tree') : tree = tree' := by
  cases looks with
  | look | read =>
      rcases replied with replied | fails
      · exact congrArg Prod.snd replied
      · cases fails

/-- Where a call stops, nothing has been done yet, or the flush of its change has
    stopped. -/
theorem stopsAt_run (sound : catalog.entries.Sound) (fits : request.Fits)
    (stops : (request.run catalog).StopsAt tree tree') :
    tree' = tree ∨ ∃ entries, entries.Sound ∧ catalog.entries.maps.Changes request entries.maps ∧
      (catalog.withEntries entries).flush.StopsAt tree tree' := by
  have changed {changed undone : Catalog} {finish : Except Error Unit × Catalog →
      Script (CatalogAnswer × Catalog)} (ends : ∀ value, ∃ last, finish value = pure last)
      (stops : (changed.settle undone >>= finish).StopsAt tree tree') :
      changed.flush.StopsAt tree tree' := by
    rcases Script.StopsAt.bind stops with first | ⟨value, tree₁, runs, rest⟩
    · exact stopsAt_settle first
    · obtain ⟨last, same⟩ := ends value
      rw [same] at rest
      cases Script.stopsAt_pure rest
      exact stopsAt_settle runs.stopsAt
  cases request with
  | insert record =>
      rcases catalog.entries.insertFile_cases record with
        ⟨inserted, _, changes⟩ | ⟨e, refused, _⟩
      · have staged : catalog.stageFile record =
            .ok (catalog.withEntries (catalog.entries.putFile record)) := by
          rw [Catalog.stageFile, inserted]
          rfl
        rw [CatalogRequest.run, Catalog.insert, staged] at stops
        exact .inr ⟨_, sound.putFile fits, changes, changed (fun _ => ⟨_, rfl⟩) stops⟩
      · have staged : catalog.stageFile record = .error e := by
          rw [Catalog.stageFile, refused]
          rfl
        rw [CatalogRequest.run, Catalog.insert, staged] at stops
        exact .inl (Script.stopsAt_pure stops)
  | get id | list owner | wrappedKey id => exact .inl (Script.stopsAt_pure stops)
  | delete id owner =>
      rcases catalog.entries.deleteFile_cases id owner with
        ⟨file, deleted, _, changes⟩ | ⟨e, refused, _⟩
      · rw [CatalogRequest.run, Catalog.delete, deleted] at stops
        exact .inr ⟨_, sound.dropFile id, changes, changed (fun _ => ⟨_, rfl⟩) stops⟩
      · rw [CatalogRequest.run, Catalog.delete, refused] at stops
        exact .inl (Script.stopsAt_pure stops)
  | insertUser user =>
      rcases Entries.insertUser_cases sound.toDistinct user with
        ⟨inserted, _, changes⟩ | ⟨e, refused, _⟩
      · rw [CatalogRequest.run, Catalog.insertUser, inserted] at stops
        exact .inr ⟨_, sound.putUser user, changes, changed (fun _ => ⟨_, rfl⟩) stops⟩
      · rw [CatalogRequest.run, Catalog.insertUser, refused] at stops
        exact .inl (Script.stopsAt_pure stops)
  | reopen =>
      left
      cases catalog with
      | memory entries => exact Script.stopsAt_pure stops
      | file path entries =>
          have asks : (CatalogRequest.reopen.run (.file path entries)).Asks Looks := by
            refine (looks_openFile path).bind fun opened => ?_
            split
            · exact trivial
            · exact trivial
          have same : tree = tree' := stops.keeps asks
            (fun _ _ _ _ looks replied same => same.trans (looks.keeps replied))
            (fun _ _ never => by cases never) rfl
          exact same.symm

/-- A catalog of a file on a disk that is in order. -/
def Stands (path : Path) (catalog : Catalog) (tree : FileTree) : Prop :=
  ∃ entries, catalog = .file path entries ∧ entries.Sound ∧ Shows path (tree.at? path) tree

theorem InStep.stands (inStep : InStep path catalog tree) : Stands path catalog tree := by
  obtain ⟨entries, rfl, mirrors, shows⟩ := inStep
  exact ⟨entries, rfl, mirrors.sound, shows⟩

theorem Stands.run (stands : Stands path catalog tree) (fits : request.Fits)
    {answer : CatalogAnswer} {next : Catalog}
    (runs : Script.Runs FileTree.failing tree (request.run catalog) (answer, next) tree') :
    Stands path next tree' := by
  obtain ⟨entries, rfl, sound, shows⟩ := stands
  by_cases call : request = .reopen
  · subst call
    obtain ⟨result, tree₁, looked, rest⟩ := Script.runs_bind.1 runs
    obtain ⟨rfl, rfl⟩ := runs_openFile looked
    cases opens : opened path (tree₁.at? path) with
    | error e =>
        rw [opens] at rest
        obtain ⟨done, rfl⟩ := Script.runs_pure.1 rest
        cases done
        exact ⟨entries, rfl, sound, shows⟩
    | ok fresh =>
        rw [opens] at rest
        obtain ⟨done, rfl⟩ := Script.runs_pure.1 rest
        cases done
        obtain ⟨entries', rfl, sound'⟩ := sound_of_opened opens
        exact ⟨entries', rfl, sound', shows⟩
  · have inside : (Catalog.file path entries).entries.Sound := sound
    cases CatalogRequest.outcome_of_run call inside fits runs with
    | still => exact ⟨entries, rfl, sound, shows⟩
    | @kept after _ _ sound' _ flushed =>
        obtain ⟨_, shows', _⟩ := shows.remains flushed.stopsAt
        exact ⟨after, rfl, sound', shows'.here ▸ shows'⟩
    | @undone _ before _ _ _ _ _ flushed sound' _ =>
        obtain ⟨_, shows', _⟩ := shows.remains flushed.stopsAt
        exact ⟨before, rfl, sound', shows'.here ▸ shows'⟩

theorem Stands.reaches {first : Catalog} {tree₀ : FileTree} (start : Stands path first tree₀)
    (reaches : Reaches first tree₀ catalog tree) : Stands path catalog tree := by
  induction reaches with
  | refl => exact start
  | call _ fits runs ih => exact (ih start).run fits runs

/-- Wherever a call stops, what opens then is what opened before or what the catalog holds
    after the call. It does not open at all only where the document has no other place to
    be written to. -/
theorem Stands.stopsAt (stands : Stands path catalog tree) (fits : request.Fits)
    (stops : (request.run catalog).StopsAt tree tree') :
    opened path (tree'.at? path) = opened path (tree.at? path) ∨
      (∃ entries, catalog.entries.maps.Changes request entries.maps ∧ entries.Sound ∧
        opened path (tree'.at? path) = .ok (.file path entries)) ∨
        temporary path = path ∧ ∃ e, opened path (tree'.at? path) = .error e := by
  obtain ⟨entries, rfl, sound, shows⟩ := stands
  have inside : (Catalog.file path entries).entries.Sound := sound
  rcases stopsAt_run inside fits stops with rfl | ⟨entries', sound', changes, stops⟩
  · exact .inl rfl
  · obtain ⟨shown, shows', remains⟩ := shows.remains stops
    rw [shows'.here]
    rcases remains.opened sound' with same | written | cut
    · exact .inl same
    · refine .inr (.inl ⟨entries'.written, ?_, sound'.written, written⟩)
      rw [Entries.maps_written sound'.toDistinct]
      exact changes
    · exact .inr (.inr cut)

/-- Take a catalog that was opened where the folder around its path is there, or no name
    leads back, and that may have been called since, on a disk that fails. Wherever the
    process stops in the midst of a call, opening the path anew gives the maps as they were
    before the call or as they are after it. This asks that the document has a path of its
    own to be written to. Where it has none, opening may give an error, too, but nothing
    else. -/
theorem stopped_call_shows_before_or_after {first : Catalog} {tree₀ : FileTree}
    (formed : tree₀.WellFormed)
    (steady : (∃ place, tree₀.locate path = .ok place) ∨ ".." ∉ path.segments)
    (opens : (openFile path).run tree₀ = (.ok first, tree₀))
    (reaches : Reaches first tree₀ catalog tree) (fits : request.Fits)
    (stops : (request.run catalog).StopsAt tree tree') :
    (temporary path ≠ path →
        ∃ fresh, (openFile path).run tree' = (.ok (.file path fresh), tree') ∧ fresh.Distinct ∧
          (fresh.maps = catalog.entries.maps ∨
            catalog.entries.maps.Changes request fresh.maps)) ∧
      ((∀ shown, (openFile path).run tree = (.ok shown, tree) →
          shown.entries.maps = catalog.entries.maps) →
        ∀ fresh, (openFile path).run tree' = (.ok fresh, tree') →
          fresh.entries.maps = catalog.entries.maps ∨
            catalog.entries.maps.Changes request fresh.entries.maps) := by
  have inStep := inStep_of_openFile formed steady opens
  have outcome := (inStep.stands.reaches reaches).stopsAt fits stops
  constructor
  · intro beside
    obtain ⟨entries, rfl, mirrors, _⟩ := inStep.reaches beside reaches
    obtain ⟨fresh, opens', sound', same⟩ := mirrors.fresh
    rw [run_openFile]
    rcases outcome with unchanged | ⟨after, changes, sound'', opens''⟩ | ⟨never, _⟩
    · refine ⟨fresh, ?_, sound'.toDistinct, .inl same⟩
      rw [unchanged, opens']
    · refine ⟨after, ?_, sound''.toDistinct, .inr changes⟩
      rw [opens'']
    · exact absurd never beside
  · intro before fresh
    simp only [run_openFile, Prod.mk.injEq, and_true] at before ⊢
    intro opens'
    rcases outcome with unchanged | ⟨after, changes, _, opens''⟩ | ⟨_, e, closed⟩
    · rw [unchanged] at opens'
      exact .inl (before fresh opens')
    · rw [opens''] at opens'
      cases opens'
      exact .inr changes
    · rw [closed] at opens'
      cases opens'

/-- A first user on an empty disk: after any number of steps opening anew gives nobody, or
    the user. -/
theorem stopped_call_of_first_user :
    let path : Path := ⟨"catalog.json"⟩
    let alice : UserRecord := ⟨⟨⟨1⟩⟩, "alice", [1, 2, 3]⟩
    let script := (CatalogRequest.insertUser alice).run (.file path {})
    ({} : FileTree).WellFormed ∧ temporary path ≠ path ∧
      (∃ place, ({} : FileTree).locate path = .ok place) ∧
        (openFile path).run {} = (.ok (.file path {}), {}) ∧
          ∀ count, ∃ fresh, (openFile path).run (script.stopAfter count {}) =
              (.ok (.file path fresh), script.stopAfter count {}) ∧
            (fresh.maps = {} ∨ fresh.maps.user? alice.id = some alice) := by
  intro path alice script
  have leads : ({} : FileTree).locate ⟨"catalog.json"⟩ = .ok ["catalog.json"] := rfl
  have opens : (openFile ⟨"catalog.json"⟩).run {} = (.ok (.file ⟨"catalog.json"⟩ {}), {}) := rfl
  have fits := CatalogRequest.fits_insertUser alice
  refine ⟨FileTree.wellFormed_empty, by decide, ⟨_, leads⟩, opens, fun count => ?_⟩
  obtain ⟨fresh, opened, _, outcome⟩ :=
    (stopped_call_shows_before_or_after FileTree.wellFormed_empty (.inl ⟨_, leads⟩) opens .refl
      fits (Script.stopsAt_stopAfter count script {})).1 (by decide)
  refine ⟨fresh, opened, ?_⟩
  rcases outcome with same | changes
  · exact .inl same
  · right
    exact changes.newcomer

/-- Where the path of a catalog ends in `.tmp`, its document has no other place to be
    written to: the first step of a flush makes the file empty, and if the process stops
    then, nothing opens any more. -/
theorem stop_empties_document_in_its_own_place :
    let path : Path := ⟨"catalog.tmp"⟩
    let bob : UserRecord := ⟨⟨⟨2⟩⟩, "bob", [4, 5, 6]⟩
    let entries : Entries := ⟨[⟨⟨⟨1⟩⟩, "alice", [1, 2, 3]⟩], []⟩
    let tree : FileTree :=
      { entries := [(["catalog.tmp"], .file [Bytes.ofText entries.toText])] }
    temporary path = path ∧
      (∃ shown, (openFile path).run tree = (.ok (.file path shown), tree) ∧
        shown.maps = entries.maps) ∧
        ∃ tree' e, ((CatalogRequest.insertUser bob).run (.file path entries)).stopAfter 1 tree =
            tree' ∧ (openFile path).run tree' = (.error e, tree') := by
  intro path bob entries tree
  let tree' : FileTree := { entries := [(["catalog.tmp"], .file [])] }
  have shown : tree.at? ⟨"catalog.tmp"⟩ =
      some (["catalog.tmp"], .file [Bytes.ofText entries.toText]) := rfl
  have empty : tree'.at? ⟨"catalog.tmp"⟩ = some (["catalog.tmp"], .file []) := rfl
  have closed : opened ⟨"catalog.tmp"⟩ (some (["catalog.tmp"], .file [])) =
      .error (.storage "parsing catalog catalog.tmp") := rfl
  have stopped : ((CatalogRequest.insertUser bob).run
      (.file ⟨"catalog.tmp"⟩ entries)).stopAfter 1 tree = tree' := rfl
  have sound : entries.Sound :=
    ⟨⟨List.nodup_singleton _, List.nodup_nil⟩, List.forall_mem_nil _⟩
  refine ⟨by decide, ⟨entries.written, ?_, Entries.maps_written sound.toDistinct⟩, tree',
    .storage "parsing catalog catalog.tmp", stopped, ?_⟩
  · rw [run_openFile, shown, opened_toText path _ sound]
  · rw [run_openFile, empty, closed]

/-- Where a name leads back from a folder that is not there, a flush that stops may have
    made the folder. Then the path leads to a document that it did not show before. -/
theorem stop_uncovers_document :
    let path : Path := ⟨"a/../catalog.json"⟩
    let alice : UserRecord := ⟨⟨⟨1⟩⟩, "alice", [1, 2, 3]⟩
    let bob : UserRecord := ⟨⟨⟨2⟩⟩, "bob", [4, 5, 6]⟩
    let document := Bytes.ofText (Entries.toText ⟨[bob], []⟩)
    let tree : FileTree := { entries := [(["catalog.json"], .file [document])] }
    temporary path ≠ path ∧ (openFile path).run tree = (.ok (.file path {}), tree) ∧
      ∃ tree' shown, ((CatalogRequest.insertUser alice).run (.file path {})).stopAfter 2 tree =
          tree' ∧ (openFile path).run tree' = (.ok (.file path shown), tree') ∧
        shown.maps.user? bob.id = some bob := by
  intro path alice bob document tree
  let tree' : FileTree := { entries := [(["a"], .folder), (["catalog.json"], .file [document])] }
  have covered : tree.at? ⟨"a/../catalog.json"⟩ = none := rfl
  have shown : tree'.at? ⟨"a/../catalog.json"⟩ = some (["catalog.json"], .file [document]) := rfl
  have stopped : ((CatalogRequest.insertUser ⟨⟨⟨1⟩⟩, "alice", [1, 2, 3]⟩).run
      (.file ⟨"a/../catalog.json"⟩ {})).stopAfter 2 tree = tree' := rfl
  have sound : (⟨[bob], []⟩ : Entries).Sound :=
    ⟨⟨List.nodup_singleton _, List.nodup_nil⟩, List.forall_mem_nil _⟩
  refine ⟨by decide, ?_, tree', (⟨[bob], []⟩ : Entries).written, stopped, ?_, ?_⟩
  · rw [run_openFile, covered]
    rfl
  · rw [run_openFile, shown, opened_toText path _ sound]
  · rw [Entries.maps_written sound.toDistinct]
    rfl

end Catalog

end Strongroom
