import Strongroom.Proofs.Catalog.Calls
import Strongroom.Proofs.Catalog.Flush

/-! # What a catalog holds is on disk

A catalog of a file that is opened anew holds what the one in memory holds, after
every call and whatever fails in between. A call that fails leaves both as they
were.
-/

namespace Strongroom

theorem Bytes.text?_ofText (text : String) : Bytes.text? (Bytes.ofText text) = some text := by
  change String.fromUTF8? ⟨text.toUTF8.data.toList.toArray⟩ = some text
  rw [Array.toArray_toList]
  have valid : text.toUTF8.IsValidUTF8 := text.isValidUTF8
  rw [String.fromUTF8?, dif_pos valid]
  rfl

namespace Catalog

variable {path : Path} {tree tree' : FileTree}

/-- What opening a catalog gives, by what its path shows. -/
def opened (path : Path) : Option (Location × FileNode) → Except Error Catalog
  | none => .ok (.file path {})
  | some (_, .folder) => .error (.io DiskFault.isFolder.message)
  | some (_, .file pieces) =>
    match Bytes.text? (FileNode.file pieces).content with
    | none => .error (.io DiskFault.notText.message)
    | some text => (Catalog.read path text).map (.file path)

theorem runs_look {kind : Option FileKind}
    (runs : Script.Runs FileTree.failing tree (Script.ask (.look path)) kind tree') :
    kind = (tree.at? path).map (·.2.kind) ∧ tree' = tree := by
  obtain ⟨reply, tree₁, replied, rest⟩ := Script.runs_step.1 runs
  obtain ⟨rfl, rfl⟩ := Script.runs_done.1 rest
  rcases replied with replied | fails
  · cases replied
    exact ⟨rfl, rfl⟩
  · cases fails

theorem runs_read {data : Except DiskFault Bytes}
    (runs : Script.Runs FileTree.failing tree (Script.ask (.read path)) data tree')
    {place : Location} {node : FileNode} (shows : tree.at? path = some (place, node)) :
    tree' = tree ∧ data = match node with
      | .folder => .error .isFolder
      | .file pieces => .ok (FileNode.file pieces).content := by
  obtain ⟨reply, tree₁, replied, rest⟩ := Script.runs_step.1 runs
  obtain ⟨rfl, rfl⟩ := Script.runs_done.1 rest
  rcases replied with replied | fails
  · have resolved := FileTree.resolve_of_at? shows
    refine ⟨congrArg Prod.snd replied.symm, (congrArg Prod.fst replied).symm.trans ?_⟩
    simp only [FileTree.perform, resolved]
    cases node with
    | folder | file => rfl
  · cases fails

/-- Opening only looks, so it does not fail on a disk that fails. -/
theorem runs_openFile {result : Except Error Catalog}
    (runs : Script.Runs FileTree.failing tree (openFile path) result tree') :
    result = opened path (tree.at? path) ∧ tree' = tree := by
  obtain ⟨there, tree₁, looked, rest⟩ := Script.runs_bind.1 runs
  obtain ⟨kind, tree₂, asked, done⟩ := Script.runs_bind.1 looked
  obtain ⟨rfl, rfl⟩ := runs_look asked
  obtain ⟨rfl, rfl⟩ := Script.runs_pure.1 done
  cases shows : tree₁.at? path with
  | none =>
      rw [shows] at rest
      exact Script.runs_pure.1 rest
  | some found =>
      obtain ⟨place, node⟩ := found
      rw [shows, Option.map_some, Option.isSome_some, if_pos rfl] at rest
      obtain ⟨text, tree₂, given, last⟩ := Script.runs_bind.1 rest
      obtain ⟨data, tree₃, asked, given⟩ := Script.runs_bind.1 given
      obtain ⟨rfl, rfl⟩ := runs_read asked shows
      cases node with
      | folder =>
          obtain ⟨rfl, rfl⟩ := Script.runs_pure.1 given
          exact Script.runs_pure.1 last
      | file pieces =>
          dsimp only [opened] at given ⊢
          cases read : Bytes.text? (FileNode.file pieces).content with
          | none =>
              rw [read] at given
              obtain ⟨rfl, rfl⟩ := Script.runs_pure.1 given
              exact Script.runs_pure.1 last
          | some text =>
              rw [read] at given
              obtain ⟨rfl, rfl⟩ := Script.runs_pure.1 given
              exact Script.runs_pure.1 last

theorem run_openFile (path : Path) (tree : FileTree) :
    (openFile path).run tree = (opened path (tree.at? path), tree) := by
  obtain ⟨result, same⟩ := runs_openFile (FileTree.runs_failing (Script.runs_tree.2 rfl))
  exact Prod.ext result same

theorem opened_of_openFile {catalog : Catalog}
    (opens : (openFile path).run tree = (.ok catalog, tree)) :
    opened path (tree.at? path) = .ok catalog := by
  rw [run_openFile] at opens
  exact congrArg Prod.fst opens

theorem opened_toText (path : Path) (place : Location) {entries : Entries}
    (sound : entries.Sound) :
    opened path (some (place, .file [Bytes.ofText entries.toText])) =
      .ok (.file path entries.written) := by
  have whole : (FileNode.file [Bytes.ofText entries.toText]).content =
      Bytes.ofText entries.toText := List.append_nil _
  simp only [opened, whole, Bytes.text?_ofText, read_toText path sound.toDistinct sound.fits]
  rfl

/-- A catalog that was opened holds what documents can hold. -/
theorem sound_of_opened {shown : Option (Location × FileNode)} {catalog : Catalog}
    (opens : opened path shown = .ok catalog) :
    ∃ entries, catalog = .file path entries ∧ entries.Sound := by
  unfold opened at opens
  split at opens
  · cases opens
    exact ⟨{}, rfl, ⟨List.nodup_nil, List.nodup_nil⟩, List.forall_mem_nil _⟩
  · cases opens
  · split at opens
    · cases opens
    · rename_i text _
      cases read : Catalog.read path text with
      | error e =>
          rw [read] at opens
          cases opens
      | ok entries =>
          rw [read] at opens
          cases opens
          obtain ⟨distinct, fits⟩ := sound_of_read read
          exact ⟨entries, rfl, distinct, fits⟩

/-- A catalog holds what it would hold if it were opened anew. -/
structure Mirrors (path : Path) (tree : FileTree) (entries : Entries) : Prop where
  sound : entries.Sound
  fresh : ∃ fresh, opened path (tree.at? path) = .ok (.file path fresh) ∧ fresh.Sound ∧
    fresh.maps = entries.maps

theorem mirrors_of_flush {entries : Entries} {place : Location} (sound : entries.Sound)
    (shows : tree.at? path = some (place, .file [Bytes.ofText entries.toText])) :
    Mirrors path tree entries := by
  refine ⟨sound, entries.written, ?_, sound.written,
    Entries.maps_written sound.toDistinct⟩
  rw [shows, opened_toText path place sound]

/-- One call keeps memory and file alike, and leaves both as they were if it fails. -/
theorem Mirrors.run (beside : temporary path ≠ path) {entries : Entries}
    (mirrors : Mirrors path tree entries) (shows : Shows path (tree.at? path) tree)
    {request : CatalogRequest} (fits : request.Fits) {answer : CatalogAnswer} {catalog : Catalog}
    (runs : Script.Runs FileTree.failing tree (request.run (.file path entries))
      (answer, catalog) tree') :
    ∃ entries', catalog = .file path entries' ∧ Mirrors path tree' entries' ∧
      Shows path (tree'.at? path) tree' ∧
        (∃ flushed, entries.maps.Answers flushed request answer entries'.maps) ∧
          ((∃ e, answer = .done (.error e)) →
            entries'.maps = entries.maps ∧ tree'.at? path = tree.at? path) := by
  by_cases call : request = .reopen
  · subst call
    obtain ⟨fresh, opens, sound, same⟩ := mirrors.fresh
    obtain ⟨result, tree₁, looked, rest⟩ := Script.runs_bind.1 runs
    obtain ⟨rfl, rfl⟩ := runs_openFile looked
    rw [opens] at rest
    obtain ⟨done, rfl⟩ := Script.runs_pure.1 rest
    cases done
    refine ⟨fresh, rfl, ⟨sound, fresh, opens, sound, rfl⟩, shows, ⟨.ok (), ?_⟩, ?_⟩
    · rw [same]
      exact .shown .reopen
    · rintro ⟨e, never⟩
      cases never
  · have sound : (Catalog.file path entries).entries.Sound := mirrors.sound
    have outcome := CatalogRequest.outcome_of_run call sound fits runs
    cases outcome with
    | still _ answers =>
        exact ⟨entries, rfl, mirrors, shows, ⟨.ok (), answers _⟩, fun _ => ⟨rfl, rfl⟩⟩
    | @kept after _ _ sound changes flushed =>
        rcases shows.replaceDocument beside flushed with ⟨_, never, _⟩ | ⟨_, place, shows'⟩
        · cases never
        · refine ⟨after, rfl, mirrors_of_flush sound shows'.here, ?_,
            ⟨.ok (), .changed changes rfl⟩, ?_⟩
          · exact shows'.here ▸ shows'
          · rintro ⟨e, never⟩
            cases never
    | @undone after before e _ _ _ changes flushed sound same =>
        rcases shows.replaceDocument beside flushed with ⟨_, _, shows'⟩ | ⟨never, _⟩
        · obtain ⟨fresh, opens, sound', same'⟩ := mirrors.fresh
          have here := shows'.here
          refine ⟨before, rfl, ⟨sound, fresh, ?_, sound', same'.trans same.symm⟩, ?_,
            ⟨.error e, ?_⟩, fun _ => ⟨same, here⟩⟩
          · rw [here]
            exact opens
          · rw [here]
            exact shows'
          · rw [same]
            exact .lost changes rfl
        · cases never

/-- The calls that somebody makes, one after the other, on a disk that fails. -/
inductive Reaches : Catalog → FileTree → Catalog → FileTree → Prop where
  | refl {catalog : Catalog} {tree : FileTree} : Reaches catalog tree catalog tree
  | call {first catalog next : Catalog} {tree₀ tree tree' : FileTree} {request : CatalogRequest}
      {answer : CatalogAnswer} :
    Reaches first tree₀ catalog tree → request.Fits →
      Script.Runs FileTree.failing tree (request.run catalog) (answer, next) tree' →
        Reaches first tree₀ next tree'

/-- A catalog of a file that is as it would be if it were opened anew. -/
def InStep (path : Path) (catalog : Catalog) (tree : FileTree) : Prop :=
  ∃ entries, catalog = .file path entries ∧ Mirrors path tree entries ∧
    Shows path (tree.at? path) tree

theorem inStep_of_openFile {catalog : Catalog} (formed : tree.WellFormed)
    (steady : tree.Steady path) (opens : (openFile path).run tree = (.ok catalog, tree)) :
    InStep path catalog tree := by
  have opens := opened_of_openFile opens
  obtain ⟨entries, rfl, sound⟩ := sound_of_opened opens
  exact ⟨entries, rfl, ⟨sound, entries, opens, sound, rfl⟩, formed, steady, rfl⟩

/-- What one call keeps, all of them keep. -/
theorem InStep.reaches {first catalog : Catalog} {tree₀ : FileTree} (beside : temporary path ≠ path)
    (start : InStep path first tree₀) (reaches : Reaches first tree₀ catalog tree) :
    InStep path catalog tree := by
  induction reaches with
  | refl => exact start
  | call _ fits runs ih =>
      obtain ⟨entries, rfl, mirrors, shows⟩ := ih start
      obtain ⟨entries', rfl, mirrors', shows', _⟩ := mirrors.run beside shows fits runs
      exact ⟨entries', rfl, mirrors', shows'⟩

/-- Take a catalog that was opened where the document beside it has another path and
    the folder around it is there, or no name leads back. Whatever is called and
    whatever fails, opening it anew gives the maps in memory, which are empty if there
    is no file. Every call is answered from these maps, and one that fails leaves them
    and the file as they were. -/
theorem file_mirrors_memory {catalog first : Catalog} {tree₀ : FileTree}
    (formed : tree₀.WellFormed) (beside : temporary path ≠ path)
    (steady : (∃ place, tree₀.locate path = .ok place) ∨ ".." ∉ path.segments)
    (opens : (openFile path).run tree₀ = (.ok first, tree₀))
    (reaches : Reaches first tree₀ catalog tree) :
    (∃ fresh, (openFile path).run tree = (.ok (.file path fresh), tree) ∧ fresh.Distinct ∧
        catalog.entries.Distinct ∧ fresh.maps = catalog.entries.maps) ∧
      (tree.at? path = none → catalog.entries.maps = {}) ∧
        ∀ request answer next tree', request.Fits →
          Script.Runs FileTree.failing tree (request.run catalog) (answer, next) tree' →
            (∃ flushed, catalog.entries.maps.Answers flushed request answer next.entries.maps) ∧
              ((∃ e, answer = .done (.error e)) →
                next.entries.maps = catalog.entries.maps ∧ tree'.at? path = tree.at? path) := by
  rw [run_openFile] at opens
  obtain ⟨entries, rfl, sound⟩ := sound_of_opened (congrArg Prod.fst opens)
  have start : InStep path (.file path entries) tree₀ :=
    ⟨entries, rfl, ⟨sound, entries, congrArg Prod.fst opens, sound, rfl⟩, formed, steady, rfl⟩
  obtain ⟨entries, rfl, mirrors, shows⟩ := start.reaches beside reaches
  obtain ⟨fresh, opens, distinct, same⟩ := mirrors.fresh
  refine ⟨⟨fresh, ?_, distinct.toDistinct, mirrors.sound.toDistinct, same⟩, ?_, ?_⟩
  · rw [run_openFile, opens]
  · intro nothing
    rw [nothing] at opens
    cases opens
    exact same.symm
  · intro request answer next tree' fits runs
    obtain ⟨entries', rfl, _, _, answers, failed⟩ := mirrors.run beside shows fits runs
    exact ⟨answers, failed⟩

/-- A first user on an empty disk, who is there when the catalog is opened anew. -/
theorem file_mirrors_memory_of_first_user :
    let path : Path := ⟨"catalog.json"⟩
    let alice : UserRecord := ⟨⟨⟨1⟩⟩, "alice", [1, 2, 3]⟩
    ({} : FileTree).WellFormed ∧ temporary path ≠ path ∧
      (∃ place, ({} : FileTree).locate path = .ok place) ∧
        (openFile path).run {} = (.ok (.file path {}), {}) ∧
          ∃ catalog tree fresh, Reaches (.file path {}) {} catalog tree ∧
            (openFile path).run tree = (.ok (.file path fresh), tree) ∧
              fresh.maps.user? alice.id = some alice := by
  intro path alice
  have formed : ({} : FileTree).WellFormed := by
    refine ⟨fun {place name node} below => ?_, rfl⟩
    cases place with
    | nil => rfl
    | cons => cases below
  have leads : ({} : FileTree).locate ⟨"catalog.json"⟩ = .ok ["catalog.json"] := rfl
  have opens : (openFile ⟨"catalog.json"⟩).run {} = (.ok (.file ⟨"catalog.json"⟩ {}), {}) := rfl
  have called : ((CatalogRequest.insertUser alice).run (.file ⟨"catalog.json"⟩ {})).run {} =
      ((.done (.ok ()), .file ⟨"catalog.json"⟩ ⟨[alice], []⟩),
        { entries := [(["catalog.json"], .file [Bytes.ofText (Entries.toText ⟨[alice], []⟩)])] }) :=
    rfl
  have fits := CatalogRequest.fits_insertUser alice
  have reaches : Reaches (.file ⟨"catalog.json"⟩ {}) {} _ _ :=
    .call .refl fits (FileTree.runs_failing (Script.runs_tree.2 called))
  obtain ⟨⟨fresh, opened, _, _, same⟩, _⟩ :=
    file_mirrors_memory formed (by decide) (.inl ⟨_, leads⟩) opens reaches
  refine ⟨formed, by decide, ⟨_, leads⟩, opens, _, _, fresh, reaches, opened, ?_⟩
  rw [same]
  rfl

/-- Where a name leads back from a folder that is not there, a flush that fails may
    still make the folder. Then the path leads to a document that it did not show
    before, and opening the catalog anew gives a user that memory does not have. -/
theorem failed_flush_uncovers_document :
    let path : Path := ⟨"a/../catalog.json"⟩
    let alice : UserRecord := ⟨⟨⟨1⟩⟩, "alice", [1, 2, 3]⟩
    let bob : UserRecord := ⟨⟨⟨2⟩⟩, "bob", [4, 5, 6]⟩
    let document := Bytes.ofText (Entries.toText ⟨[bob], []⟩)
    let tree : FileTree :=
      { entries := [(["catalog.json"], .file [document]), (["catalog.tmp"], .folder)] }
    tree.WellFormed ∧ temporary path ≠ path ∧
      (openFile path).run tree = (.ok (.file path {}), tree) ∧
        ∃ e tree', ((CatalogRequest.insertUser alice).run (.file path {})).run tree =
            ((.done (.error e), .file path {}), tree') ∧
          tree.at? path = none ∧ tree'.at? path = some (["catalog.json"], .file [document]) ∧
            ∃ fresh, (openFile path).run tree' = (.ok (.file path fresh), tree') ∧
              fresh.maps.user? bob.id = some bob ∧ ({} : Maps).user? bob.id = none := by
  intro path alice bob document tree
  have formed : tree.WellFormed := by
    refine ⟨fun {place name node} below => ?_, rfl⟩
    cases place with
    | nil => rfl
    | cons first rest =>
        have different (single : String) : (first :: (rest ++ [name]) == [single]) = false := by
          simp
        simp [tree, FileTree.find?, List.lookup_cons, different] at below
  let tree' : FileTree :=
    { entries :=
        [(["a"], .folder), (["catalog.json"], .file [document]), (["catalog.tmp"], .folder)] }
  have covered : tree.at? ⟨"a/../catalog.json"⟩ = none := rfl
  have shown : tree'.at? ⟨"a/../catalog.json"⟩ = some (["catalog.json"], .file [document]) := rfl
  have called : ∃ e,
      ((CatalogRequest.insertUser alice).run (.file ⟨"a/../catalog.json"⟩ {})).run tree =
        ((.done (.error e), .file ⟨"a/../catalog.json"⟩ {}), tree') := ⟨_, rfl⟩
  obtain ⟨e, called⟩ := called
  have sound : (⟨[bob], []⟩ : Entries).Sound :=
    ⟨⟨List.nodup_singleton _, List.nodup_nil⟩, List.forall_mem_nil _⟩
  refine ⟨formed, by decide, ?_, e, tree', called, covered, shown,
    (⟨[bob], []⟩ : Entries).written, ?_, ?_, rfl⟩
  · rw [run_openFile]
    exact congrArg (fun shown => (opened path shown, tree)) covered
  · rw [run_openFile]
    refine congrArg (fun opened => (opened, tree')) ?_
    exact (congrArg (opened path) shown).trans (opened_toText path _ sound)
  · rw [Entries.maps_written sound.toDistinct]
    rfl

end Catalog

end Strongroom
