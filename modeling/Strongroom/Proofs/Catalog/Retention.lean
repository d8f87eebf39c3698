import Strongroom.Proofs.Catalog.Interchange
import Strongroom.Proofs.Catalog.Remains

/-! # Users stay

Once a user is in a catalog, nothing takes the record away or changes it: no call,
no flush that fails, and not opening the file anew, whatever its path is. What is
left of a flush may not open any more, but what opens has the user.
-/

namespace Strongroom

namespace Catalog

variable {path : Path} {tree tree' : FileTree} {catalog next : Catalog} {entries after : Entries}
  {request : CatalogRequest} {answer : CatalogAnswer}

/-- Whatever opens at the path of a catalog has every user that the catalog has. -/
structure Remembers (path : Path) (entries : Entries) (tree : FileTree) : Prop where
  formed : tree.WellFormed
  steady {id : UserId} {user : UserRecord} : entries.maps.user? id = some user → tree.Steady path
  users {fresh : Catalog} {id : UserId} {user : UserRecord} :
    opened path (tree.at? path) = .ok fresh → entries.maps.user? id = some user →
      fresh.entries.maps.user? id = some user

theorem remembers_of_opened (formed : tree.WellFormed)
    (opens : opened path (tree.at? path) = .ok (.file path entries)) :
    Remembers path entries tree where
  formed := formed
  steady known := by
    cases here : tree.at? path with
    | none =>
        rw [here] at opens
        cases opens
        cases known
    | some found =>
        obtain ⟨place, node⟩ := found
        exact .inl ⟨place, (FileTree.at?_eq_some.1 here).1⟩
  users opens' known := by
    rw [opens] at opens'
    cases opens'
    exact known

/-- A flush that succeeds writes all users down. -/
theorem remembers_of_flush (sound : entries.Sound) (formed : tree.WellFormed)
    (runs : Script.Runs FileTree.failing tree (replaceDocument path entries.toText) (.ok ())
      tree') : Remembers path entries tree' := by
  obtain ⟨place, here⟩ := at?_of_replaceDocument runs
  refine ⟨formed_of_stop formed runs.stopsAt, ?_, ?_⟩
  · intro _ _ _
    exact .inl ⟨place, (FileTree.at?_eq_some.1 here).1⟩
  · intro fresh id user opens known
    rw [here, opened_toText path place sound] at opens
    cases opens
    rw [← Entries.maps_written sound.toDistinct] at known
    exact known

/-- A flush that does not takes no user away. -/
theorem Remembers.stopsAt (remembers : Remembers path entries tree) (sound : after.Sound)
    (more : ∀ {id user}, entries.maps.user? id = some user → after.maps.user? id = some user)
    (stops : (replaceDocument path after.toText).StopsAt tree tree') :
    Remembers path entries tree' := by
  have keeps {id : UserId} {user : UserRecord} (known : entries.maps.user? id = some user) :
      tree'.Steady path ∧ ∀ fresh, opened path (tree'.at? path) = .ok fresh →
        fresh.entries.maps.user? id = some user := by
    have shows : Shows path (tree.at? path) tree :=
      ⟨remembers.formed, remembers.steady known, rfl⟩
    obtain ⟨shown, shows', remains⟩ := shows.remains stops
    refine ⟨shows'.steady, fun fresh opens => ?_⟩
    rw [shows'.here] at opens
    rcases remains.opened sound with same | written | ⟨_, e, closed⟩
    · exact remembers.users (same ▸ opens) known
    · rw [written] at opens
      cases opens
      have known' := more known
      rw [← Entries.maps_written sound.toDistinct] at known'
      exact known'
    · rw [closed] at opens
      cases opens
  exact ⟨formed_of_stop remembers.formed stops, fun known => (keeps known).1,
    fun opens known => (keeps known).2 _ opens⟩

/-- A catalog whose users are there to stay. -/
structure Holds (catalog : Catalog) (tree : FileTree) : Prop where
  sound : catalog.entries.Sound
  file : ∀ path, catalog.path? = some path → Remembers path catalog.entries tree

def HasUsersOf (next catalog : Catalog) : Prop :=
  ∀ {id user}, catalog.entries.maps.user? id = some user → next.entries.maps.user? id = some user

theorem file_of_path? (known : catalog.path? = some path) :
    catalog = .file path catalog.entries := by
  cases catalog with
  | memory entries => cases known
  | file other entries =>
      cases known
      rfl

theorem Holds.reopen (holds : Holds catalog tree)
    (runs : Script.Runs FileTree.failing tree (CatalogRequest.reopen.run catalog) (answer, next)
      tree') : Holds next tree' ∧ HasUsersOf next catalog ∧ next.path? = catalog.path? := by
  cases catalog with
  | memory entries =>
      obtain ⟨done, rfl⟩ := Script.runs_pure.1 runs
      cases done
      exact ⟨⟨holds.sound, fun path never => by cases never⟩, fun known => known, rfl⟩
  | file path entries =>
      obtain ⟨result, tree₁, looked, rest⟩ := Script.runs_bind.1 runs
      obtain ⟨rfl, rfl⟩ := runs_openFile looked
      cases opens : opened path (tree₁.at? path) with
      | error e =>
          rw [opens] at rest
          obtain ⟨done, rfl⟩ := Script.runs_pure.1 rest
          cases done
          exact ⟨holds, fun known => known, rfl⟩
      | ok fresh =>
          rw [opens] at rest
          obtain ⟨done, rfl⟩ := Script.runs_pure.1 rest
          cases done
          have remembers := holds.file path rfl
          obtain ⟨entries', rfl, sound⟩ := sound_of_opened opens
          refine ⟨⟨sound, ?_⟩, fun known => remembers.users opens known, rfl⟩
          intro other same
          cases same
          exact remembers_of_opened remembers.formed opens

theorem Holds.run (holds : Holds catalog tree) (fits : request.Fits)
    (runs : Script.Runs FileTree.failing tree (request.run catalog) (answer, next) tree') :
    Holds next tree' ∧ HasUsersOf next catalog ∧ next.path? = catalog.path? := by
  by_cases call : request = .reopen
  · subst call
    exact holds.reopen runs
  · have grows {after : Entries} (changes : catalog.entries.maps.Changes request after.maps)
        {id : UserId} {user : UserRecord} (known : catalog.entries.maps.user? id = some user) :
        after.maps.user? id = some user :=
      (Maps.Answers.changed changes rfl).keeps_user known
    cases CatalogRequest.outcome_of_run call holds.sound fits runs with
    | still => exact ⟨holds, fun known => known, rfl⟩
    | @kept after _ _ sound changes flushed =>
        refine ⟨⟨?_, fun path known => ?_⟩, ?_, path?_withEntries _ _⟩
        · rw [entries_withEntries]
          exact sound
        · rw [path?_withEntries] at known
          rw [file_of_path? known] at flushed ⊢
          exact remembers_of_flush sound (holds.file path known).formed flushed
        · intro id user known
          rw [entries_withEntries]
          exact grows changes known
    | @undone after before _ _ _ sound changes flushed sound' same =>
        refine ⟨⟨?_, fun path known => ?_⟩, ?_, path?_withEntries _ _⟩
        · rw [entries_withEntries]
          exact sound'
        · rw [path?_withEntries] at known
          have remembers := (holds.file path known)
          rw [file_of_path? known] at flushed
          have remembers' := remembers.stopsAt sound (grows changes) flushed.stopsAt
          rw [entries_withEntries]
          exact ⟨remembers'.formed, fun known => remembers'.steady (same ▸ known),
            fun opens known => remembers'.users opens (same ▸ known)⟩
        · intro id user known
          rw [entries_withEntries, same]
          exact known

theorem Holds.reaches {first : Catalog} {tree₀ : FileTree} (start : Holds first tree₀)
    (reaches : Reaches first tree₀ catalog tree) :
    Holds catalog tree ∧ HasUsersOf catalog first ∧ catalog.path? = first.path? := by
  induction reaches with
  | refl => exact ⟨start, fun known => known, rfl⟩
  | call _ fits runs ih =>
      obtain ⟨holds, users, path⟩ := ih start
      obtain ⟨holds', users', path'⟩ := holds.run fits runs
      exact ⟨holds', fun known => users' (users known), path'.trans path⟩

end Catalog

end Strongroom
