import Strongroom.Proofs.Catalog.Maps

/-! # Calls of a catalog

Both kinds of catalogs answer calls as the maps do that they hold. A change is
made in memory first and then flushed; if the flush fails the maps are as before.
-/

namespace Strongroom

variable {δ : Type} {disk : Disk δ} {d d' : δ}

namespace CatalogRequest

def run (catalog : Catalog) : CatalogRequest → Script (CatalogAnswer × Catalog)
  | .insert record => do
    let (result, catalog) ← catalog.insert record
    return (.done result, catalog)
  | .get id => return (.file (catalog.file? id), catalog)
  | .delete id owner => do
    let (result, catalog) ← catalog.delete id owner
    return (.done result, catalog)
  | .list owner => return (.files (catalog.filesOf owner), catalog)
  | .insertUser user => do
    let (result, catalog) ← catalog.insertUser user
    return (.done result, catalog)
  | .wrappedKey id => return (.key (catalog.wrappedKey? id), catalog)
  | .reopen =>
    match catalog with
    | .memory _ => return (.done (.ok ()), catalog)
    | .file path _ => do
      match ← Catalog.openFile path with
      | .ok opened => return (.done (.ok ()), opened)
      | .error e => return (.done (.error e), catalog)

/-- The catalog that a call would flush, if it changes anything. -/
def staged? (catalog : Catalog) : CatalogRequest → Option Catalog
  | .insert record => (catalog.stageFile record).toOption
  | .delete id owner =>
    (catalog.entries.deleteFile id owner).toOption.map fun (_, entries) =>
      catalog.withEntries entries
  | .insertUser user => (catalog.entries.insertUser user).toOption.map catalog.withEntries
  | _ => none

end CatalogRequest

namespace Entries

variable {entries entries' : Entries}

theorem Sound.putFile (sound : entries.Sound) {file : FileRecord} (fits : file.Fits) :
    (entries.putFile file).Sound :=
  ⟨sound.toDistinct.putFile file, sound.fits.putFile fits⟩

theorem Sound.putUser (sound : entries.Sound) (user : UserRecord) : (entries.putUser user).Sound :=
  ⟨sound.toDistinct.putUser user, sound.fits⟩

theorem Sound.dropFile (sound : entries.Sound) (id : FileId) : (entries.dropFile id).Sound :=
  ⟨sound.toDistinct.dropFile id, fun file member => sound.fits file (List.mem_of_mem_filter member)⟩

theorem insertFile_cases (entries : Entries) (file : FileRecord) :
    (entries.insertFile file = .ok (entries.putFile file) ∧
        (entries.putFile file).dropFile file.id = entries ∧
          entries.maps.Changes (.insert file) (entries.putFile file).maps) ∨
      ∃ e, entries.insertFile file = .error e ∧ entries.maps.Refuses (.insert file) e := by
  unfold insertFile
  cases found : entries.file? file.id with
  | some other => exact .inr ⟨_, rfl, .insert found⟩
  | none =>
      have absent : ∀ other ∈ entries.files, other.id ≠ file.id := by
        simpa [Entries.file?] using found
      have new : file.id ∉ entries.files.map FileRecord.id := by
        rintro member
        obtain ⟨other, there, same⟩ := List.mem_map.1 member
        exact absent other there same
      have kept : entries.files.filter (fun other => other.id ≠ file.id) = entries.files :=
        List.filter_eq_self.2 fun other member => by simpa using absent other member
      left
      refine ⟨by rw [putFile_of_new new]; rfl, ?_, ?_⟩
      · rw [putFile_of_new new]
        simp only [Entries.dropFile, List.filter_append, kept]
        simp
      · rw [maps_putFile]
        exact .insert found

theorem deleteFile_cases (entries : Entries) (id : FileId) (owner : UserId) :
    (∃ file, entries.deleteFile id owner = .ok (file, entries.dropFile id) ∧
        entries.file? id = some file ∧
          entries.maps.Changes (.delete id owner) (entries.dropFile id).maps) ∨
      ∃ e, entries.deleteFile id owner = .error e ∧ entries.maps.Refuses (.delete id owner) e := by
  unfold deleteFile
  cases found : entries.file? id with
  | none =>
      refine .inr ⟨_, rfl, .delete fun file there => ?_⟩
      have there : entries.file? id = some file := there
      rw [found] at there
      cases there
  | some file =>
      by_cases owned : file.owner = owner
      · left
        refine ⟨file, if_pos owned, rfl, ?_⟩
        rw [maps_dropFile]
        exact .delete found owned
      · right
        refine ⟨_, if_neg owned, .delete fun other there => ?_⟩
        have there : entries.file? id = some other := there
        rw [found] at there
        cases there
        exact owned

theorem insertUser_cases (distinct : entries.Distinct) (user : UserRecord) :
    (entries.insertUser user = .ok (entries.putUser user) ∧
        (entries.putUser user).dropUser user.id = entries ∧
          entries.maps.Changes (.insertUser user) (entries.putUser user).maps) ∨
      ∃ e, entries.insertUser user = .error e ∧ entries.maps.Refuses (.insertUser user) e := by
  unfold insertUser
  cases found : entries.user? user.id with
  | some other => exact .inr ⟨_, rfl, .known found⟩
  | none =>
      have absent : ∀ other ∈ entries.users, other.id ≠ user.id := by
        simpa [Entries.user?] using found
      by_cases taken : entries.users.any fun other => other.login = user.login
      · right
        obtain ⟨other, there, same⟩ := List.any_eq_true.1 taken
        have known : entries.maps.user? other.id = some other :=
          distinct.user?_eq_some.2 ⟨there, rfl⟩
        refine ⟨.invalidInput s!"login {Text.quote user.login} already taken", ?_,
          .taken found known (by simpa using same)⟩
        simp [taken]
      · left
        have new : user.id ∉ entries.users.map UserRecord.id := by
          rintro member
          obtain ⟨other, there, same⟩ := List.mem_map.1 member
          exact absent other there same
        refine ⟨?_, ?_, ?_⟩
        · rw [putUser_of_new new]
          simp [taken]
        · rw [putUser_of_new new]
          exact dropUser_append absent
        · rw [maps_putUser]
          refine .insertUser found fun id other there same => taken ?_
          obtain ⟨member, _⟩ := distinct.user?_eq_some.1 there
          exact List.any_eq_true.2 ⟨other, member, by simpa using same⟩

end Entries

theorem Catalog.unstageFile_withEntries (catalog : Catalog) (entries : Entries) (id : FileId) :
    (catalog.withEntries entries).unstageFile id = catalog.withEntries (entries.dropFile id) := by
  cases catalog with
  | memory | file => rfl

namespace CatalogRequest

/-- What a call has done: it changed nothing, or its change was flushed, or it was
    taken back. -/
inductive Outcome (disk : Disk δ) (catalog : Catalog) (d : δ) (request : CatalogRequest) :
    CatalogAnswer → Catalog → δ → Prop where
  | still {answer : CatalogAnswer} :
    request.staged? catalog = none →
      (∀ flushed, catalog.entries.maps.Answers flushed request answer catalog.entries.maps) →
        Outcome disk catalog d request answer catalog d
  | kept {entries : Entries} {d' : δ} :
    request.staged? catalog = some (catalog.withEntries entries) → entries.Sound →
      catalog.entries.maps.Changes request entries.maps →
        Script.Runs disk d (catalog.withEntries entries).flush (.ok ()) d' →
          Outcome disk catalog d request (.done (.ok ())) (catalog.withEntries entries) d'
  | undone {entries before : Entries} {e : Error} {d' : δ} :
    request.staged? catalog = some (catalog.withEntries entries) → entries.Sound →
      catalog.entries.maps.Changes request entries.maps →
        Script.Runs disk d (catalog.withEntries entries).flush (.error e) d' →
          before.Sound → before.maps = catalog.entries.maps →
            Outcome disk catalog d request (.done (.error e)) (catalog.withEntries before) d'

variable {catalog catalog' : Catalog} {request : CatalogRequest} {answer : CatalogAnswer}

/-- What was staged is kept or taken back with its flush. -/
theorem outcome_of_settle {entries before : Entries}
    (staged : request.staged? catalog = some (catalog.withEntries entries))
    (sound : entries.Sound) (changes : catalog.entries.maps.Changes request entries.maps)
    (restored : before.Sound) (same : before.maps = catalog.entries.maps)
    (runs : Script.Runs disk d
      (do
        let (result, catalog) ← (catalog.withEntries entries).settle (catalog.withEntries before)
        return (CatalogAnswer.done result, catalog))
      (answer, catalog') d') :
    Outcome disk catalog d request answer catalog' d' := by
  obtain ⟨⟨result, settled⟩, d₁, settles, rest⟩ := Script.runs_bind.1 runs
  obtain ⟨same', rfl⟩ := Script.runs_pure.1 rest
  cases same'
  obtain ⟨flushed, outcome⟩ := Catalog.runs_settle settles
  rcases outcome with ⟨rfl, rfl⟩ | ⟨e, rfl, rfl⟩
  · exact .kept staged sound changes flushed
  · exact .undone staged sound changes flushed restored same

theorem outcome_of_refusal {e : Error} (nothing : request.staged? catalog = none)
    (refuses : catalog.entries.maps.Refuses request e)
    (runs : Script.Runs disk d
      (do
        let (result, catalog) ← (pure (.error e, catalog) : Script (Except Error Unit × Catalog))
        return (CatalogAnswer.done result, catalog))
      (answer, catalog') d') :
    Outcome disk catalog d request answer catalog' d' := by
  obtain ⟨same, rfl⟩ := Script.runs_pure.1 runs
  cases same
  exact .still nothing fun _ => .refused refuses

/-- A call that does not open the catalog anew does what the maps say. -/
theorem outcome_of_run (call : request ≠ .reopen) (sound : catalog.entries.Sound)
    (fits : request.Fits) (runs : Script.Runs disk d (request.run catalog) (answer, catalog') d') :
    Outcome disk catalog d request answer catalog' d' := by
  cases request with
  | insert record =>
      rcases catalog.entries.insertFile_cases record with
        ⟨inserted, back, changes⟩ | ⟨e, refused, refuses⟩
      · have staged : catalog.stageFile record =
            .ok (catalog.withEntries (catalog.entries.putFile record)) := by
          rw [Catalog.stageFile, inserted]
          rfl
        rw [run, Catalog.insert, staged] at runs
        simp only [Catalog.unstageFile_withEntries, back] at runs
        exact outcome_of_settle (congrArg Except.toOption staged) (sound.putFile fits) changes sound
          rfl runs
      · have staged : catalog.stageFile record = .error e := by
          rw [Catalog.stageFile, refused]
          rfl
        rw [run, Catalog.insert, staged] at runs
        exact outcome_of_refusal (congrArg Except.toOption staged) refuses runs
  | get id =>
      obtain ⟨same, rfl⟩ := Script.runs_pure.1 runs
      cases same
      exact .still rfl fun _ => .shown .get
  | delete id owner =>
      rcases catalog.entries.deleteFile_cases id owner with
        ⟨file, deleted, found, changes⟩ | ⟨e, refused, refuses⟩
      · obtain ⟨member, _⟩ := Entries.mem_of_file? found
        rw [run, Catalog.delete, deleted] at runs
        exact outcome_of_settle (by rw [staged?, deleted]; rfl) (sound.dropFile id) changes
          ((sound.dropFile id).putFile (sound.fits file member))
          (Entries.maps_putFile_dropFile found) runs
      · rw [run, Catalog.delete, refused] at runs
        exact outcome_of_refusal (by rw [staged?, refused]; rfl) refuses runs
  | list owner =>
      obtain ⟨same, rfl⟩ := Script.runs_pure.1 runs
      cases same
      exact .still rfl fun _ => .shown (.list (Entries.isListing_filesOf sound.toDistinct owner))
  | insertUser user =>
      rcases Entries.insertUser_cases sound.toDistinct user with
        ⟨inserted, back, changes⟩ | ⟨e, refused, refuses⟩
      · rw [run, Catalog.insertUser, inserted] at runs
        simp only [back] at runs
        exact outcome_of_settle (by rw [staged?, inserted]; rfl) (sound.putUser user) changes sound
          rfl runs
      · rw [run, Catalog.insertUser, refused] at runs
        exact outcome_of_refusal (by rw [staged?, refused]; rfl) refuses runs
  | wrappedKey id =>
      obtain ⟨same, rfl⟩ := Script.runs_pure.1 runs
      cases same
      exact .still rfl fun _ => .shown .wrappedKey
  | reopen => exact absurd rfl call

end CatalogRequest

namespace Catalog

variable {catalog next : Catalog}

theorem runs_insertUser_of_sound (sound : catalog.entries.Sound) {user : UserRecord}
    {result : Except Error Unit}
    (runs : Script.Runs disk d (catalog.insertUser user) (result, next) d') :
    (∃ e, result = .error e ∧ catalog.entries.maps.Refuses (.insertUser user) e ∧
        next = catalog ∧ d' = d) ∨
      catalog.entries.maps.Changes (.insertUser user) (catalog.entries.putUser user).maps ∧
        Script.Runs disk d (catalog.withEntries (catalog.entries.putUser user)).flush result d' ∧
          (result = .ok () ∧ next = catalog.withEntries (catalog.entries.putUser user) ∨
            ∃ e, result = .error e ∧ next = catalog) := by
  rcases Entries.insertUser_cases sound.toDistinct user with
    ⟨inserted, back, changes⟩ | ⟨e, refused, refuses⟩
  · rw [insertUser, inserted] at runs
    obtain ⟨flushed, outcome⟩ := runs_settle runs
    rw [back, withEntries_entries] at outcome
    exact .inr ⟨changes, flushed, outcome⟩
  · rw [insertUser, refused] at runs
    obtain ⟨done, rfl⟩ := Script.runs_pure.1 runs
    cases done
    exact .inl ⟨e, rfl, refuses, rfl, rfl⟩

theorem runs_of_insertUser {user : UserRecord} {result : Except Error Unit}
    (inserted : Script.Runs disk d (catalog.insertUser user) (result, next) d') :
    Script.Runs disk d ((CatalogRequest.insertUser user).run catalog) (.done result, next) d' :=
  Script.runs_bind.2 ⟨_, _, inserted, Script.runs_pure.2 ⟨rfl, rfl⟩⟩

end Catalog

end Strongroom
