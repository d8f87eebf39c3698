import Strongroom.Proofs.Catalog.Retention
import Strongroom.Proofs.Cipher.Sealing
import Strongroom.Vault

/-! # The data key of a user stays

A user who was enrolled under a master key has one data key, the one that was drawn
then. Whatever is done with the catalog afterwards, the vault with this master key
finds it; and whatever is stored, a vault finds a key or says that it does not.
-/

namespace Strongroom

namespace Vault

variable {first catalog next later : Catalog} {tree₀ tree tree' : FileTree} {id : UserId}
  {login : String} {random rest : Entropy} {master : MasterKey} {e : Error}
  {result : Except Error UserRecord}

/-- What is done with a catalog: vaults with any master keys enroll users, and others call
    it or open it anew. Resolving a key is no step, as it does nothing to the catalog. -/
inductive Course : Catalog → FileTree → Catalog → FileTree → Prop where
  | refl {catalog : Catalog} {tree : FileTree} : Course catalog tree catalog tree
  | enroll {first catalog next : Catalog} {tree₀ tree tree' : FileTree} {master : MasterKey}
      {id : UserId} {login : String} {random rest : Entropy} {result : Except Error UserRecord} :
    Course first tree₀ catalog tree →
      Script.Runs FileTree.failing tree (enroll master catalog id login random)
        (result, next, rest) tree' →
        Course first tree₀ next tree'
  | call {first catalog next : Catalog} {tree₀ tree tree' : FileTree} {request : CatalogRequest}
      {answer : CatalogAnswer} :
    Course first tree₀ catalog tree → request.Fits →
      Script.Runs FileTree.failing tree (request.run catalog) (answer, next) tree' →
        Course first tree₀ next tree'

/-- A catalog that somebody begins with: an empty one in memory, or one that was opened. -/
inductive Begins : Catalog → FileTree → Prop where
  | memory {tree : FileTree} : Begins (.memory {}) tree
  | file {path : Path} {catalog : Catalog} {tree : FileTree} :
    tree.WellFormed → (Catalog.openFile path).run tree = (.ok catalog, tree) → Begins catalog tree

/-- Why a user is not enrolled. -/
inductive Prevents (catalog : Catalog) (tree tree' : FileTree) (user : UserRecord) :
    Error → Prop where
  | blank : user.login = "" →
    Prevents catalog tree tree' user (.invalidInput "login must not be empty")
  /-- The identifier or the login is taken. -/
  | taken {e : Error} : catalog.entries.maps.Refuses (.insertUser user) e →
    Prevents catalog tree tree' user e
  | lost {e : Error} :
    Script.Runs FileTree.failing tree (catalog.withEntries (catalog.entries.putUser user)).flush
      (.error e) tree' →
      Prevents catalog tree tree' user e

theorem Course.reaches (course : Course first tree₀ catalog tree) :
    Catalog.Reaches first tree₀ catalog tree := by
  induction course with
  | refl => exact .refl
  | call _ fits runs ih => exact .call ih fits runs
  | enroll _ runs ih =>
      rcases runs_enroll runs with ⟨_, _, rfl, rfl⟩ | ⟨_, added, inserted, _⟩
      · exact ih
      · exact ih.call (CatalogRequest.fits_insertUser _) (Catalog.runs_of_insertUser inserted)

theorem Begins.holds (begins : Begins first tree₀) : Catalog.Holds first tree₀ := by
  cases begins with
  | memory =>
      refine ⟨⟨⟨List.nodup_nil, List.nodup_nil⟩, List.forall_mem_nil _⟩, fun path never => ?_⟩
      cases never
  | @file path _ _ formed opens =>
      have opens := Catalog.opened_of_openFile opens
      obtain ⟨entries, rfl, sound⟩ := Catalog.sound_of_opened opens
      refine ⟨sound, fun other same => ?_⟩
      cases same
      exact Catalog.remembers_of_opened formed opens

/-- A wrapped key of the right size opens, under some master key, to a data key. -/
def Opens (master : MasterKey) (wrapped : Bytes) (key : DataKey) : Prop :=
  wrapped.length = 60 ∧
    Aead.decrypt? master.bytes (wrapped.take Aead.nonceSize) (wrapped.drop Aead.nonceSize) =
      some key.bytes

theorem opens_iff {wrapped : Bytes} {key : DataKey} :
    Opens master wrapped key ↔ DataKey.unwrap master wrapped = .ok key := by
  rw [Opens, Aead.decrypt?_eq_some_iff]
  constructor
  · rintro ⟨_, whole⟩
    rw [DataKey.unwrap_eq_ok_iff, DataKey.wrapWith, whole, List.take_append_drop]
  · intro opens
    have whole := DataKey.unwrap_eq_ok_iff.1 opens
    refine ⟨DataKey.length_of_unwrap opens, ?_⟩
    exact List.append_cancel_left (whole.trans (List.take_append_drop _ _).symm)

theorem unwrap_cases (master : MasterKey) (wrapped : Bytes) :
    (∃ key, Opens master wrapped key ∧ DataKey.unwrap master wrapped = .ok key) ∨
      (∀ key, ¬ Opens master wrapped key) ∧
        ∃ text, DataKey.unwrap master wrapped = .error (.keyResolution text) := by
  rcases DataKey.unwrap_cases master wrapped with ⟨key, opens⟩ | ⟨text, closed⟩
  · exact .inl ⟨key, opens_iff.2 opens, opens⟩
  · refine .inr ⟨fun key opens => ?_, text, closed⟩
    rw [opens_iff.1 opens] at closed
    cases closed

/-- A vault finds the key that the stored bytes open to, or it gives one error. -/
theorem resolve_cases (master : MasterKey) (catalog : Catalog) (id : UserId) :
    (∃ wrapped key, catalog.wrappedKey? id = some wrapped ∧ Opens master wrapped key ∧
        resolve master catalog id = .ok key) ∨
      (∀ wrapped key, catalog.wrappedKey? id = some wrapped → ¬ Opens master wrapped key) ∧
        ∃ text, resolve master catalog id = .error (.keyResolution text) := by
  unfold resolve
  cases stored : catalog.wrappedKey? id with
  | none =>
      refine .inr ⟨?_, _, rfl⟩
      intro wrapped key never
      cases never
  | some wrapped =>
      rcases unwrap_cases master wrapped with ⟨key, opens, found⟩ | ⟨closed, text, failed⟩
      · exact .inl ⟨wrapped, key, rfl, opens, found⟩
      · refine .inr ⟨?_, text, failed⟩
        rintro _ key ⟨⟩
        exact closed key

theorem resolve_newcomer
    (known : catalog.entries.maps.user? id = some (newcomer master id login random)) :
    resolve master catalog id = .ok (DataKey.generate random).1 := by
  have stored : catalog.wrappedKey? id = some (newcomer master id login random).wrappedKey :=
    congrArg (Option.map UserRecord.wrappedKey) known
  rw [resolve, stored]
  exact DataKey.unwrap_wrap master _ _

/-- A user who is enrolled has a login and is added to the maps. -/
structure Enrolls (master : MasterKey) (catalog : Catalog) (id : UserId) (login : String)
    (random : Entropy) (next : Catalog) : Prop where
  named : Text.trim login ≠ ""
  changes : catalog.entries.maps.Changes (.insertUser (newcomer master id login random))
    next.entries.maps

/-- The document of a catalog has a path of its own to be written to, and the folder
    around it was there at the beginning, or no name leads back. -/
def Apart (tree₀ : FileTree) (catalog : Catalog) (path : Path) : Prop :=
  catalog.path? = some path ∧ Catalog.temporary path ≠ path ∧ tree₀.Steady path

/-- A user who is not enrolled leaves the records of all users as they were, in memory, in
    what opens anew, and in the file. -/
structure Untouched (tree₀ tree : FileTree) (catalog next : Catalog) (tree' : FileTree) :
    Prop where
  memory : next = catalog
  reopened : ∀ path fresh, catalog.path? = some path →
    (Catalog.openFile path).run tree' = (.ok fresh, tree') → Catalog.HasUsersOf fresh catalog
  file : ∀ path, Apart tree₀ catalog path → tree'.at? path = tree.at? path ∧
    ∃ fresh, (Catalog.openFile path).run tree' = (.ok fresh, tree') ∧
      fresh.entries.maps = catalog.entries.maps

/-- What one enrolment does in memory. -/
theorem Course.enrolled (begins : Begins first tree₀) (course : Course first tree₀ catalog tree)
    (runs : Script.Runs FileTree.failing tree (Vault.enroll master catalog id login random)
      (result, next, rest) tree') :
    (result = .ok (newcomer master id login random) ∧
        Enrolls master catalog id login random next) ∨
      ∃ e, result = .error e ∧ next = catalog ∧
        Prevents catalog tree tree' (newcomer master id login random) e := by
  obtain ⟨holds, _⟩ := begins.holds.reaches course.reaches
  rcases runs_enroll runs with ⟨blank, rfl, rfl, rfl⟩ | ⟨named, added, inserted, rfl⟩
  · exact .inr ⟨_, rfl, rfl, .blank blank⟩
  · rcases Catalog.runs_insertUser_of_sound holds.sound inserted with
      ⟨e, rfl, refuses, rfl, rfl⟩ | ⟨changes, flushed, ⟨rfl, rfl⟩ | ⟨e, rfl, rfl⟩⟩
    · exact .inr ⟨e, rfl, rfl, .taken refuses⟩
    · refine .inl ⟨rfl, named, ?_⟩
      rw [Catalog.entries_withEntries]
      exact changes
    · exact .inr ⟨e, rfl, rfl, .lost flushed⟩

theorem Course.inStep {path : Path} (begins : Begins first tree₀)
    (course : Course first tree₀ catalog tree) (apart : Apart tree₀ catalog path) :
    Catalog.InStep path catalog tree := by
  obtain ⟨known, beside, steady⟩ := apart
  obtain ⟨_, _, same⟩ := begins.holds.reaches course.reaches
  rw [known] at same
  cases begins with
  | memory => cases same
  | file formed opens =>
      obtain ⟨_, rfl, _⟩ := Catalog.sound_of_opened (Catalog.opened_of_openFile opens)
      cases same
      exact (Catalog.inStep_of_openFile formed steady opens).reaches beside course.reaches

theorem Course.opens {path : Path} (begins : Begins first tree₀)
    (course : Course first tree₀ catalog tree) (apart : Apart tree₀ catalog path) :
    ∃ fresh, (Catalog.openFile path).run tree = (.ok fresh, tree) ∧
      fresh.entries.maps = catalog.entries.maps := by
  obtain ⟨entries, rfl, mirrors, _⟩ := course.inStep begins apart
  obtain ⟨fresh, opens, _, same⟩ := mirrors.fresh
  exact ⟨.file path fresh, by rw [Catalog.run_openFile, opens], same⟩

theorem Course.at?_of_error {path : Path} (begins : Begins first tree₀)
    (course : Course first tree₀ catalog tree) (apart : Apart tree₀ catalog path)
    (runs : Script.Runs FileTree.failing tree (Vault.enroll master catalog id login random)
      (.error e, next, rest) tree') :
    tree'.at? path = tree.at? path := by
  obtain ⟨entries, rfl, mirrors, shows⟩ := course.inStep begins apart
  rcases runs_enroll runs with ⟨_, _, _, rfl⟩ | ⟨_, added, inserted, failed⟩
  · rfl
  · cases added with
    | ok => cases failed
    | error e' =>
        have fits := CatalogRequest.fits_insertUser (newcomer master id login random)
        obtain ⟨_, _, _, _, _, kept⟩ :=
          mirrors.run apart.2.1 shows fits (Catalog.runs_of_insertUser inserted)
        exact (kept ⟨e', rfl⟩).2

theorem Course.untouched (begins : Begins first tree₀) (course : Course first tree₀ catalog tree)
    (runs : Script.Runs FileTree.failing tree (Vault.enroll master catalog id login random)
      (.error e, next, rest) tree') : Untouched tree₀ tree catalog next tree' := by
  rcases course.enrolled begins runs with ⟨never, _⟩ | ⟨_, _, rfl, _⟩
  · cases never
  · have further := course.enroll runs
    obtain ⟨holds, _⟩ := begins.holds.reaches further.reaches
    refine ⟨rfl, ?_, fun path apart =>
      ⟨course.at?_of_error begins apart runs, further.opens begins apart⟩⟩
    intro path fresh known opens id user stored
    exact (holds.file path known).users (Catalog.opened_of_openFile opens) stored

theorem Course.trans {tree'' : FileTree} (course : Course first tree₀ catalog tree)
    (onward : Course catalog tree later tree'') : Course first tree₀ later tree'' := by
  induction onward with
  | refl => exact course
  | enroll _ runs ih => exact (ih course).enroll runs
  | call _ fits runs ih => exact (ih course).call fits runs

/-- A vault finds a data key in a catalog, and in what opens anew from its file. -/
structure Finds (tree₀ : FileTree) (master : MasterKey) (id : UserId) (key : DataKey)
    (later : Catalog) (tree : FileTree) : Prop where
  memory : resolve master later id = .ok key
  reopened : ∀ path fresh, later.path? = some path →
    (Catalog.openFile path).run tree = (.ok fresh, tree) → resolve master fresh id = .ok key
  file : ∀ path, Apart tree₀ later path → ∃ fresh,
    (Catalog.openFile path).run tree = (.ok fresh, tree) ∧ resolve master fresh id = .ok key

/-- After an enrolment the vaults with this master key find its data key for good. -/
theorem Course.finds {tree'' : FileTree} (begins : Begins first tree₀)
    (course : Course first tree₀ catalog tree)
    (runs : Script.Runs FileTree.failing tree (Vault.enroll master catalog id login random)
      (result, next, rest) tree')
    (enrolls : Enrolls master catalog id login random next)
    (onward : Course next tree' later tree'') :
    Finds tree₀ master id (DataKey.generate random).1 later tree'' := by
  have enrolled := course.enroll runs
  obtain ⟨holds, _⟩ := begins.holds.reaches enrolled.reaches
  obtain ⟨holds, users, _⟩ := holds.reaches onward.reaches
  have known := users enrolls.changes.newcomer
  constructor
  case memory => exact resolve_newcomer known
  case reopened =>
    intro path fresh pathed opens
    exact resolve_newcomer
      ((holds.file path pathed).users (Catalog.opened_of_openFile opens) known)
  case file =>
    intro path apart
    obtain ⟨fresh, opens, same⟩ := (enrolled.trans onward).opens begins apart
    exact ⟨fresh, opens, resolve_newcomer (same ▸ known)⟩

/-- Begin with an empty catalog in memory, or with one that was opened, and let vaults with
    any master keys enroll users, and others call the catalog and open it anew, on a disk
    that fails. An enrolment that succeeds adds the user, and its master key gives the data
    key that was drawn, whatever is done later. One that fails leaves the records of all
    users as they were. Resolving gives the key that the stored bytes open to, or one error.
    That the file opens at all is said where the document has a path of its own. -/
theorem data_keys_stay (begins : Begins first tree₀) (course : Course first tree₀ catalog tree) :
    (∀ master id login random result next rest tree',
        Script.Runs FileTree.failing tree (enroll master catalog id login random)
          (result, next, rest) tree' →
          (∀ user, result = .ok user →
              user = newcomer master id login random ∧
                Enrolls master catalog id login random next ∧
                  ∀ later tree'', Course next tree' later tree'' →
                    Finds tree₀ master id (DataKey.generate random).1 later tree'') ∧
            ∀ e, result = .error e →
              Prevents catalog tree tree' (newcomer master id login random) e ∧
                Untouched tree₀ tree catalog next tree') ∧
      ∀ master id,
        (∃ wrapped key, catalog.wrappedKey? id = some wrapped ∧ Opens master wrapped key ∧
            resolve master catalog id = .ok key) ∨
          (∀ wrapped key, catalog.wrappedKey? id = some wrapped → ¬ Opens master wrapped key) ∧
            ∃ text, resolve master catalog id = .error (.keyResolution text) := by
  refine ⟨?_, fun master id => resolve_cases master catalog id⟩
  intro master id login random result next rest tree' runs
  rcases course.enrolled begins runs with ⟨rfl, enrolls⟩ | ⟨e, rfl, rfl, prevents⟩
  · constructor
    · rintro _ ⟨⟩
      exact ⟨rfl, enrolls, fun later tree'' onward =>
        course.finds begins runs enrolls onward⟩
    · intro e never
      cases never
  · constructor
    · intro user never
      cases never
    · rintro _ ⟨⟩
      exact ⟨prevents, course.untouched begins runs⟩

/-- A first user on an empty disk, whose key is found when the catalog is opened anew. -/
theorem data_key_of_first_user_stays :
    let path : Path := ⟨"catalog.json"⟩
    let master : MasterKey := ⟨List.replicate 32 42, rfl⟩
    let random : Entropy := ⟨UInt8.ofNat, 0⟩
    let alice := newcomer master ⟨⟨1⟩⟩ " alice" random
    Begins (.file path {}) {} ∧ alice.login = "alice" ∧
      ∃ rest tree fresh,
        (enroll master (.file path {}) ⟨⟨1⟩⟩ " alice" random).run {} =
            ((.ok alice, .file path ⟨[alice], []⟩, rest), tree) ∧
          (Catalog.openFile path).run tree = (.ok fresh, tree) ∧
            resolve master fresh ⟨⟨1⟩⟩ = .ok (DataKey.generate random).1 := by
  intro path master random alice
  let entries : Entries := ⟨[alice], []⟩
  have first : (Catalog.openFile ⟨"catalog.json"⟩).run {} =
      (.ok (.file ⟨"catalog.json"⟩ {}), {}) := rfl
  have begins := Begins.file FileTree.wellFormed_empty first
  have enrolled : ∃ rest tree,
      (enroll master (.file ⟨"catalog.json"⟩ {}) ⟨⟨1⟩⟩ " alice" random).run {} =
        ((.ok alice, .file ⟨"catalog.json"⟩ entries, rest), tree) := ⟨_, _, rfl⟩
  obtain ⟨rest, tree, enrolled⟩ := enrolled
  have runs := FileTree.runs_failing (Script.runs_tree.2 enrolled)
  have leads : ({} : FileTree).locate ⟨"catalog.json"⟩ = .ok ["catalog.json"] := rfl
  have apart : Apart {} (.file ⟨"catalog.json"⟩ entries) ⟨"catalog.json"⟩ :=
    ⟨rfl, by decide, .inl ⟨_, leads⟩⟩
  obtain ⟨_, _, stays⟩ := ((data_keys_stay begins .refl).1 _ _ _ _ _ _ _ _ runs).1 _ rfl
  obtain ⟨fresh, opens, found⟩ := (stays _ _ .refl).file _ apart
  exact ⟨begins, by decide, rest, tree, fresh, enrolled, opens, found⟩

/-- Where the path of a catalog ends in `.tmp`, its document has no other place to be
    written to. An enrolment that fails may leave it empty, and then nothing opens any
    more, nobody's record among it. -/
theorem failed_enrolment_empties_document_in_its_own_place :
    let path : Path := ⟨"catalog.tmp"⟩
    let master : MasterKey := ⟨List.replicate 32 42, rfl⟩
    let random : Entropy := ⟨UInt8.ofNat, 0⟩
    let alice := newcomer master ⟨⟨1⟩⟩ "alice" random
    let catalog : Catalog := .file path ⟨[alice], []⟩
    Catalog.temporary path = path ∧ Begins (.file path {}) {} ∧
      ∃ random' rest tree tree' e e',
        (enroll master (.file path {}) ⟨⟨1⟩⟩ "alice" random).run {} =
            ((.ok alice, catalog, random'), tree) ∧
          (∃ fresh, (Catalog.openFile path).run tree = (.ok fresh, tree) ∧
            fresh.entries.maps = catalog.entries.maps) ∧
            Script.Runs FileTree.failing tree (enroll master catalog ⟨⟨2⟩⟩ "bob" random')
                (.error e, catalog, rest) tree' ∧
              (Catalog.openFile path).run tree' = (.error e', tree') := by
  intro path master random alice catalog
  let entries : Entries := ⟨[alice], []⟩
  let tree : FileTree := { entries := [(["catalog.tmp"], .file [Bytes.ofText entries.toText])] }
  let torn : FileTree := { entries := [(["catalog.tmp"], .file [])] }
  have first : (Catalog.openFile ⟨"catalog.tmp"⟩).run {} =
      (.ok (.file ⟨"catalog.tmp"⟩ {}), {}) := rfl
  have enrolled : ∃ rest, (enroll master (.file ⟨"catalog.tmp"⟩ {}) ⟨⟨1⟩⟩ "alice" random).run {} =
      ((.ok alice, .file ⟨"catalog.tmp"⟩ entries, rest), tree) := ⟨_, rfl⟩
  obtain ⟨random', enrolled⟩ := enrolled
  have sound : entries.Sound :=
    ⟨⟨List.nodup_singleton _, List.nodup_nil⟩, List.forall_mem_nil _⟩
  have shown : tree.at? ⟨"catalog.tmp"⟩ =
      some (["catalog.tmp"], .file [Bytes.ofText entries.toText]) := rfl
  have empty : torn.at? ⟨"catalog.tmp"⟩ = some (["catalog.tmp"], .file []) := rfl
  have emptied : tree.Fails (.truncate ⟨"catalog.tmp"⟩)
      (.error (.other "No space left on device (os error 28)")) torn := .truncated rfl
  have closed : Catalog.opened ⟨"catalog.tmp"⟩ (some (["catalog.tmp"], .file [])) =
      .error (.storage "parsing catalog catalog.tmp") := rfl
  -- The first step of the flush makes the file empty, and then fails.
  have fails : ∃ e rest, Script.Runs FileTree.failing tree
      (enroll master (.file ⟨"catalog.tmp"⟩ entries) ⟨⟨2⟩⟩ "bob" random')
        (.error e, .file ⟨"catalog.tmp"⟩ entries, rest) torn :=
    ⟨_, _, .step (.inr emptied) .done⟩
  obtain ⟨e, rest, fails⟩ := fails
  refine ⟨by decide, .file FileTree.wellFormed_empty first, random', rest, tree, torn, e,
    .storage "parsing catalog catalog.tmp", enrolled,
    ⟨.file path entries.written, ?_, Entries.maps_written sound.toDistinct⟩, fails, ?_⟩
  · rw [Catalog.run_openFile, shown, Catalog.opened_toText path _ sound]
  · rw [Catalog.run_openFile, empty, closed]

end Vault

end Strongroom
