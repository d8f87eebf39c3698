import Mathlib.Data.List.Nodup
import Mathlib.Logic.Function.Basic
import Strongroom.Proofs.Catalog.Changes
import Strongroom.Proofs.Catalog.Document

/-! # Catalogs as maps

What a catalog holds is a map from identifiers to users and one to files. Every
call is answered from these maps, and changes at most one entry of one of them:
an identifier that is taken is never given anew, and only the owner of a file
takes it out. A change that is not kept leaves the maps as they were.
-/

namespace Strongroom

/-- Users and files by their identifiers. -/
@[ext] structure Maps where
  user? : UserId → Option UserRecord := fun _ => none
  file? : FileId → Option FileRecord := fun _ => none

/-- A call of a catalog. To open it anew is one, too. -/
inductive CatalogRequest where
  | insert (record : FileRecord)
  | get (id : FileId)
  | delete (id : FileId) (owner : UserId)
  | list (owner : UserId)
  | insertUser (user : UserRecord)
  | wrappedKey (id : UserId)
  | reopen

/-- The numbers of a record that is added fit in a word. -/
def CatalogRequest.Fits : CatalogRequest → Prop
  | .insert record => record.Fits
  | _ => True

theorem CatalogRequest.fits_insertUser (user : UserRecord) :
    (CatalogRequest.insertUser user).Fits :=
  trivial

/-- What a call gives. -/
inductive CatalogAnswer where
  | done (result : Except Error Unit)
  | file (found : Option FileRecord)
  | files (list : List FileRecord)
  | key (found : Option Bytes)

namespace Maps

def putFile (maps : Maps) (file : FileRecord) : Maps :=
  { maps with file? := Function.update maps.file? file.id (some file) }

def dropFile (maps : Maps) (id : FileId) : Maps :=
  { maps with file? := Function.update maps.file? id none }

def putUser (maps : Maps) (user : UserRecord) : Maps :=
  { maps with user? := Function.update maps.user? user.id (some user) }

/-- The files of an owner, each of them once, the older ones first and those of
    one age by name. -/
structure IsListing (maps : Maps) (owner : UserId) (list : List FileRecord) : Prop where
  once : list.Nodup
  owned : ∀ file, file ∈ list ↔ maps.file? file.id = some file ∧ file.owner = owner
  sorted : list.Pairwise fun a b =>
    a.createdAt < b.createdAt ∨ a.createdAt = b.createdAt ∧ a.fileName ≤ b.fileName

/-- A call that changes the maps, if the change is kept. -/
inductive Changes (maps : Maps) : CatalogRequest → Maps → Prop where
  | insert {record : FileRecord} :
    maps.file? record.id = none → Changes maps (.insert record) (maps.putFile record)
  | delete {id : FileId} {owner : UserId} {file : FileRecord} :
    maps.file? id = some file → file.owner = owner →
      Changes maps (.delete id owner) (maps.dropFile id)
  | insertUser {user : UserRecord} :
    maps.user? user.id = none →
      (∀ id other, maps.user? id = some other → other.login ≠ user.login) →
        Changes maps (.insertUser user) (maps.putUser user)

/-- A call that is refused. -/
inductive Refuses (maps : Maps) : CatalogRequest → Error → Prop where
  | insert {record file : FileRecord} :
    maps.file? record.id = some file →
      Refuses maps (.insert record) (.storage s!"file record {record.id} already exists")
  | delete {id : FileId} {owner : UserId} :
    (∀ file, maps.file? id = some file → file.owner ≠ owner) →
      Refuses maps (.delete id owner) (.notFound s!"file {id}")
  | known {user other : UserRecord} :
    maps.user? user.id = some other →
      Refuses maps (.insertUser user) (.invalidInput s!"user {user.id} already exists")
  | taken {user other : UserRecord} {id : UserId} :
    maps.user? user.id = none → maps.user? id = some other → other.login = user.login →
      Refuses maps (.insertUser user)
        (.invalidInput s!"login {Text.quote user.login} already taken")

/-- A call that only looks. -/
inductive Shows (maps : Maps) : CatalogRequest → CatalogAnswer → Prop where
  | get {id : FileId} : Shows maps (.get id) (.file (maps.file? id))
  | list {owner : UserId} {list : List FileRecord} :
    maps.IsListing owner list → Shows maps (.list owner) (.files list)
  | wrappedKey {id : UserId} :
    Shows maps (.wrappedKey id) (.key ((maps.user? id).map UserRecord.wrappedKey))
  | reopen : Shows maps .reopen (.done (.ok ()))

/-- How maps answer a call, and what they are then. A change is kept if its flush,
    with the outcome `flushed`, is. -/
inductive Answers (flushed : Except Error Unit) (maps : Maps) :
    CatalogRequest → CatalogAnswer → Maps → Prop where
  | changed {request : CatalogRequest} {next : Maps} :
    maps.Changes request next → flushed = .ok () →
      Answers flushed maps request (.done (.ok ())) next
  | lost {request : CatalogRequest} {next : Maps} {e : Error} :
    maps.Changes request next → flushed = .error e →
      Answers flushed maps request (.done (.error e)) maps
  | refused {request : CatalogRequest} {e : Error} :
    maps.Refuses request e → Answers flushed maps request (.done (.error e)) maps
  | shown {request : CatalogRequest} {answer : CatalogAnswer} :
    maps.Shows request answer → Answers flushed maps request answer maps

end Maps

/-- Answers that say the same: lists may differ in the order of records of one age
    and name. -/
inductive CatalogAnswer.Alike : CatalogAnswer → CatalogAnswer → Prop where
  | same {answer : CatalogAnswer} : Alike answer answer
  | files {list list' : List FileRecord} : list.Perm list' → Alike (.files list) (.files list')

namespace Maps

variable {maps next next' : Maps} {request : CatalogRequest} {flushed : Except Error Unit}
  {answer answer' : CatalogAnswer} {e : Error}

theorem IsListing.perm {owner : UserId} {list list' : List FileRecord}
    (first : maps.IsListing owner list) (second : maps.IsListing owner list') :
    list.Perm list' := by
  refine (List.perm_ext_iff_of_nodup first.once second.once).2 fun file => ?_
  rw [first.owned, second.owned]

theorem Changes.eq (first : maps.Changes request next) (second : maps.Changes request next') :
    next = next' := by
  cases first with
  | insert | delete | insertUser =>
      cases second
      rfl

theorem Changes.newcomer {user : UserRecord} (changes : maps.Changes (.insertUser user) next) :
    next.user? user.id = some user := by
  cases changes with
  | insertUser => exact Function.update_self _ _ _

theorem Changes.not_refuses (changes : maps.Changes request next) : ¬ maps.Refuses request e := by
  intro refuses
  cases changes with
  | insert absent =>
      cases refuses with
      | insert present => simp [absent] at present
  | delete there owned =>
      cases refuses with
      | delete other => exact other _ there owned
  | insertUser unknown free =>
      cases refuses with
      | known known => simp [unknown] at known
      | taken _ there same => exact free _ _ there same

theorem Refuses.eq {e' : Error} (first : maps.Refuses request e)
    (second : maps.Refuses request e') : e = e' := by
  cases first with
  | insert =>
      cases second
      rfl
  | delete =>
      cases second
      rfl
  | known known =>
      cases second with
      | known => rfl
      | taken unknown => simp [unknown] at known
  | taken unknown =>
      cases second with
      | known known => simp [unknown] at known
      | taken => rfl

theorem Shows.alike (first : maps.Shows request answer) (second : maps.Shows request answer') :
    answer.Alike answer' := by
  cases first with
  | get | wrappedKey | reopen =>
      cases second
      exact .same
  | list listing =>
      cases second with
      | list listing' => exact .files (listing.perm listing')

theorem Shows.only (shows : maps.Shows request answer) :
    (∀ next, ¬ maps.Changes request next) ∧ ∀ e, ¬ maps.Refuses request e := by
  cases shows with
  | get | list | wrappedKey | reopen =>
      constructor
      · intro next changes
        cases changes
      · intro e refuses
        cases refuses

/-- The maps, and whether the change is kept, tell the answer. -/
theorem Answers.alike (first : maps.Answers flushed request answer next)
    (second : maps.Answers flushed request answer' next') :
    answer.Alike answer' ∧ next = next' := by
  cases first with
  | changed changes kept =>
      cases second with
      | changed changes' => exact ⟨.same, changes.eq changes'⟩
      | lost _ lost =>
          rw [kept] at lost
          cases lost
      | refused refuses => exact absurd refuses changes.not_refuses
      | shown shows => exact absurd changes (shows.only.1 _)
  | lost changes lost =>
      cases second with
      | changed _ kept =>
          rw [kept] at lost
          cases lost
      | lost _ lost' =>
          rw [lost] at lost'
          cases lost'
          exact ⟨.same, rfl⟩
      | refused refuses => exact absurd refuses changes.not_refuses
      | shown shows => exact absurd changes (shows.only.1 _)
  | refused refuses =>
      cases second with
      | changed changes => exact absurd refuses changes.not_refuses
      | lost changes => exact absurd refuses changes.not_refuses
      | refused refuses' =>
          rw [refuses.eq refuses']
          exact ⟨.same, rfl⟩
      | shown shows => exact absurd refuses (shows.only.2 _)
  | shown shows =>
      cases second with
      | changed changes => exact absurd changes (shows.only.1 _)
      | lost changes => exact absurd changes (shows.only.1 _)
      | refused refuses => exact absurd refuses (shows.only.2 _)
      | shown shows' => exact ⟨shows.alike shows', rfl⟩

/-- Every record stands under its own identifier, and no two users have one
    login. -/
structure Sound (maps : Maps) : Prop where
  users : ∀ id user, maps.user? id = some user → user.id = id
  files : ∀ id file, maps.file? id = some file → file.id = id
  logins : ∀ id id' user user', maps.user? id = some user → maps.user? id' = some user' →
    user.login = user'.login → id = id'

end Maps

namespace Entries

/-- What a catalog holds, without the order of its lists. -/
def maps (entries : Entries) : Maps where
  user? := entries.user?
  file? := entries.file?

/-- Entries that a catalog may have come by: identifiers stand for one record each,
    and numbers fit in a word. -/
structure Sound (entries : Entries) : Prop extends entries.Distinct where
  fits : entries.Fits

variable {entries entries' : Entries}

theorem Distinct.file?_eq_some (distinct : entries.Distinct) {id : FileId} {file : FileRecord} :
    entries.file? id = some file ↔ file ∈ entries.files ∧ file.id = id := by
  refine ⟨mem_of_file?, ?_⟩
  rintro ⟨member, rfl⟩
  cases found : entries.file? file.id with
  | none =>
      have absent := List.find?_eq_none.1 found file member
      simp at absent
  | some other =>
      obtain ⟨there, same⟩ := mem_of_file? found
      exact congrArg some (List.inj_on_of_nodup_map distinct.files there member same)

theorem Distinct.user?_eq_some (distinct : entries.Distinct) {id : UserId} {user : UserRecord} :
    entries.user? id = some user ↔ user ∈ entries.users ∧ user.id = id := by
  have found : ∀ {user}, entries.user? id = some user → user ∈ entries.users ∧ user.id = id :=
    fun found => ⟨List.mem_of_find?_eq_some found, by simpa using List.find?_some found⟩
  refine ⟨found, ?_⟩
  rintro ⟨member, rfl⟩
  cases looked : entries.user? user.id with
  | none =>
      have absent := List.find?_eq_none.1 looked user member
      simp at absent
  | some other =>
      obtain ⟨there, same⟩ := found looked
      exact congrArg some (List.inj_on_of_nodup_map distinct.users there member same)

theorem maps_eq (distinct : entries.Distinct) (distinct' : entries'.Distinct)
    (users : ∀ user, user ∈ entries.users ↔ user ∈ entries'.users)
    (files : ∀ file, file ∈ entries.files ↔ file ∈ entries'.files) :
    entries.maps = entries'.maps := by
  refine Maps.ext (funext fun id => Option.ext fun user => ?_)
    (funext fun id => Option.ext fun file => ?_)
  · change entries.user? id = some user ↔ entries'.user? id = some user
    rw [distinct.user?_eq_some, distinct'.user?_eq_some, users]
  · change entries.file? id = some file ↔ entries'.file? id = some file
    rw [distinct.file?_eq_some, distinct'.file?_eq_some, files]

theorem maps_written (distinct : entries.Distinct) : entries.written.maps = entries.maps := by
  refine maps_eq (distinct_written distinct) distinct ?_ ?_
  · intro user
    exact (List.mergeSort_perm _ _).mem_iff
  · intro file
    exact (List.mergeSort_perm _ _).mem_iff

theorem Sound.written (sound : entries.Sound) : entries.written.Sound where
  toDistinct := distinct_written sound.toDistinct
  fits file member := sound.fits file ((List.mergeSort_perm _ _).mem_iff.1 member)

theorem file?_dropFile (entries : Entries) (id other : FileId) :
    (entries.dropFile id).file? other = if other = id then none else entries.file? other := by
  rw [file?, dropFile, List.find?_filter]
  split
  · rename_i same
    subst same
    exact List.find?_eq_none.2 fun file _ => by simp
  · rename_i different
    refine congrArg (entries.files.find? ·) (funext fun file => ?_)
    by_cases here : file.id = other
    · simp [here, different]
    · simp [here]

theorem maps_dropFile (entries : Entries) (id : FileId) :
    (entries.dropFile id).maps = entries.maps.dropFile id := by
  refine Maps.ext rfl (funext fun other => ?_)
  exact (file?_dropFile entries id other).trans (Function.update_apply ..).symm

theorem maps_putFile (entries : Entries) (file : FileRecord) :
    (entries.putFile file).maps = entries.maps.putFile file := by
  refine Maps.ext rfl (funext fun id => ?_)
  refine Eq.trans ?_ (Function.update_apply ..).symm
  have split : (entries.putFile file).file? id =
      ((entries.dropFile file.id).file? id).or ([file].find? fun other => other.id = id) :=
    List.find?_append
  change (entries.putFile file).file? id = _
  rw [split, file?_dropFile]
  by_cases same : id = file.id
  · simp [same]
  · simp [same, Ne.symm same]
    rfl

theorem user?_dropUser (entries : Entries) (id other : UserId) :
    (entries.dropUser id).user? other = if other = id then none else entries.user? other := by
  rw [user?, dropUser, List.find?_filter]
  split
  · rename_i same
    subst same
    exact List.find?_eq_none.2 fun user _ => by simp
  · rename_i different
    refine congrArg (entries.users.find? ·) (funext fun user => ?_)
    by_cases here : user.id = other
    · simp [here, different]
    · simp [here]

theorem maps_putUser (entries : Entries) (user : UserRecord) :
    (entries.putUser user).maps = entries.maps.putUser user := by
  refine Maps.ext (funext fun id => ?_) rfl
  refine Eq.trans ?_ (Function.update_apply ..).symm
  have split : (entries.putUser user).user? id =
      ((entries.dropUser user.id).user? id).or ([user].find? fun other => other.id = id) :=
    List.find?_append
  change (entries.putUser user).user? id = _
  rw [split, user?_dropUser]
  by_cases same : id = user.id
  · simp [same]
  · simp [same, Ne.symm same]
    rfl

theorem maps_putFile_dropFile {id : FileId} {file : FileRecord}
    (found : entries.file? id = some file) :
    ((entries.dropFile id).putFile file).maps = entries.maps := by
  obtain ⟨_, rfl⟩ := mem_of_file? found
  rw [maps_putFile, maps_dropFile]
  refine Maps.ext rfl ?_
  change Function.update (Function.update entries.file? file.id none) file.id (some file) =
    entries.file?
  rw [Function.update_idem, ← found, Function.update_eq_self]

theorem listedBefore_iff (a b : FileRecord) :
    listedBefore a b ↔
      a.createdAt < b.createdAt ∨ a.createdAt = b.createdAt ∧ a.fileName ≤ b.fileName := by
  rw [listedBefore, Bool.or_eq_true, Bool.and_eq_true, decide_eq_true_iff, decide_eq_true_iff,
    Bool.not_eq_true', decide_eq_false_iff_not, String.not_lt]

theorem listedBefore_trans (a b c : FileRecord) (first : listedBefore a b)
    (second : listedBefore b c) : listedBefore a c := by
  rw [listedBefore_iff] at *
  rcases first with older | ⟨age, name⟩
  · rcases second with older' | ⟨age', _⟩
    · exact .inl (Nat.lt_trans older older')
    · exact .inl (age' ▸ older)
  · rcases second with older' | ⟨age', name'⟩
    · exact .inl (age ▸ older')
    · exact .inr ⟨age.trans age', String.le_trans name name'⟩

theorem listedBefore_total (a b : FileRecord) : listedBefore a b || listedBefore b a := by
  rw [Bool.or_eq_true, listedBefore_iff, listedBefore_iff]
  rcases Nat.lt_trichotomy a.createdAt b.createdAt with older | age | newer
  · exact .inl (.inl older)
  · rcases String.le_total a.fileName b.fileName with name | name
    · exact .inl (.inr ⟨age, name⟩)
    · exact .inr (.inr ⟨age.symm, name⟩)
  · exact .inr (.inl newer)

theorem isListing_filesOf (distinct : entries.Distinct) (owner : UserId) :
    entries.maps.IsListing owner (entries.filesOf owner) where
  once := by
    refine (List.mergeSort_perm _ _).nodup_iff.2 (List.Nodup.filter _ ?_)
    exact List.Nodup.of_map FileRecord.id distinct.files
  owned file := by
    rw [filesOf, (List.mergeSort_perm _ _).mem_iff, List.mem_filter, decide_eq_true_iff]
    change _ ↔ entries.file? file.id = some file ∧ _
    rw [distinct.file?_eq_some, and_iff_left (rfl : file.id = file.id)]
  sorted := by
    have ordered := List.pairwise_mergeSort listedBefore_trans listedBefore_total
      (entries.files.filter fun file => file.owner = owner)
    exact ordered.imp fun {a b} before => (listedBefore_iff a b).1 before

end Entries

end Strongroom
