import Strongroom.Proofs.Catalog.Interchange

/-! # Several catalogs of one file

A catalog of a file works on a copy, which it reads when it is opened and writes as
a whole with every change. Nothing tells it what others write. So the file shows
what the catalog holds that wrote last, and a record that was added stays there as
long as nobody writes who was opened before.
-/

namespace Strongroom

/-- What is added to a catalog. -/
inductive CatalogRecord where
  | user (record : UserRecord)
  | file (record : FileRecord)

namespace CatalogRecord

def insertion : CatalogRecord → CatalogRequest
  | .user record => .insertUser record
  | .file record => .insert record

def IsIn (maps : Maps) : CatalogRecord → Prop
  | .user record => maps.user? record.id = some record
  | .file record => maps.file? record.id = some record

/-- Files can be taken out again, users cannot. -/
def IsRemovedBy (request : CatalogRequest) : CatalogRecord → Prop
  | .user _ => False
  | .file record => ∃ owner, request = .delete record.id owner

variable {record : CatalogRecord} {maps next : Maps} {request : CatalogRequest}

theorem isIn_of_insertion (changes : maps.Changes record.insertion next) : record.IsIn next := by
  cases record with
  | user => exact changes.newcomer
  | file =>
      cases changes with
      | insert => exact Function.update_self _ _ _

theorem IsIn.changes (there : record.IsIn maps) (changes : maps.Changes request next)
    (stays : ¬ record.IsRemovedBy request) : record.IsIn next := by
  have step : maps.Answers (.ok ()) request (.done (.ok ())) next := .changed changes rfl
  cases record with
  | user => exact step.keeps_user there
  | file file =>
      apply step.keeps_file there
      intro removed
      exact stays ⟨file.owner, removed⟩

end CatalogRecord

namespace Catalog

variable {path : Path} {tree tree' : FileTree} {entries : Entries} {request : CatalogRequest}
  {answer : CatalogAnswer} {next : Catalog}

theorem Mirrors.opens (mirrors : Mirrors path tree entries) :
    ∃ fresh, (openFile path).run tree = (.ok (.file path fresh), tree) ∧
      fresh.maps = entries.maps := by
  obtain ⟨fresh, opens, _, same⟩ := mirrors.fresh
  rw [run_openFile, opens]
  exact ⟨fresh, rfl, same⟩

theorem Mirrors.maps_eq (mirrors : Mirrors path tree entries) {others : Entries}
    (mirrors' : Mirrors path tree others) : entries.maps = others.maps := by
  obtain ⟨fresh, opens, _, same⟩ := mirrors.fresh
  obtain ⟨fresh', opens', _, same'⟩ := mirrors'.fresh
  rw [opens] at opens'
  cases opens'
  rw [← same, same']

/-- A call whose flush does not fail either succeeds in a change, which is then on
    disk, or leaves everything as it is. -/
theorem change_or_nothing (call : request ≠ .reopen) (sound : entries.Sound)
    (fits : request.Fits)
    (unfailing : ∀ staged, request.staged? (.file path entries) = some staged →
      (staged.flush.run tree).1 = .ok ())
    (ran : (request.run (.file path entries)).run tree = ((answer, next), tree')) :
    (answer = .done (.ok ()) ∧ ∃ after, next = .file path after ∧
        entries.maps.Changes request after.maps ∧ Mirrors path tree' after) ∨
      (answer ≠ .done (.ok ()) ∧ next = .file path entries ∧ tree' = tree) := by
  have own : (Catalog.file path entries).entries.Sound := sound
  have outcome := CatalogRequest.outcome_of_run call own fits (Script.runs_tree.2 ran)
  cases outcome with
  | still _ answers =>
      right
      refine ⟨?_, rfl, rfl⟩
      -- What changes nothing is answered alike if flushes fail, so this is no success.
      rintro rfl
      cases answers (.error .authentication) with
      | changed _ never => cases never
      | shown shows =>
          cases shows with
          | reopen => exact call rfl
  | @kept after _ _ sound changes flushed =>
      left
      have flushed := FileTree.runs_failing flushed
      obtain ⟨place, shows⟩ := at?_of_replaceDocument flushed
      exact ⟨rfl, after, rfl, changes, mirrors_of_flush sound shows⟩
  | undone staged _ _ flushed =>
      have kept := unfailing _ staged
      rw [Script.runs_tree.1 flushed] at kept
      cases kept

/-- Catalogs that are open at the same time, and the disk that they are on. -/
structure Shared where
  handles : List Catalog
  tree : FileTree

namespace Shared

inductive Event where
  /-- One more catalog is opened; it gets the next number. -/
  | opened
  /-- The catalog of a number is called, and has answered. -/
  | called (handle : Nat) (request : CatalogRequest) (answer : CatalogAnswer)

/-- A change that one of the catalogs has made with success. -/
def Event.ChangedBy (event : Event) (handle : Nat) : Prop :=
  ∃ request, event = .called handle request (.done (.ok ()))

def openings : List Event → Nat
  | [] => 0
  | .opened :: later => openings later + 1
  | .called .. :: later => openings later

/-- One catalog is opened or called, to the end, where no flush fails. -/
inductive Step (path : Path) (shared : Shared) : Event → Shared → Prop where
  | opened {catalog : Catalog} :
    (openFile path).run shared.tree = (.ok catalog, shared.tree) →
      Step path shared .opened { shared with handles := shared.handles ++ [catalog] }
  | called {handle : Nat} {catalog next : Catalog} {request : CatalogRequest}
      {answer : CatalogAnswer} {tree' : FileTree} :
    shared.handles[handle]? = some catalog → request ≠ .reopen → request.Fits →
      (∀ staged, request.staged? catalog = some staged →
        (staged.flush.run shared.tree).1 = .ok ()) →
        (request.run catalog).run shared.tree = ((answer, next), tree') →
          Step path shared (.called handle request answer)
            ⟨shared.handles.set handle next, tree'⟩

/-- Any number of catalogs, and their calls in any order. -/
inductive Course (path : Path) : Shared → List Event → Shared → Prop where
  | rest {shared : Shared} : Course path shared [] shared
  | step {shared next last : Shared} {event : Event} {later : List Event} :
    Step path shared event next → Course path next later last →
      Course path shared (event :: later) last

variable {shared next last : Shared} {event : Event} {before later events : List Event}

theorem Course.split (course : Course path shared (before ++ later) last) :
    ∃ mid, Course path shared before mid ∧ Course path mid later last := by
  induction before generalizing shared with
  | nil => exact ⟨shared, .rest, course⟩
  | cons event before ih =>
      cases course with
      | step now rest =>
          obtain ⟨mid, first, second⟩ := ih rest
          exact ⟨mid, .step now first, second⟩

theorem Step.length_handles (step : Step path shared event next) :
    next.handles.length = shared.handles.length + openings [event] := by
  cases step with
  | opened => simp [openings]
  | called => simp [openings]

theorem Course.length_handles (course : Course path shared events last) :
    last.handles.length = shared.handles.length + openings events := by
  induction course with
  | rest => rfl
  | @step _ _ _ event _ now _ ih =>
      have here := now.length_handles
      cases event with
      | opened | called =>
          simp only [openings] at here ⊢
          omega

/-- Each of the catalogs is one of the path, and holds what documents can hold. -/
def Sound (path : Path) (shared : Shared) : Prop :=
  ∀ (n : Nat) (catalog : Catalog), shared.handles[n]? = some catalog →
    ∃ entries, catalog = .file path entries ∧ entries.Sound

/-- What one step does: it opens a catalog as the disk shows it, or a call of one
    changes nothing, or the change of one is on disk. The other catalogs hold what
    they held. -/
inductive Effect (path : Path) (shared : Shared) : Event → Shared → Prop where
  | opened {entries : Entries} : Mirrors path shared.tree entries →
    Effect path shared .opened
      { shared with handles := shared.handles ++ [.file path entries] }
  | still {handle : Nat} {request : CatalogRequest} {answer : CatalogAnswer} :
    answer ≠ .done (.ok ()) → Effect path shared (.called handle request answer) shared
  | changed {handle : Nat} {request : CatalogRequest} {entries after : Entries}
      {tree' : FileTree} :
    shared.handles[handle]? = some (.file path entries) →
      entries.maps.Changes request after.maps → Mirrors path tree' after →
        Effect path shared (.called handle request (.done (.ok ())))
          ⟨shared.handles.set handle (.file path after), tree'⟩

theorem Step.effect (sound : shared.Sound path) (step : Step path shared event next) :
    Effect path shared event next := by
  cases step with
  | opened opens =>
      obtain ⟨entries, rfl, sound⟩ := sound_of_opened (opened_of_openFile opens)
      exact .opened ⟨sound, entries, opened_of_openFile opens, sound, rfl⟩
  | @called handle catalog next request answer tree' held call fits unfailing ran =>
      obtain ⟨entries, rfl, own⟩ := sound handle catalog held
      rcases change_or_nothing call own fits unfailing ran with
        ⟨rfl, after, rfl, changes, mirrors⟩ | ⟨other, rfl, rfl⟩
      · exact .changed held changes mirrors
      · obtain ⟨inside, here⟩ := List.getElem?_eq_some_iff.1 held
        rw [← here, List.set_getElem_self inside]
        exact .still other

theorem Effect.sound (effect : Effect path shared event next) (sound : shared.Sound path) :
    next.Sound path := by
  cases effect with
  | still => exact sound
  | opened mirrors =>
      intro n catalog held
      grind [Sound, Mirrors.sound]
  | changed there changes mirrors =>
      intro n catalog held
      grind [Sound, Mirrors.sound]

/-- A catalog that holds what it would hold if it were opened anew. -/
def IsCurrent (path : Path) (n : Nat) (shared : Shared) : Prop :=
  ∃ entries, shared.handles[n]? = some (.file path entries) ∧ Mirrors path shared.tree entries

/-- A catalog is current when it has been opened, or has made a change. -/
theorem Effect.isCurrent {n : Nat} (effect : Effect path shared event next)
    (fresh : event = .opened ∧ n = shared.handles.length ∨ event.ChangedBy n) :
    next.IsCurrent path n := by
  cases effect with
  | @opened entries mirrors =>
      obtain ⟨_, rfl⟩ | ⟨_, never⟩ := fresh
      · exact ⟨entries, List.getElem?_concat_length, mirrors⟩
      · cases never
  | still other =>
      obtain ⟨never, _⟩ | ⟨_, same⟩ := fresh
      · cases never
      · cases same
        exact absurd rfl other
  | @changed _ _ _ after _ held _ mirrors =>
      obtain ⟨never, _⟩ | ⟨_, same⟩ := fresh
      · cases never
      · cases same
        have inside : n < shared.handles.length := by grind
        exact ⟨after, List.getElem?_set_self inside, mirrors⟩

/-- It stays so until another one makes a change. -/
theorem IsCurrent.effect {n : Nat} (current : shared.IsCurrent path n)
    (effect : Effect path shared event next) (alone : ∀ m, event.ChangedBy m → m = n) :
    next.IsCurrent path n := by
  obtain ⟨entries, held, mirrors⟩ := current
  cases effect with
  | opened =>
      have inside : n < shared.handles.length := by grind
      exact ⟨entries, (List.getElem?_append_left inside).trans held, mirrors⟩
  | still => exact ⟨entries, held, mirrors⟩
  | changed there changes mirrors' =>
      apply Effect.isCurrent (.changed there changes mirrors')
      cases alone _ ⟨_, rfl⟩
      exact .inr ⟨_, rfl⟩

theorem Course.sound (course : Course path shared events last) (sound : shared.Sound path) :
    last.Sound path := by
  induction course with
  | rest => exact sound
  | step now _ ih => exact ih ((now.effect sound).sound sound)

theorem Course.isCurrent {n : Nat} (course : Course path shared events last)
    (sound : shared.Sound path) (current : shared.IsCurrent path n)
    (alone : ∀ event ∈ events, ∀ m, event.ChangedBy m → m = n) : last.IsCurrent path n := by
  induction course with
  | rest => exact current
  | step now _ ih =>
      obtain ⟨here, later⟩ := List.forall_mem_cons.1 alone
      have effect := now.effect sound
      exact ih (effect.sound sound) (current.effect effect here) later

theorem Course.tree_eq (course : Course path shared events last) (sound : shared.Sound path)
    (idle : ∀ event ∈ events, ∀ m, ¬ event.ChangedBy m) : last.tree = shared.tree := by
  induction course with
  | rest => rfl
  | step now _ ih =>
      obtain ⟨here, later⟩ := List.forall_mem_cons.1 idle
      have effect := now.effect sound
      rw [ih (effect.sound sound) later]
      cases effect with
      | opened | still => rfl
      | changed => exact absurd ⟨_, rfl⟩ (here _)

/-- A record that the disk shows, and that is held by the catalog of number `own` and
    by those from the number `since` on. -/
structure Keeps (path : Path) (record : CatalogRecord) (own since : Nat) (shared : Shared) :
    Prop where
  shown : ∃ entries, Mirrors path shared.tree entries ∧ record.IsIn entries.maps
  held : ∀ (n : Nat) (catalog : Catalog), n = own ∨ since ≤ n →
    shared.handles[n]? = some catalog → record.IsIn catalog.entries.maps

/-- One step keeps the record, unless it takes it out or writes what was read before
    the record was added. -/
theorem Keeps.effect {record : CatalogRecord} {own since : Nat}
    (keeps : shared.Keeps path record own since) (effect : Effect path shared event next)
    (stays : ∀ n request, event = .called n request (.done (.ok ())) →
      ¬ record.IsRemovedBy request)
    (late : ∀ n, event.ChangedBy n → n = own ∨ since ≤ n) :
    next.Keeps path record own since := by
  obtain ⟨⟨entries, mirrors, there⟩, held⟩ := keeps
  cases effect with
  | @opened fresh mirrors' =>
      refine ⟨⟨entries, mirrors, there⟩, ?_⟩
      intro n catalog late found
      rw [List.getElem?_append] at found
      split at found
      · exact held n catalog late found
      · rw [List.getElem?_singleton] at found
        split at found
        · cases found
          exact mirrors.maps_eq mirrors' ▸ there
        · cases found
  | still => exact ⟨⟨entries, mirrors, there⟩, held⟩
  | @changed n request before after tree' found changes mirrors' =>
      have kept : record.IsIn after.maps :=
        (held n _ (late n ⟨request, rfl⟩) found).changes changes (stays n request rfl)
      refine ⟨⟨after, mirrors', kept⟩, ?_⟩
      intro m catalog late found'
      rw [List.getElem?_set] at found'
      split at found'
      · split at found'
        · cases found'
          exact kept
        · cases found'
      · exact held m catalog late found'

theorem Course.keeps {record : CatalogRecord} {own since : Nat}
    (course : Course path shared events last) (sound : shared.Sound path)
    (keeps : shared.Keeps path record own since)
    (stays : ∀ n request, .called n request (.done (.ok ())) ∈ events →
      ¬ record.IsRemovedBy request)
    (late : ∀ event ∈ events, ∀ n, event.ChangedBy n → n = own ∨ since ≤ n) :
    last.Keeps path record own since := by
  induction course with
  | rest => exact keeps
  | step now _ ih =>
      obtain ⟨here, later⟩ := List.forall_mem_cons.1 late
      have effect := now.effect sound
      apply ih (effect.sound sound) _ (fun n request member => stays n request (.tail _ member))
        later
      apply keeps.effect effect _ here
      rintro n request rfl
      exact stays n request (.head _)

/-- A record that has just been added is on disk, in the catalog that added it, and in
    no other that is open; those that are opened from now on will hold it. -/
theorem Effect.keeps {record : CatalogRecord} {n : Nat}
    (effect : Effect path shared (.called n record.insertion (.done (.ok ()))) next) :
    next.Keeps path record n shared.handles.length := by
  cases effect with
  | still other => exact absurd rfl other
  | @changed _ _ before after _ held changes mirrors =>
      have added := CatalogRecord.isIn_of_insertion changes
      refine ⟨⟨after, mirrors, added⟩, ?_⟩
      intro m catalog late found
      have inside : m < (shared.handles.set n (.file path after)).length :=
        (List.getElem?_eq_some_iff.1 found).1
      rw [List.length_set] at inside
      obtain rfl : m = n := by omega
      cases (List.getElem?_set_self inside).symm.trans found
      exact added

theorem Step.addsUser {n : Nat} {user : UserRecord} {entries after : Entries} {tree' : FileTree}
    (held : shared.handles[n]? = some (.file path entries)) (sound : entries.Sound)
    (ran : ((CatalogRequest.insertUser user).run (.file path entries)).run shared.tree =
      ((.done (.ok ()), .file path after), tree')) :
    Step path shared (.called n (.insertUser user) (.done (.ok ())))
      ⟨shared.handles.set n (.file path after), tree'⟩ := by
  have call : CatalogRequest.insertUser user ≠ .reopen := by
    intro never
    cases never
  refine .called held call trivial ?_ ran
  have own : (Catalog.file path entries).entries.Sound := sound
  have outcome := CatalogRequest.outcome_of_run call own trivial (Script.runs_tree.2 ran)
  intro staged stages
  generalize same : (CatalogAnswer.done (.ok ())) = answer at outcome
  cases outcome with
  | still nothing =>
      rw [nothing] at stages
      cases stages
  | kept kept _ _ flushed =>
      cases kept.symm.trans stages
      exact congrArg Prod.fst (Script.runs_tree.1 flushed)
  | undone => cases same

/-- Take any number of catalogs that are opened at the same path, one after the other,
    and called in any order, where no flush fails. Whatever they do:

    If none of them makes a change, the disk is as it was. If one is opened or makes a
    change, and no other makes one after that, then it holds just what a catalog holds
    that is opened later: all that it shows is on disk. And a record that was added is
    found by every catalog that is opened later, if no file is taken out that has its
    identifier and those who make changes after that are the one that added it and such
    as were opened since. -/
theorem last_change_is_shown (course : Course path ⟨[], tree⟩ events last) :
    ((∀ event ∈ events, ∀ m, ¬ event.ChangedBy m) → last.tree = tree) ∧
      (∀ before event later n, events = before ++ event :: later →
        (event = .opened ∧ n = openings before ∨ event.ChangedBy n) →
          (∀ other ∈ later, ∀ m, other.ChangedBy m → m = n) →
            ∃ catalog fresh, last.handles[n]? = some catalog ∧
              (openFile path).run last.tree = (.ok (.file path fresh), last.tree) ∧
                fresh.maps = catalog.entries.maps) ∧
        ∀ before n later (record : CatalogRecord),
          events = before ++ .called n record.insertion (.done (.ok ())) :: later →
            (∀ m request, .called m request (.done (.ok ())) ∈ later →
              ¬ record.IsRemovedBy request) →
              (∀ other ∈ later, ∀ m, other.ChangedBy m → m = n ∨ openings before ≤ m) →
                ∃ fresh, (openFile path).run last.tree =
                    (.ok (.file path fresh), last.tree) ∧ record.IsIn fresh.maps := by
  have none : Sound path ⟨[], tree⟩ := by
    intro n catalog never
    cases never
  refine ⟨course.tree_eq none, ?_, ?_⟩
  · rintro before event later n rfl fresh alone
    obtain ⟨mid, first, second⟩ := course.split
    have count := first.length_handles
    rw [List.length_nil, Nat.zero_add] at count
    have sound := first.sound none
    cases second with
    | step now rest =>
        have effect := now.effect sound
        have current := effect.isCurrent (count ▸ fresh)
        obtain ⟨entries, held, mirrors⟩ := rest.isCurrent (effect.sound sound) current alone
        obtain ⟨again, opens, same⟩ := mirrors.opens
        exact ⟨_, again, held, opens, same⟩
  · rintro before n later record rfl stays late
    obtain ⟨mid, first, second⟩ := course.split
    have count := first.length_handles
    rw [List.length_nil, Nat.zero_add] at count
    have sound := first.sound none
    cases second with
    | step now rest =>
        have effect := now.effect sound
        have keeps := rest.keeps (effect.sound sound) effect.keeps stays (count ▸ late)
        obtain ⟨entries, mirrors, there⟩ := keeps.shown
        obtain ⟨again, opens, same⟩ := mirrors.opens
        exact ⟨again, opens, same ▸ there⟩

def sampleTree (entries : Entries) : FileTree :=
  { entries := [(["catalog.json"], .file [Bytes.ofText entries.toText])] }

theorem sampleTree_opens {entries : Entries} (sound : entries.Sound) :
    (openFile ⟨"catalog.json"⟩).run (sampleTree entries) =
      (.ok (.file ⟨"catalog.json"⟩ entries.written), sampleTree entries) := by
  have shown : (sampleTree entries).at? ⟨"catalog.json"⟩ =
      some (["catalog.json"], .file [Bytes.ofText entries.toText]) := rfl
  rw [run_openFile, shown, opened_toText _ _ sound]

/-- A user is added, a second catalog is opened and adds another one: who opens the
    file then finds the first one, too. -/
theorem last_change_is_shown_of_two_users :
    let path : Path := ⟨"catalog.json"⟩
    let alice : UserRecord := ⟨⟨⟨1⟩⟩, "alice", [1, 2, 3]⟩
    let bob : UserRecord := ⟨⟨⟨2⟩⟩, "bob", [4, 5, 6]⟩
    let before : List Event := [.opened]
    let later : List Event := [.opened, .called 1 (.insertUser bob) (.done (.ok ()))]
    (∀ other ∈ later, ∀ m, other.ChangedBy m → m = 0 ∨ openings before ≤ m) ∧
      ∃ last fresh,
        Course path ⟨[], {}⟩ (before ++ .called 0 (.insertUser alice) (.done (.ok ())) :: later)
          last ∧
          (openFile path).run last.tree = (.ok (.file path fresh), last.tree) ∧
            fresh.maps.user? alice.id = some alice := by
  intro path alice bob before later
  have nobody : ({} : Entries).Sound := ⟨⟨List.nodup_nil, List.nodup_nil⟩, List.forall_mem_nil _⟩
  have sound : (⟨[alice], []⟩ : Entries).Sound :=
    ⟨⟨List.nodup_singleton _, List.nodup_nil⟩, List.forall_mem_nil _⟩
  have opens : (openFile ⟨"catalog.json"⟩).run {} = (.ok (.file ⟨"catalog.json"⟩ {}), {}) := rfl
  have adds : ((CatalogRequest.insertUser alice).run (.file ⟨"catalog.json"⟩ {})).run {} =
      ((.done (.ok ()), .file ⟨"catalog.json"⟩ ⟨[alice], []⟩), sampleTree ⟨[alice], []⟩) := rfl
  have opens' : (openFile ⟨"catalog.json"⟩).run (sampleTree ⟨[alice], []⟩) =
      (.ok (.file ⟨"catalog.json"⟩ ⟨[alice], []⟩), sampleTree ⟨[alice], []⟩) := by
    rw [sampleTree_opens sound]
    simp [Entries.written]
  have adds' : ((CatalogRequest.insertUser bob).run
      (.file ⟨"catalog.json"⟩ ⟨[alice], []⟩)).run (sampleTree ⟨[alice], []⟩) =
        ((.done (.ok ()), .file ⟨"catalog.json"⟩ ⟨[alice, bob], []⟩),
          sampleTree ⟨[alice, bob], []⟩) := rfl
  have course : Course path ⟨[], {}⟩
      (before ++ .called 0 (.insertUser alice) (.done (.ok ())) :: later)
      ⟨[.file path ⟨[alice], []⟩, .file path ⟨[alice, bob], []⟩],
        sampleTree ⟨[alice, bob], []⟩⟩ :=
    .step (.opened opens) (.step (.addsUser rfl nobody adds)
      (.step (.opened opens') (.step (.addsUser rfl sound adds') .rest)))
  have late : ∀ other ∈ later, ∀ m, other.ChangedBy m → m = 0 ∨ openings before ≤ m := by
    rintro other member m ⟨request, rfl⟩
    right
    simp [later] at member
    simp [before, openings, member]
  obtain ⟨fresh, opens, found⟩ := (last_change_is_shown course).2.2 before 0 later (.user alice)
    rfl (fun _ _ _ never => never) late
  exact ⟨late, _, fresh, course, opens, found⟩

/-- Two catalogs are opened, and then each of them adds a user. The second one writes
    what it has read before the first one did: both calls succeed, but only one user is
    on disk, while the first catalog still shows the other one. -/
theorem second_catalog_overwrites_first :
    let path : Path := ⟨"catalog.json"⟩
    let alice : UserRecord := ⟨⟨⟨1⟩⟩, "alice", [1, 2, 3]⟩
    let bob : UserRecord := ⟨⟨⟨2⟩⟩, "bob", [4, 5, 6]⟩
    ∃ last fresh catalog,
      Course path ⟨[], {}⟩
        [.opened, .opened, .called 0 (.insertUser alice) (.done (.ok ())),
          .called 1 (.insertUser bob) (.done (.ok ()))] last ∧
        (openFile path).run last.tree = (.ok (.file path fresh), last.tree) ∧
          fresh.maps.user? alice.id = none ∧
            last.handles[0]? = some catalog ∧ catalog.entries.maps.user? alice.id = some alice := by
  intro path alice bob
  have nobody : ({} : Entries).Sound := ⟨⟨List.nodup_nil, List.nodup_nil⟩, List.forall_mem_nil _⟩
  have sound : (⟨[bob], []⟩ : Entries).Sound :=
    ⟨⟨List.nodup_singleton _, List.nodup_nil⟩, List.forall_mem_nil _⟩
  have opens : (openFile ⟨"catalog.json"⟩).run {} = (.ok (.file ⟨"catalog.json"⟩ {}), {}) := rfl
  have adds : ((CatalogRequest.insertUser alice).run (.file ⟨"catalog.json"⟩ {})).run {} =
      ((.done (.ok ()), .file ⟨"catalog.json"⟩ ⟨[alice], []⟩), sampleTree ⟨[alice], []⟩) := rfl
  have overwrites : ((CatalogRequest.insertUser bob).run
      (.file ⟨"catalog.json"⟩ {})).run (sampleTree ⟨[alice], []⟩) =
        ((.done (.ok ()), .file ⟨"catalog.json"⟩ ⟨[bob], []⟩), sampleTree ⟨[bob], []⟩) := rfl
  have course : Course path ⟨[], {}⟩
      [.opened, .opened, .called 0 (.insertUser alice) (.done (.ok ())),
        .called 1 (.insertUser bob) (.done (.ok ()))]
      ⟨[.file path ⟨[alice], []⟩, .file path ⟨[bob], []⟩], sampleTree ⟨[bob], []⟩⟩ :=
    .step (.opened opens) (.step (.opened opens)
      (.step (.addsUser rfl nobody adds) (.step (.addsUser rfl nobody overwrites) .rest)))
  have gone : (⟨[bob], []⟩ : Entries).written.maps.user? alice.id = none := by
    rw [Entries.maps_written sound.toDistinct]
    rfl
  exact ⟨_, _, .file path ⟨[alice], []⟩, course, sampleTree_opens sound, gone, rfl, rfl⟩

end Shared

end Catalog

end Strongroom
