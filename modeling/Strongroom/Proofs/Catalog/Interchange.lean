import Strongroom.Proofs.Catalog.Durability

/-! # Catalogs stand in for each other

A catalog in memory and one in a file answer alike, call by call, also where the
latter is closed and opened anew in between. Both take one course through maps, on
which a file stays until its owner takes it out and a user stays for good.
-/

namespace Strongroom

namespace Maps

variable {maps next last : Maps} {request : CatalogRequest} {flushed : Except Error Unit}
  {answer : CatalogAnswer} {requests before later : List CatalogRequest}
  {answers answers' : List CatalogAnswer}

theorem sound_empty : ({} : Maps).Sound where
  users _ _ never := by cases never
  files _ _ never := by cases never
  logins _ _ _ _ never := by cases never

theorem Sound.putFile (sound : maps.Sound) (file : FileRecord) : (maps.putFile file).Sound where
  users := sound.users
  files := by
    intro id other found
    by_cases same : id = file.id
    · subst same
      rw [show (maps.putFile file).file? file.id = some file from Function.update_self ..] at found
      cases found
      rfl
    · exact sound.files id other ((Function.update_of_ne same ..).symm.trans found)
  logins := sound.logins

theorem Sound.dropFile (sound : maps.Sound) (dropped : FileId) : (maps.dropFile dropped).Sound where
  users := sound.users
  files := by
    intro id file found
    by_cases same : id = dropped
    · subst same
      rw [show (maps.dropFile id).file? id = none from Function.update_self ..] at found
      cases found
    · exact sound.files id file ((Function.update_of_ne same ..).symm.trans found)
  logins := sound.logins

theorem user?_putUser {user other : UserRecord} {id : UserId}
    (found : (maps.putUser user).user? id = some other) :
    (id = user.id ∧ other = user) ∨ (id ≠ user.id ∧ maps.user? id = some other) := by
  by_cases same : id = user.id
  · subst same
    rw [show (maps.putUser user).user? user.id = some user from Function.update_self ..] at found
    cases found
    exact .inl ⟨rfl, rfl⟩
  · exact .inr ⟨same, (Function.update_of_ne same ..).symm.trans found⟩

theorem Sound.putUser (sound : maps.Sound) {user : UserRecord}
    (free : ∀ id other, maps.user? id = some other → other.login ≠ user.login) :
    (maps.putUser user).Sound where
  users := by
    intro id other found
    rcases user?_putUser found with ⟨rfl, rfl⟩ | ⟨_, there⟩
    · rfl
    · exact sound.users id other there
  files := sound.files
  logins := by
    intro id id' first second found found' same
    rcases user?_putUser found with ⟨rfl, rfl⟩ | ⟨_, there⟩
    · rcases user?_putUser found' with ⟨rfl, _⟩ | ⟨_, there'⟩
      · rfl
      · exact absurd same.symm (free id' second there')
    · rcases user?_putUser found' with ⟨rfl, rfl⟩ | ⟨_, there'⟩
      · exact absurd same (free id first there)
      · exact sound.logins id id' first second there there' same

theorem Changes.sound (changes : maps.Changes request next) (sound : maps.Sound) : next.Sound := by
  cases changes with
  | insert => exact sound.putFile _
  | delete => exact sound.dropFile _
  | insertUser _ free => exact sound.putUser free

theorem Answers.sound (step : maps.Answers flushed request answer next) (sound : maps.Sound) :
    next.Sound := by
  cases step with
  | changed changes => exact changes.sound sound
  | lost | refused | shown => exact sound

/-- A file is neither overwritten nor lost, unless its owner takes it out. -/
theorem Answers.keeps_file (step : maps.Answers flushed request answer next) {id : FileId}
    {file : FileRecord} (held : maps.file? id = some file)
    (stays : request ≠ .delete id file.owner) : next.file? id = some file := by
  cases step with
  | lost | refused | shown => exact held
  | changed changes =>
      cases changes with
      | @insert record absent =>
          have new : id ≠ record.id := by
            rintro rfl
            rw [absent] at held
            cases held
          exact (Function.update_of_ne new ..).trans held
      | @delete dropped owner other there owned =>
          have another : id ≠ dropped := by
            rintro rfl
            rw [there] at held
            cases held
            exact stays (congrArg _ owned.symm)
          exact (Function.update_of_ne another ..).trans held
      | insertUser => exact held

theorem Answers.keeps_user (step : maps.Answers flushed request answer next) {id : UserId}
    {user : UserRecord} (held : maps.user? id = some user) : next.user? id = some user := by
  cases step with
  | lost | refused | shown => exact held
  | changed changes =>
      cases changes with
      | insert | delete => exact held
      | @insertUser added unknown _ =>
          have new : id ≠ added.id := by
            rintro rfl
            rw [unknown] at held
            cases held
          exact (Function.update_of_ne new ..).trans held

/-- How maps answer calls, one after the other, where every change is kept. -/
inductive Follows : Maps → List CatalogRequest → List CatalogAnswer → Maps → Prop where
  | rest {maps : Maps} : Follows maps [] [] maps
  | call {maps next last : Maps} {request : CatalogRequest} {answer : CatalogAnswer}
      {later : List CatalogRequest} {answers : List CatalogAnswer} :
    maps.Answers (.ok ()) request answer next → Follows next later answers last →
      Follows maps (request :: later) (answer :: answers) last

theorem Follows.sound (follows : maps.Follows requests answers last) (sound : maps.Sound) :
    last.Sound := by
  induction follows with
  | rest => exact sound
  | call step _ ih => exact ih (step.sound sound)

theorem Follows.keeps_file (follows : maps.Follows requests answers last) {id : FileId}
    {file : FileRecord} (held : maps.file? id = some file)
    (stays : .delete id file.owner ∉ requests) : last.file? id = some file := by
  induction follows with
  | rest => exact held
  | call step _ ih =>
      have here := step.keeps_file held fun same => stays (List.mem_cons.2 (.inl same.symm))
      exact ih here fun member => stays (List.mem_cons.2 (.inr member))

theorem Follows.keeps_user (follows : maps.Follows requests answers last) {id : UserId}
    {user : UserRecord} (held : maps.user? id = some user) : last.user? id = some user := by
  induction follows with
  | rest => exact held
  | call step _ ih => exact ih (step.keeps_user held)

theorem Follows.split (follows : maps.Follows (before ++ later) answers last) :
    ∃ mid, maps.Follows before (answers.take before.length) mid ∧
      mid.Follows later (answers.drop before.length) last := by
  induction before generalizing maps answers with
  | nil => exact ⟨maps, .rest, follows⟩
  | cons request before ih =>
      cases follows with
      | call step rest =>
          obtain ⟨mid, first, second⟩ := ih rest
          exact ⟨mid, .call step first, second⟩

/-- The maps tell the answers, and what they are in the end. -/
theorem Follows.alike {last' : Maps} (first : maps.Follows requests answers last)
    (second : maps.Follows requests answers' last') :
    List.Forall₂ CatalogAnswer.Alike answers answers' ∧ last = last' := by
  induction first generalizing answers' with
  | rest =>
      cases second
      exact ⟨.nil, rfl⟩
  | call step _ ih =>
      cases second with
      | call step' rest' =>
          obtain ⟨alike, rfl⟩ := step.alike step'
          obtain ⟨all, same⟩ := ih rest'
          exact ⟨.cons alike all, same⟩

end Maps

namespace Catalog

variable {path : Path} {tree : FileTree} {entries : Entries} {request : CatalogRequest}

def runAll : List CatalogRequest → Catalog → Script (List CatalogAnswer × Catalog)
  | [], catalog => return ([], catalog)
  | request :: later, catalog => do
    let (answer, catalog) ← request.run catalog
    let (answers, catalog) ← runAll later catalog
    return (answer :: answers, catalog)

/-- No flush of the calls fails. -/
def Unfailing : List CatalogRequest → Catalog → FileTree → Prop
  | [], _, _ => True
  | request :: later, catalog, tree =>
    (∀ staged, request.staged? catalog = some staged → (staged.flush.run tree).1 = .ok ()) ∧
      Unfailing later ((request.run catalog).run tree).1.2 ((request.run catalog).run tree).2

theorem run_runAll (request : CatalogRequest) (later : List CatalogRequest) (catalog : Catalog)
    (tree : FileTree) {answer : CatalogAnswer} {answers : List CatalogAnswer} {next last : Catalog}
    {tree' tree'' : FileTree} (now : (request.run catalog).run tree = ((answer, next), tree'))
    (rest : (runAll later next).run tree' = ((answers, last), tree'')) :
    (runAll (request :: later) catalog).run tree = ((answer :: answers, last), tree'') := by
  refine Script.runs_tree.1 (Script.runs_bind.2 ⟨_, _, Script.runs_tree.2 now, ?_⟩)
  exact Script.runs_bind.2 ⟨_, _, Script.runs_tree.2 rest, Script.runs_pure.2 ⟨rfl, rfl⟩⟩

/-- In memory a call needs no disk. -/
theorem run_memory (sound : entries.Sound) (fits : request.Fits) (tree : FileTree) :
    ∃ answer entries', (request.run (.memory entries)).run tree =
        ((answer, .memory entries'), tree) ∧ entries'.Sound ∧
          entries.maps.Answers (.ok ()) request answer entries'.maps := by
  by_cases call : request = .reopen
  · subst call
    exact ⟨.done (.ok ()), entries, rfl, sound, .shown .reopen⟩
  · obtain ⟨⟨answer, catalog⟩, tree', runs⟩ :=
      Script.exists_runs FileTree.disk (request.run (.memory entries)) tree
    have sound' : (Catalog.memory entries).entries.Sound := sound
    have outcome := CatalogRequest.outcome_of_run call sound' fits runs
    cases outcome with
    | still _ answers => exact ⟨answer, entries, Script.runs_tree.1 runs, sound, answers _⟩
    | @kept after _ _ sound changes flushed =>
        obtain ⟨_, rfl⟩ := Script.runs_pure.1 flushed
        exact ⟨_, after, Script.runs_tree.1 runs, sound, .changed changes rfl⟩
    | undone _ _ _ flushed =>
        obtain ⟨never, _⟩ := Script.runs_pure.1 flushed
        cases never

theorem Mirrors.answers (mirrors : Mirrors path tree entries) (fits : request.Fits)
    (unfailing : ∀ staged, request.staged? (.file path entries) = some staged →
      (staged.flush.run tree).1 = .ok ()) :
    ∃ answer entries' tree', (request.run (.file path entries)).run tree =
        ((answer, .file path entries'), tree') ∧ Mirrors path tree' entries' ∧
          entries.maps.Answers (.ok ()) request answer entries'.maps := by
  by_cases call : request = .reopen
  · subst call
    obtain ⟨fresh, opens, sound, same⟩ := mirrors.fresh
    have opened : (openFile path).run tree = (.ok (.file path fresh), tree) := by
      rw [run_openFile, opens]
    refine ⟨.done (.ok ()), fresh, tree, ?_, ⟨sound, fresh, opens, sound, rfl⟩, ?_⟩
    · refine Script.runs_tree.1 (Script.runs_bind.2 ⟨_, _, Script.runs_tree.2 opened, ?_⟩)
      exact Script.runs_pure.2 ⟨rfl, rfl⟩
    · rw [same]
      exact .shown .reopen
  · obtain ⟨⟨answer, catalog⟩, tree', runs⟩ :=
      Script.exists_runs FileTree.disk (request.run (.file path entries)) tree
    have sound : (Catalog.file path entries).entries.Sound := mirrors.sound
    have outcome := CatalogRequest.outcome_of_run call sound fits runs
    cases outcome with
    | still _ answers =>
        exact ⟨answer, entries, tree, Script.runs_tree.1 runs, mirrors, answers _⟩
    | @kept after _ _ sound changes flushed =>
        have flushed := FileTree.runs_failing flushed
        obtain ⟨place, shows⟩ := at?_of_replaceDocument flushed
        exact ⟨_, after, tree', Script.runs_tree.1 runs, mirrors_of_flush sound shows,
          .changed changes rfl⟩
    | undone staged _ _ flushed =>
        have kept := unfailing _ staged
        rw [Script.runs_tree.1 flushed] at kept
        cases kept

theorem run_memories {requests : List CatalogRequest} (sound : entries.Sound)
    (fit : ∀ request ∈ requests, request.Fits) (tree : FileTree) :
    ∃ answers entries', (runAll requests (.memory entries)).run tree =
        ((answers, .memory entries'), tree) ∧
      entries.maps.Follows requests answers entries'.maps := by
  induction requests generalizing entries with
  | nil => exact ⟨[], entries, rfl, .rest⟩
  | cons request later ih =>
      have ⟨fits, rest⟩ := List.forall_mem_cons.1 fit
      obtain ⟨answer, next, now, sound', step⟩ := run_memory sound fits tree
      obtain ⟨answers, last, then_, follows⟩ := ih sound' rest
      exact ⟨answer :: answers, last, run_runAll request later _ tree now then_,
        .call step follows⟩

theorem Mirrors.follows {requests : List CatalogRequest} (mirrors : Mirrors path tree entries)
    (fit : ∀ request ∈ requests, request.Fits)
    (unfailing : Unfailing requests (.file path entries) tree) :
    ∃ answers entries' tree', (runAll requests (.file path entries)).run tree =
        ((answers, .file path entries'), tree') ∧
          entries.maps.Follows requests answers entries'.maps := by
  induction requests generalizing entries tree with
  | nil => exact ⟨[], entries, tree, rfl, .rest⟩
  | cons request later ih =>
      have ⟨fits, rest⟩ := List.forall_mem_cons.1 fit
      obtain ⟨kept, unfailing⟩ := unfailing
      obtain ⟨answer, next, tree₁, now, mirrors', step⟩ := mirrors.answers fits kept
      rw [now] at unfailing
      obtain ⟨answers, last, tree', then_, follows⟩ := ih mirrors' rest unfailing
      exact ⟨answer :: answers, last, tree', run_runAll request later _ tree now then_,
        .call step follows⟩

/-- Take a catalog in memory and one of a file, both empty, and any calls of which no
    flush fails, with the latter opened anew wherever the calls say so. Both answer every
    call alike, as one course of maps does that both follow. In these every record
    stands under its own identifier and no two users have one login, a file that is held
    stays until its owner takes it out, and a user stays. -/
theorem memory_and_file_answer_alike
    (opens : (openFile path).run tree = (.ok (.file path {}), tree))
    {requests : List CatalogRequest} (fit : ∀ request ∈ requests, request.Fits)
    (unfailing : Unfailing requests (.file path {}) tree) :
    ∃ answers answers' entries entries' tree',
      (runAll requests (.memory {})).run tree = ((answers, .memory entries), tree) ∧
        (runAll requests (.file path {})).run tree = ((answers', .file path entries'), tree') ∧
          List.Forall₂ CatalogAnswer.Alike answers answers' ∧ entries.maps = entries'.maps ∧
            ∀ before later, requests = before ++ later →
              ∃ mid, ({} : Maps).Follows before (answers.take before.length) mid ∧
                ({} : Maps).Follows before (answers'.take before.length) mid ∧ mid.Sound ∧
                  mid.Follows later (answers.drop before.length) entries.maps ∧
                    mid.Follows later (answers'.drop before.length) entries.maps ∧
                      (∀ id file, mid.file? id = some file → .delete id file.owner ∉ later →
                          entries.maps.file? id = some file) ∧
                        ∀ id user, mid.user? id = some user →
                          entries.maps.user? id = some user := by
  rw [run_openFile] at opens
  have sound : ({} : Entries).Sound := ⟨⟨List.nodup_nil, List.nodup_nil⟩, List.forall_mem_nil _⟩
  have mirrors : Mirrors path tree {} := ⟨sound, {}, congrArg Prod.fst opens, sound, rfl⟩
  obtain ⟨answers, entries, ran, follows⟩ := run_memories sound fit tree
  obtain ⟨answers', entries', tree', ran', follows'⟩ := mirrors.follows fit unfailing
  obtain ⟨alike, same⟩ := follows.alike follows'
  refine ⟨answers, answers', entries, entries', tree', ran, ran', alike, same, ?_⟩
  rintro before later rfl
  obtain ⟨mid, first, rest⟩ := follows.split
  obtain ⟨mid', first', rest'⟩ := follows'.split
  obtain ⟨_, rfl⟩ := first.alike first'
  rw [← same] at rest'
  exact ⟨mid, first, first', first.sound Maps.sound_empty, rest, rest',
    fun _ _ held stays => rest.keeps_file held stays, fun _ _ held => rest.keeps_user held⟩

/-- A user who is added finds the key again after the file is opened anew, as in
    memory. -/
theorem memory_and_file_answer_alike_on_a_key :
    let path : Path := ⟨"catalog.json"⟩
    let alice : UserRecord := ⟨⟨⟨1⟩⟩, "alice", [1, 2, 3]⟩
    let requests : List CatalogRequest := [.insertUser alice, .reopen, .wrappedKey alice.id]
    (openFile path).run {} = (.ok (.file path {}), {}) ∧ (∀ request ∈ requests, request.Fits) ∧
      Unfailing requests (.file path {}) {} ∧
        ∃ entries' tree', (runAll requests (.file path {})).run {} =
          (([.done (.ok ()), .done (.ok ()), .key (some [1, 2, 3])], .file path entries'),
            tree') := by
  intro path alice requests
  have opens : (openFile ⟨"catalog.json"⟩).run {} = (.ok (.file ⟨"catalog.json"⟩ {}), {}) := rfl
  have fit : ∀ request ∈ requests, request.Fits := by
    simp [requests, CatalogRequest.Fits]
  have unfailing : Unfailing requests (.file ⟨"catalog.json"⟩ {}) {} := by
    refine ⟨?_, fun _ never => ?_, fun _ never => ?_, trivial⟩
    · rintro staged ⟨⟩
      rfl
    · cases never
    · cases never
  obtain ⟨answers, answers', _, entries', tree', ran, ran', alike, _⟩ :=
    memory_and_file_answer_alike opens fit unfailing
  cases (show (runAll requests (.memory {})).run {} = _ from rfl).symm.trans ran
  refine ⟨opens, fit, unfailing, entries', tree', ran'.trans ?_⟩
  obtain _ | ⟨⟨⟩, _ | ⟨⟨⟩, _ | ⟨⟨⟩, ⟨⟩⟩⟩⟩ := alike
  rfl

end Catalog

end Strongroom
