import Strongroom.Proofs.Disk.Places

/-! # What a step can change

A step names the paths that it may change something at. All that stands elsewhere
stays, also on a disk on which reading, writing or moving a file may fail at any
time.
-/

namespace Strongroom

namespace Script

variable {δ α β : Type} {disk : Disk δ}

/-- Every value that a script may end with is of one kind. -/
def Returns (kind : α → Prop) : Script α → Prop
  | .done value => kind value
  | .step _ next => ∀ reply, (next reply).Returns kind

theorem Returns.bind {kind : β → Prop} {first : α → Prop} {script : Script α}
    {next : α → Script β} (returns : script.Returns first)
    (rest : ∀ value, first value → (next value).Returns kind) :
    (script >>= next).Returns kind := by
  change (script.bind next).Returns kind
  induction script with
  | done value => exact rest value returns
  | step s more ih => exact fun reply => ih reply (returns reply)

theorem returns_true (script : Script α) : script.Returns fun _ => True := by
  induction script with
  | done value => trivial
  | step s next ih => exact fun reply => ih reply

theorem Runs.returns {kind : α → Prop} {script : Script α} {value : α} {d d' : δ}
    (runs : Runs disk d script value d') (returns : script.Returns kind) : kind value := by
  induction runs with
  | done => exact returns
  | step _ _ ih => exact ih (returns _)

theorem runs_ask_bind {s : Step} {next : s.Reply → Script α} {value : α} {d d' : δ} :
    Runs disk d (ask s >>= next) value d' ↔
      ∃ reply d₁, disk.replies d s reply d₁ ∧ Runs disk d₁ (next reply) value d' :=
  runs_step

theorem Asks.bind_returns {kind : Step → Prop} {first : α → Prop} {script : Script α}
    {next : α → Script β} (asks : script.Asks kind) (returns : script.Returns first)
    (rest : ∀ value, first value → (next value).Asks kind) : (script >>= next).Asks kind := by
  change (script.bind next).Asks kind
  induction script with
  | done value => exact rest value returns
  | step s more ih => exact ⟨asks.1, fun reply => ih reply (asks.2 reply) (returns reply)⟩

theorem Asks.mono {kind kind' : Step → Prop} {script : Script α} (asks : script.Asks kind)
    (weaker : ∀ s, kind s → kind' s) : script.Asks kind' := by
  induction script with
  | done value => trivial
  | step s next ih => exact ⟨weaker s asks.1, fun reply => ih reply (asks.2 reply)⟩

end Script

/-- The paths that a step may change something at. -/
def Step.targets : Step → List Path
  | .truncate path | .append path _ | .makeFolder path | .removeFile path | .removeFolder path =>
    [path]
  | .rename source target => [source, target]
  | .look _ | .canonical _ | .openFile _ | .read _ | .sync _ => []

/-- A step that neither makes nor removes a folder. -/
def Step.OfFiles : Step → Prop
  | .makeFolder _ | .removeFolder _ => False
  | _ => True

namespace FileTree

variable {tree tree' tree'' : FileTree} {path : Path} {place : Location}

/-- Two disks that hold the same but at some places. -/
structure SameBut (places : Location → Prop) (tree tree' : FileTree) : Prop where
  current : tree'.current = tree.current
  stands : ∀ place, ¬ places place → tree'.find? place = tree.find? place

section SameBut

variable {places : Location → Prop}

theorem SameBut.refl (places : Location → Prop) (tree : FileTree) : SameBut places tree tree where
  current := rfl
  stands _ _ := rfl

theorem SameBut.trans (first : SameBut places tree tree') (second : SameBut places tree' tree'') :
    SameBut places tree tree'' where
  current := second.current.trans first.current
  stands place other := (second.stands place other).trans (first.stands place other)

theorem SameBut.mono {more : Location → Prop} (same : SameBut places tree tree')
    (within : ∀ place, places place → more place) : SameBut more tree tree' where
  current := same.current
  stands place other := same.stands place fun here => other (within place here)

theorem SameBut.insert {node : FileNode} (here : places place) :
    SameBut places tree (tree.insert place node) where
  current := rfl
  stands other elsewhere := by
    have another : other ≠ place := by
      rintro rfl
      exact elsewhere here
    have differs : (other == place) = false := by simpa using another
    simp only [find?, FileTree.insert, List.lookup_cons, differs, lookup_filter_ne,
      if_neg another]

theorem SameBut.erase (here : places place) : SameBut places tree (tree.erase place) where
  current := rfl
  stands other elsewhere := by
    have another : other ≠ place := by
      rintro rfl
      exact elsewhere here
    simp only [find?, FileTree.erase, lookup_filter_ne, if_neg another]

end SameBut

theorem SameBut.locate_iff (same : SameBut (· = place) tree tree')
    (none : tree.find? place ≠ some .folder) (none' : tree'.find? place ≠ some .folder)
    (found : Location) : tree.locate path = .ok found ↔ tree'.locate path = .ok found := by
  refine locate_congr same.current (fun other => ?_) found
  by_cases here : other = place
  · rw [here]
    exact ⟨fun folder => absurd folder none, fun folder => absurd folder none'⟩
  · rw [same.stands other here]

/-- Where what changed is no folder, a path that leads elsewhere shows what it showed. -/
theorem SameBut.at?_eq (same : SameBut (· = place) tree tree')
    (none : tree.find? place ≠ some .folder) (none' : tree'.find? place ≠ some .folder)
    (aside : tree.locate path ≠ .ok place) : tree'.at? path = tree.at? path := by
  refine at?_congr (same.locate_iff none none') fun other leads => .inl (same.stands other ?_)
  rintro rfl
  exact aside leads

/-- Where one of some paths leads. -/
def Reached (tree : FileTree) (paths : List Path) (place : Location) : Prop :=
  ∃ path ∈ paths, tree.locate path = .ok place

theorem SameBut.of_settle {places : Location → Prop} {result : Except DiskFault FileTree}
    {reply : Except DiskFault Unit} (settled : tree.settle result = (reply, tree'))
    (changes : ∀ changed, result = .ok changed → SameBut places tree changed) :
    SameBut places tree tree' := by
  rcases settle_cases settled with ⟨_, _, rfl⟩ | ⟨_, changed⟩
  · exact .refl _ _
  · exact changes _ changed

theorem sameBut_append (tree : FileTree) (path : Path) (data : Bytes) :
    SameBut (tree.Reached [path]) tree (tree.append path data) := by
  rcases tree.append_eq path data with same | ⟨place, pieces, there, written⟩
  · rw [same]
    exact .refl _ _
  · rw [written]
    exact .insert ⟨path, List.mem_singleton_self path, (at?_eq_some.1 there).1⟩

theorem removeFile_ok (removed : tree.removeFile path = .ok tree') :
    ∃ place pieces, tree.at? path = some (place, .file pieces) ∧ tree' = tree.erase place := by
  unfold removeFile at removed
  unfold at?
  cases resolved : tree.resolve path with
  | error fault =>
      rw [resolved] at removed
      cases removed
  | ok found =>
      obtain ⟨place, node⟩ := found
      rw [resolved] at removed
      cases node with
      | folder => cases removed
      | file pieces =>
          cases removed
          exact ⟨place, pieces, rfl, rfl⟩

theorem removeFolder_ok (removed : tree.removeFolder path = .ok tree') :
    ∃ place, tree.at? path = some (place, .folder) ∧ tree' = tree.erase place := by
  unfold removeFolder at removed
  unfold at?
  cases resolved : tree.resolve path with
  | error fault =>
      rw [resolved] at removed
      cases removed
  | ok found =>
      obtain ⟨place, node⟩ := found
      rw [resolved] at removed
      cases node with
      | file pieces => cases removed
      | folder =>
          simp only [bind, Except.bind] at removed
          split at removed
          · cases removed
          · cases removed
            exact ⟨place, rfl, rfl⟩

/-- A step changes nothing but where its targets lead. -/
theorem sameBut_perform {s : Step} {reply : s.Reply}
    (performed : tree.perform s = (reply, tree')) :
    SameBut (tree.Reached s.targets) tree tree' := by
  have first {path : Path} {others : List Path} {place : Location}
      (leads : tree.locate path = .ok place) : tree.Reached (path :: others) place :=
    ⟨path, List.mem_cons_self, leads⟩
  cases s with
  | look path | canonical path | openFile path | read path | sync path =>
      cases performed
      exact .refl _ _
  | truncate path =>
      refine .of_settle performed fun changed emptied => ?_
      obtain ⟨place, leads, _, _, rfl⟩ := truncate_ok emptied
      exact .insert (first leads)
  | append path data =>
      cases performed
      exact sameBut_append tree path data
  | makeFolder path =>
      refine .of_settle performed fun changed made => ?_
      obtain ⟨place, leads, _, rfl⟩ := makeFolder_ok made
      exact .insert (first leads)
  | rename source target =>
      refine .of_settle performed fun changed moved => ?_
      obtain ⟨start, pieces, place, shows, leads, _, _, outcome⟩ := rename_ok moved
      rcases outcome with ⟨_, rfl⟩ | rfl
      · exact .refl _ _
      · have gone : SameBut (tree.Reached [source, target]) tree (tree.erase start) :=
          .erase (first (at?_eq_some.1 shows).1)
        exact gone.trans (.insert ⟨target, by simp, leads⟩)
  | removeFile path =>
      refine .of_settle performed fun changed removed => ?_
      obtain ⟨place, pieces, shows, rfl⟩ := removeFile_ok removed
      exact .erase (first (at?_eq_some.1 shows).1)
  | removeFolder path =>
      refine .of_settle performed fun changed removed => ?_
      obtain ⟨place, shows, rfl⟩ := removeFolder_ok removed
      exact .erase (first (at?_eq_some.1 shows).1)

/-- Two disks with the same folders. -/
structure SameFolders (tree tree' : FileTree) : Prop where
  current : tree'.current = tree.current
  folders : ∀ place, tree'.find? place = some .folder ↔ tree.find? place = some .folder

namespace SameFolders

theorem refl (tree : FileTree) : SameFolders tree tree :=
  ⟨rfl, fun _ => Iff.rfl⟩

theorem trans (first : SameFolders tree tree') (second : SameFolders tree' tree'') :
    SameFolders tree tree'' :=
  ⟨second.current.trans first.current, fun place =>
    (second.folders place).trans (first.folders place)⟩

theorem locate_iff (same : SameFolders tree tree') (place : Location) :
    tree.locate path = .ok place ↔ tree'.locate path = .ok place :=
  locate_congr same.current (fun other => (same.folders other).symm) place

theorem insert (none : tree.find? place ≠ some .folder) (pieces : List Bytes) :
    SameFolders tree (tree.insert place (.file pieces)) :=
  ⟨rfl, folders_insert_file none⟩

theorem erase (none : tree.find? place ≠ some .folder) : SameFolders tree (tree.erase place) :=
  ⟨rfl, folders_erase none⟩

theorem at?_eq (same : SameFolders tree tree') (here : tree.at? path = some (place, .folder)) :
    tree'.at? path = some (place, .folder) := by
  obtain ⟨leads, stands, _⟩ := at?_eq_some.1 here
  exact at?_eq_some.2 ⟨(same.locate_iff place).1 leads, (same.folders place).2 stands, fun _ => rfl⟩

end SameFolders

/-- Only folders that are made or removed are new or gone. -/
theorem sameFolders_perform {s : Step} (files : s.OfFiles) :
    SameFolders tree (tree.perform s).2 := by
  have settled {result : Except DiskFault FileTree}
      (changes : ∀ changed, result = .ok changed → SameFolders tree changed) :
      SameFolders tree (tree.settle result).2 := by
    cases result with
    | error fault => exact .refl tree
    | ok changed => exact changes changed rfl
  cases s with
  | makeFolder | removeFolder => exact files.elim
  | look | canonical | openFile | read | sync => exact .refl tree
  | truncate path =>
      refine settled fun changed emptied => ?_
      obtain ⟨place, _, _, none, rfl⟩ := truncate_ok emptied
      exact .insert none []
  | append path data =>
      rcases tree.append_eq path data with same | ⟨place, pieces, there, written⟩
      · rw [perform, same]
        exact .refl tree
      · rw [perform, written]
        exact .insert (ne_folder_of_at? there) _
  | rename source target =>
      refine settled fun changed moved => ?_
      obtain ⟨start, pieces, place, shows, _, none, _, outcome⟩ := rename_ok moved
      rcases outcome with ⟨_, rfl⟩ | rfl
      · exact .refl _
      · have gone : SameFolders tree (tree.erase start) := .erase (ne_folder_of_at? shows)
        exact gone.trans (.insert (mt (gone.folders place).1 none) pieces)
  | removeFile path =>
      refine settled fun changed removed => ?_
      obtain ⟨place, pieces, shows, rfl⟩ := removeFile_ok removed
      exact .erase (ne_folder_of_at? shows)

/-- How a step may fail while a file is read or written. A file that cannot be
    opened to be written is as it was. -/
inductive Falters (tree : FileTree) : (s : Step) → s.Reply → FileTree → Prop where
  | openFile {path : Path} {fault : DiskFault} : Falters tree (.openFile path) (.error fault) tree
  | read {path : Path} {fault : DiskFault} : Falters tree (.read path) (.error fault) tree
  | truncate {path : Path} {fault : DiskFault} : Falters tree (.truncate path) (.error fault) tree
  /-- Some of the bytes are written. -/
  | append {path : Path} {fault : DiskFault} (written lost : Bytes) :
    Falters tree (.append path (written ++ lost)) (.error fault) (tree.append path written)
  | sync {path : Path} {fault : DiskFault} : Falters tree (.sync path) (.error fault) tree
  | rename {source target : Path} {fault : DiskFault} :
    Falters tree (.rename source target) (.error fault) tree

/-- The model of the disk, but reading, writing and moving may fail. -/
def faltering : Disk FileTree where
  replies tree s reply tree' := tree.perform s = (reply, tree') ∨ tree.Falters s reply tree'
  responds tree s := ⟨(tree.perform s).1, (tree.perform s).2, .inl rfl⟩

theorem runs_faltering {α : Type} {script : Script α} {value : α}
    (runs : Script.Runs disk tree script value tree') :
    Script.Runs faltering tree script value tree' :=
  runs.mono fun _ _ _ _ replied => .inl replied

theorem sameBut_faltering {s : Step} {reply : s.Reply}
    (replied : faltering.replies tree s reply tree') :
    SameBut (tree.Reached s.targets) tree tree' := by
  rcases replied with performed | falters
  · exact sameBut_perform performed
  · cases falters with
    | openFile | read | truncate | sync | rename => exact .refl _ _
    | append written lost => exact sameBut_append tree _ written

theorem eq_of_no_targets {s : Step} {reply : s.Reply} (nothing : s.targets = [])
    (replied : faltering.replies tree s reply tree') : tree' = tree := by
  cases s with
  | truncate | append | makeFolder | rename | removeFile | removeFolder => cases nothing
  | look | canonical =>
      rcases replied with performed | falters
      · exact (congrArg Prod.snd performed).symm
      · cases falters
  | openFile | read | sync =>
      rcases replied with performed | falters
      · exact (congrArg Prod.snd performed).symm
      · cases falters
        rfl

/-- A script whose targets lead to some places alone, as long as the current folder
    stays the same, changes nothing elsewhere. -/
theorem SameBut.of_runs {α : Type} {script : Script α} {value : α} {paths : List Path}
    {places : Location → Prop} (asks : script.Asks fun s => ∀ path ∈ s.targets, path ∈ paths)
    (within : ∀ now : FileTree, now.current = tree.current → ∀ place, now.Reached paths place →
      places place)
    (runs : Script.Runs faltering tree script value tree') : SameBut places tree tree' := by
  have step (now : FileTree) (s : Step) (reply : s.Reply) (next : FileTree)
      (targets : ∀ path ∈ s.targets, path ∈ paths) (replied : faltering.replies now s reply next)
      (same : SameBut places tree now) : SameBut places tree next := by
    refine same.trans ((sameBut_faltering replied).mono ?_)
    rintro place ⟨path, target, leads⟩
    exact within now same.current place ⟨path, targets path target, leads⟩
  exact runs.keeps asks step (.refl _ _)

end FileTree

end Strongroom
