import Strongroom.Proofs.Blob.Objects
import Strongroom.Proofs.Catalog.Flush
import Strongroom.Proofs.Disk.Footprint

/-! # The store in a folder conforms

A disk keeps a folder for a store: no folder is made in it under the name of an
object, and no file of a catalog stands where an object does. Any change may fail on
it, with nothing done or with a part of it. What the store says to have done is done
all the same, and what is done to one object leaves the others alone.
-/

namespace Strongroom

open BlobStore

/-- The files that a step may change. -/
def Step.files : Step → List Path
  | .makeFolder _ => []
  | s => s.targets

/-- What a step gives that the disk refuses. -/
def Step.refused (fault : DiskFault) : (s : Step) → s.Reply
  | .look _ => none
  | .canonical _ | .openFile _ | .read _ | .truncate _ | .append _ _ | .sync _ | .makeFolder _
  | .rename _ _ | .removeFile _ | .removeFolder _ => .error fault

/-- Every step changes files at some paths alone. -/
structure Script.Writes (paths : List Path) {α : Type} (script : Script α) : Prop where
  asks : script.Asks fun s => ∀ file ∈ s.files, file ∈ paths

namespace Script.Writes

variable {α β : Type} {paths : List Path} {script : Script α} {next : α → Script β}

theorem done (paths : List Path) (value : α) : (pure value : Script α).Writes paths :=
  ⟨trivial⟩

theorem ask {s : Step} (within : ∀ file ∈ s.files, file ∈ paths) : (Script.ask s).Writes paths :=
  ⟨within, fun _ => trivial⟩

theorem bind (first : script.Writes paths) (rest : ∀ value, (next value).Writes paths) :
    (script >>= next).Writes paths :=
  ⟨first.asks.bind fun value => (rest value).asks⟩

end Script.Writes

theorem FileTree.sameBut_failing {tree tree' : FileTree} {s : Step} {reply : s.Reply}
    (replied : failing.replies tree s reply tree') :
    SameBut (tree.Reached s.targets) tree tree' := by
  rcases replied with performed | fails
  · exact sameBut_perform performed
  · cases fails with
    | makeFolder | truncate | rename => exact .refl _ _
    | @truncated path fault changed emptied =>
        have performed : tree.perform (.truncate path) = (.ok (), tree') := by
          rw [perform, emptied]
          rfl
        exact sameBut_perform performed
    | append written lost => exact sameBut_append tree _ written

namespace FileTree

variable {tree tree' : FileTree} {file : Path} {place : Location} {pieces : List Bytes}

/-- A file can be written where a path leads. -/
def Takes (tree : FileTree) (file : Path) : Prop :=
  ∃ place, tree.locate file = .ok place ∧ tree.find? place ≠ some .folder ∧ ¬ file.meansFolder

theorem Takes.of_sameFolders (takes : tree.Takes file) (same : SameFolders tree tree') :
    tree'.Takes file := by
  obtain ⟨place, leads, none, plain⟩ := takes
  exact ⟨place, (same.locate_iff place).1 leads, mt (same.folders place).1 none, plain⟩

theorem Takes.truncates (takes : tree.Takes file) :
    ∃ place, tree.truncate file = .ok (tree.insert place (.file [])) ∧
      (tree.insert place (.file [])).at? file = some (place, .file []) := by
  obtain ⟨place, leads, none, plain⟩ := takes
  refine ⟨place, ?_, at?_insert_self leads none plain⟩
  rw [truncate, leads]
  simp only [bind, Except.bind, if_neg plain]

theorem Takes.renames {source : Path} (takes : tree.Takes file)
    (shows : tree.at? source = some (place, .file pieces)) :
    ∃ changed, tree.rename source file = .ok changed := by
  obtain ⟨goal, leads, none, plain⟩ := takes
  rw [rename, resolve_of_at? shows]
  simp only [bind, Except.bind, leads, if_neg plain]
  split
  all_goals exact ⟨_, rfl⟩

end FileTree

theorem IsBlobName.stored {name : String} (given : IsBlobName name) : storedName name = name := by
  obtain ⟨id, rfl⟩ := given
  exact storedName_toText id

theorem IsBlobName.component {name : String} (given : IsBlobName name) :
    Path.IsComponent name := by
  obtain ⟨id, rfl⟩ := given
  have hyphen : '-' ∈ id.toText.toList := by simp [Uuid.toText, Uuid.group]
  have others {text : String} (none : '-' ∉ text.toList) : id.toText ≠ text := by
    rintro rfl
    exact none hyphen
  exact ⟨others (by decide), others (by decide), others (by decide), not_slash_toText id⟩

/-- A disk with a folder for a store and, beside it, the file of a catalog. -/
@[ext] structure Housing (root : Path) (path : Option Path) where
  tree : FileTree
  ready : (BlobStore.folder root).Ready tree
  /-- Neither the catalog nor the document beside it stands where an object does. -/
  outside : ∀ file ∈ path, ∀ target ∈ [file, Catalog.temporary file], ∀ name, IsBlobName name →
    tree.destination target ≠ tree.destination root ++ [name]

namespace Housing

variable {root : Path} {path : Option Path} {d d' : Housing root path} {name other : String}
  {store store' : BlobStore} {draft : BlobDraft} {written : Bytes} {α : Type} {script : Script α}
  {value : α} {paths : List Path}

def place (d : Housing root path) : Location :=
  d.tree.destination root

theorem houses (d : Housing root path) : Houses root d.place d.tree := by
  obtain ⟨place, houses⟩ := d.ready
  obtain ⟨leads, _⟩ := FileTree.at?_eq_some.1 houses.there
  rwa [Housing.place, ← FileTree.locate_eq_destination leads]

/-- The disk after a step that leaves the folder as it should be. -/
def after (d : Housing root path) (s : Step)
    (ready : (BlobStore.folder root).Ready (d.tree.perform s).2) : Housing root path where
  tree := (d.tree.perform s).2
  ready := ready
  outside := by
    have performed : d.tree.perform s = ((d.tree.perform s).1, (d.tree.perform s).2) := rfl
    have current : (d.tree.perform s).2.current = d.tree.current :=
      (FileTree.sameBut_perform performed).current
    intro file there target beside name given
    rw [FileTree.destination_congr current, FileTree.destination_congr current]
    exact d.outside file there target beside name given

/-- The model of the disk, where any change may fail. One that would spoil the folder
    is refused. -/
def disk (root : Path) (path : Option Path) : Disk (Housing root path) where
  replies d s reply d' :=
    FileTree.failing.replies d.tree s reply d'.tree ∨
      ¬ (BlobStore.folder root).Ready (d.tree.perform s).2 ∧ d' = d ∧
        ∃ fault, reply = s.refused fault
  responds d s := by
    by_cases ready : (BlobStore.folder root).Ready (d.tree.perform s).2
    · exact ⟨_, d.after s ready, .inl (.inl rfl)⟩
    · exact ⟨s.refused .notEmpty, d, .inr ⟨ready, rfl, .notEmpty, rfl⟩⟩

/-- What the folder shows under the name of a blob. -/
def object (d : Housing root path) (name : String) : Option Bytes :=
  (BlobStore.folder root).object? d.tree name

section Replies

variable {s : Step} {reply : s.Reply}

theorem sameBut (replied : (disk root path).replies d s reply d') :
    FileTree.SameBut (d.tree.Reached s.targets) d.tree d'.tree := by
  rcases replied with replied | ⟨_, rfl, _⟩
  · exact FileTree.sameBut_failing replied
  · exact .refl _ _

theorem place_eq (same : d'.tree.current = d.tree.current) : d'.place = d.place :=
  FileTree.destination_congr same root

/-- No folder is made where an object may stand. -/
theorem find?_of_makeFolder {first : Path} {reply : Except DiskFault Unit}
    (given : IsBlobName name) (replied : (disk root path).replies d (.makeFolder first) reply d') :
    d'.tree.find? (d.place ++ [name]) = d.tree.find? (d.place ++ [name]) := by
  have current := (sameBut replied).current
  rcases replied with (performed | fails) | ⟨_, rfl, _⟩
  · rcases FileTree.settle_cases performed with ⟨_, _, same⟩ | ⟨_, made⟩
    · rw [same]
    · obtain ⟨place, _, none, changed⟩ := FileTree.makeFolder_ok made
      have proper : place ≠ [] := by
        rintro rfl
        cases none
      have files := d'.houses.files name given.component
      rw [place_eq current, changed, FileTree.find?_insert _ _ proper] at files
      rw [changed, FileTree.find?_insert _ _ proper]
      split at files
      · exact absurd rfl files
      · rename_i apart
        exact if_neg apart
  · generalize d'.tree = tree at fails
    cases fails
    rfl
  · rfl

theorem object_eq (given : IsBlobName name) (replied : (disk root path).replies d s reply d')
    (apart : ∀ file ∈ s.files, d.tree.destination file ≠ d.place ++ [name]) :
    d'.object name = d.object name := by
  have same := sameBut replied
  have stands : d'.tree.find? (d.place ++ [name]) =
      d.tree.find? (d.place ++ [name]) := by
    cases s with
    | makeFolder => exact find?_of_makeFolder given replied
    | look | canonical | openFile | read | truncate | append | sync | rename | removeFile
    | removeFolder =>
        apply same.stands
        rintro ⟨file, member, leads⟩
        exact apart file member (FileTree.locate_eq_destination leads).symm
  rw [object, object, d'.houses.object?_eq given.component,
    d.houses.object?_eq given.component, place_eq same.current, stands]

/-- A step on files leaves the folder as it should be. -/
theorem ready_perform (d : Housing root path) (files : s.OfFiles) :
    (BlobStore.folder root).Ready (d.tree.perform s).2 :=
  ⟨d.place, d.houses.of_sameFolders (FileTree.sameFolders_perform files)⟩

/-- So it is not refused. -/
theorem performs (replied : (disk root path).replies d s reply d') (files : s.OfFiles)
    (sure : ∀ tree', ¬ d.tree.Fails s reply tree') : d.tree.perform s = (reply, d'.tree) := by
  rcases replied with (performed | fails) | ⟨spoils, _⟩
  · exact performed
  · exact absurd fails (sure _)
  · exact absurd (d.ready_perform files) spoils

theorem performs_looking (looks : s.targets = [])
    (replied : (disk root path).replies d s reply d') :
    reply = (d.tree.perform s).1 ∧ d' = d := by
  cases s with
  | truncate | append | makeFolder | rename | removeFile | removeFolder => cases looks
  | look | canonical | openFile | read | sync =>
      have performed := performs replied trivial fun tree' fails => by cases fails
      exact ⟨(congrArg Prod.fst performed).symm, Housing.ext (congrArg Prod.snd performed).symm⟩

end Replies

theorem object_of_writes (given : IsBlobName name) (writes : script.Writes paths)
    (apart : ∀ file ∈ paths, d.tree.destination file ≠ d.place ++ [name])
    (runs : Script.Runs (disk root path) d script value d') :
    d'.object name = d.object name := by
  have step (now : Housing root path) (s : Step) (reply : s.Reply) (next : Housing root path)
      (files : ∀ file ∈ s.files, file ∈ paths) (replied : (disk root path).replies now s reply next)
      (same : now.tree.current = d.tree.current ∧ now.object name = d.object name) :
      next.tree.current = d.tree.current ∧ next.object name = d.object name := by
    refine ⟨(sameBut replied).current.trans same.1, (object_eq given replied ?_).trans same.2⟩
    intro file member
    rw [place_eq same.1, FileTree.destination_congr same.1]
    exact apart file (files file member)
  exact (runs.keeps writes.asks step ⟨rfl, rfl⟩).2

section Scripts

theorem writes_of_prepares {file : Path} (asks : script.Asks (Catalog.Prepares file)) :
    script.Writes paths := by
  refine ⟨asks.mono fun s prepares => ?_⟩
  cases prepares with
  | look | makeFolder =>
      intro other member
      cases member

theorem writes_makeFolders (paths : List Path) (file : Path) :
    (Script.makeFolders (file.parent?.getD ⟨""⟩)).Writes paths := by
  have prepares : (Script.makeFolders (file.parent?.getD ⟨""⟩)).Asks (Catalog.Prepares file) := by
    refine Catalog.prepares_makeFoldersFrom _ _ fun named => ?_
    cases above : file.parent? with
    | none =>
        rw [above] at named
        exact absurd rfl named
    | some parent =>
        rw [above] at named
        obtain ⟨⟨name, names⟩, absolute⟩ := Path.segments_of_parent above named
        exact ⟨absolute, name, [], names⟩
  exact writes_of_prepares prepares

theorem writes_replaceDocument (file : Path) (text : String) :
    (Catalog.replaceDocument file text).Writes [file, Catalog.temporary file] := by
  refine .bind (writes_of_prepares (Catalog.prepares_makeParent file)) fun made => ?_
  cases made with
  | error fault => exact .done _ _
  | ok =>
      refine .bind (.bind (.ask (by simp [Step.files, Step.targets])) fun emptied => ?_)
        fun wrote => ?_
      · cases emptied with
        | error fault => exact .done _ _
        | ok => exact .ask (by simp [Step.files, Step.targets])
      · cases wrote with
        | error fault => exact .done _ _
        | ok =>
            refine .bind (.ask (by simp [Step.files, Step.targets])) fun moved => ?_
            cases moved with
            | error | ok => exact .done _ _

theorem writes_flush (catalog : Catalog) :
    catalog.flush.Asks fun s => ∀ file ∈ s.files, ∃ main ∈ catalog.path?,
      file ∈ [main, Catalog.temporary main] := by
  cases catalog with
  | memory entries => trivial
  | file main entries =>
      exact (writes_replaceDocument main _).asks.mono fun s files file member =>
        ⟨main, rfl, files file member⟩

theorem writes_begin (root : Path) (name : String) :
    ((BlobStore.folder root).begin name).Writes [filePath root (storedName name)] := by
  unfold begin
  dsimp only
  generalize storedName name = key
  split
  · exact .done _ _
  · refine .bind (writes_makeFolders _ _) fun made => ?_
    cases made with
    | error fault => exact .done _ _
    | ok =>
        refine .bind (.ask (by simp [Step.files, Step.targets])) fun emptied => ?_
        cases emptied with
        | error | ok => exact .done _ _

theorem writes_writeHeld (root : Path) (draft : BlobDraft) :
    (writeHeld root draft).Writes [filePath root draft.key] := by
  unfold writeHeld
  split
  · exact .done _ _
  · exact .ask (by simp [Step.files, Step.targets])

theorem writes_take (root : Path) (draft : BlobDraft) (piece : Bytes) :
    ((BlobStore.folder root).take draft piece).Writes [filePath root draft.key] := by
  refine .bind (writes_writeHeld root draft) fun wrote => ?_
  cases wrote with
  | error | ok => exact .done _ _

theorem writes_remove (root : Path) (name : String) :
    ((BlobStore.folder root).remove name).Writes [filePath root (storedName name)] := by
  unfold remove
  dsimp only
  generalize storedName name = key
  refine .bind (.ask (by simp [Step.files, Step.targets])) fun kind => ?_
  split
  all_goals
    refine .bind (.ask (by simp [Step.files, Step.targets])) fun reply => ?_
    split
    all_goals exact .done _ _

theorem writes_close (root : Path) (draft : BlobDraft) (own : draft.key = storedName draft.name) :
    ((BlobStore.folder root).close draft).Writes [filePath root draft.key] := by
  refine .bind (writes_writeHeld root draft) fun wrote => ?_
  cases wrote with
  | ok => exact .done _ _
  | error fault =>
      have removes := writes_remove root draft.name
      rw [← own] at removes
      exact .bind (.bind removes fun _ => .done _ _) fun _ => .done _ _

end Scripts

theorem eq_folder {store : BlobStore} (rooted : store.root? = some root) :
    store = .folder root := by
  cases store with
  | memory objects => cases rooted
  | folder root' =>
      cases rooted
      rfl

theorem destination_filePath (d : Housing root path) (given : IsBlobName name) :
    d.tree.destination (filePath root name) = d.place ++ [name] :=
  (FileTree.locate_eq_destination (d.houses.locate given.component)).symm

/-- What is done to one object leaves the others alone. -/
theorem object_of_handles (rooted : store.root? = some root) (given : IsBlobName name)
    (asked : IsBlobName other) (different : name ≠ other)
    (handles : store.Handles (disk root path) name d store' d') :
    d'.object other = d.object other := by
  obtain rfl := eq_folder rooted
  have apart : ∀ file ∈ [filePath root (storedName name)],
      d.tree.destination file ≠ d.place ++ [other] := by
    intro file member
    rw [List.mem_singleton.1 member, given.stored, d.destination_filePath given]
    simpa using different
  cases handles with
  | begin runs => exact object_of_writes asked (writes_begin root name) apart runs
  | @take _ _ draft piece _ own runs =>
      have writes := writes_take root draft piece
      rw [own.2] at writes
      exact object_of_writes asked writes apart runs
  | @close _ _ _ draft _ own runs =>
      have writes := writes_close root draft (own.2.trans (congrArg storedName own.1.symm))
      rw [own.2] at writes
      exact object_of_writes asked writes apart runs
  | remove runs => exact object_of_writes asked (writes_remove root name) apart runs

theorem object_cases (d : Housing root path) (given : IsBlobName name) :
    (d.tree.find? (d.place ++ [name]) = none ∧ d.object name = none) ∨
      ∃ pieces, d.tree.find? (d.place ++ [name]) = some (.file pieces) ∧
        d.object name = some (FileNode.file pieces).content :=
  d.houses.object?_cases given.component

theorem object_of_insert (given : IsBlobName name) {pieces : List Bytes}
    (changed : d'.tree = d.tree.insert (d.place ++ [name]) (.file pieces)) :
    d'.object name = some (FileNode.file pieces).content := by
  rw [object, changed]
  exact (d.houses.sets_insert given.component pieces).here

theorem object_of_truncate (given : IsBlobName name)
    (replied : (disk root path).replies d (.truncate (filePath root name)) (.ok ()) d') :
    d'.object name = some [] := by
  have performed := performs replied trivial fun tree' fails => by cases fails
  rw [d.houses.perform_truncate given.component] at performed
  exact object_of_insert given (congrArg Prod.snd performed).symm

theorem object_of_append (given : IsBlobName name) {data : Bytes}
    (there : d.object name = some written)
    (replied : (disk root path).replies d (.append (filePath root name) data) (.ok ()) d') :
    d'.object name = some (written ++ data) := by
  rcases d.object_cases given with ⟨_, gone⟩ | ⟨pieces, stands, content⟩
  · rw [gone] at there
    cases there
  · have performed := performs replied trivial fun tree' fails => by cases fails
    rw [d.houses.perform_append given.component stands data] at performed
    rw [object_of_insert given (congrArg Prod.snd performed).symm]
    obtain rfl := Option.some.inj (content.symm.trans there)
    simp [FileNode.content]

theorem object_of_writeHeld (given : IsBlobName name) (keyed : draft.key = name)
    (there : d.object name = some written)
    (runs : Script.Runs (disk root path) d (writeHeld root draft) (.ok ()) d') :
    d'.object name = some (written ++ draft.held.reverse.flatten) := by
  rw [writeHeld, keyed] at runs
  split at runs
  · rename_i nothing
    obtain ⟨_, rfl⟩ := Script.runs_pure.1 runs
    simpa [nothing] using there
  · obtain ⟨reply, d₁, replied, rest⟩ := Script.runs_step.1 runs
    obtain ⟨rfl, rfl⟩ := Script.runs_done.1 rest
    exact object_of_append given there replied

theorem eq_of_looking (looks : script.Asks fun s => s.targets = [])
    (runs : Script.Runs (disk root path) d script value d') : d' = d := by
  have step (now : Housing root path) (s : Step) (reply : s.Reply) (next : Housing root path)
      (looks : s.targets = []) (replied : (disk root path).replies now s reply next)
      (same : now = d) : next = d :=
    (performs_looking looks replied).2.trans same
  exact runs.keeps looks step rfl

theorem run_remove (given : IsBlobName name) {result : Except Error Unit}
    (runs : Script.Runs (disk root path) d ((BlobStore.folder root).remove name)
      (result, store') d') :
    result = .ok () ∧ d'.object name = none ∧ FileTree.SameFolders d.tree d'.tree := by
  rw [remove, given.stored] at runs
  obtain ⟨kind, d₁, looked, rest⟩ := Script.runs_ask_bind.1 runs
  obtain ⟨rfl, rfl⟩ := performs_looking rfl looked
  rw [d₁.houses.perform_look given.component] at rest
  rcases d₁.object_cases given with ⟨nothing, gone⟩ | ⟨pieces, there, _⟩
  · rw [nothing, if_neg (fun folder => by cases folder)] at rest
    obtain ⟨reply, d₂, replied, rest⟩ := Script.runs_ask_bind.1 rest
    have performed := performs replied trivial fun tree' fails => by cases fails
    rw [d₁.houses.perform_removeFile_of_none given.component nothing] at performed
    obtain ⟨rfl, same⟩ := Prod.mk.inj performed
    obtain ⟨done, rfl⟩ := Script.runs_pure.1 rest
    rw [Housing.ext same.symm]
    exact ⟨congrArg Prod.fst done, gone, .refl _⟩
  · rw [there, if_neg (fun folder => by cases folder)] at rest
    obtain ⟨reply, d₂, replied, rest⟩ := Script.runs_ask_bind.1 rest
    have performed := performs replied trivial fun tree' fails => by cases fails
    rw [d₁.houses.perform_removeFile given.component there] at performed
    obtain ⟨rfl, changed⟩ := Prod.mk.inj performed
    obtain ⟨done, rfl⟩ := Script.runs_pure.1 rest
    rw [object, ← changed]
    exact ⟨congrArg Prod.fst done, (d₁.houses.sets_erase given.component).here,
      .erase (d₁.houses.files name given.component)⟩

theorem run_begin (given : IsBlobName name)
    (runs : Script.Runs (disk root path) d ((BlobStore.folder root).begin name) (.ok draft) d') :
    draft = ⟨name, name, 0, []⟩ ∧ d'.object name = some [] := by
  have begun := eq_of_begin runs
  rw [given.stored] at begun
  refine ⟨begun, ?_⟩
  rw [begin, given.stored] at runs
  simp only [meansFolder_of_plain given.component.plain, Bool.false_eq_true, if_false] at runs
  obtain ⟨made, d₁, _, rest⟩ := Script.runs_bind.1 runs
  cases made with
  | error fault =>
      obtain ⟨never, _⟩ := Script.runs_pure.1 rest
      cases never
  | ok =>
      obtain ⟨reply, d₂, emptied, rest⟩ := Script.runs_ask_bind.1 rest
      cases reply with
      | error fault =>
          obtain ⟨never, _⟩ := Script.runs_pure.1 rest
          cases never
      | ok =>
          obtain ⟨_, rfl⟩ := Script.runs_pure.1 rest
          exact object_of_truncate given emptied

theorem run_take (given : IsBlobName name) (keyed : draft.key = name) {next : BlobDraft}
    {piece : Bytes} (there : d.object name = some written)
    (runs : Script.Runs (disk root path) d ((BlobStore.folder root).take draft piece)
      (.ok next) d') :
    next = { draft with taken := draft.taken + piece.length, held := [piece] } ∧
      d'.object name = some (written ++ draft.held.reverse.flatten) := by
  obtain ⟨wrote, d₁, writes, rest⟩ := Script.runs_bind.1 runs
  cases wrote with
  | error fault =>
      obtain ⟨never, _⟩ := Script.runs_pure.1 rest
      cases never
  | ok =>
      obtain ⟨taken, rfl⟩ := Script.runs_pure.1 rest
      exact ⟨Except.ok.inj taken, object_of_writeHeld given keyed there writes⟩

theorem run_close (given : IsBlobName name) (keyed : draft.key = name) {size : Nat}
    (there : d.object name = some written)
    (runs : Script.Runs (disk root path) d ((BlobStore.folder root).close draft)
      (.ok size, store') d') :
    size = draft.taken ∧ d'.object name = some (written ++ draft.held.reverse.flatten) := by
  refine ⟨size_of_close runs, ?_⟩
  obtain ⟨wrote, d₁, writes, rest⟩ := Script.runs_bind.1 runs
  cases wrote with
  | error fault =>
      obtain ⟨_, _, _, rest⟩ := Script.runs_bind.1 rest
      obtain ⟨never, _⟩ := Script.runs_pure.1 rest
      cases never
  | ok =>
      obtain ⟨_, rfl⟩ := Script.runs_pure.1 rest
      exact object_of_writeHeld given keyed there writes

theorem run_find (given : IsBlobName name) {result : Except Error Unit}
    (runs : Script.Runs (disk root path) d ((BlobStore.folder root).find name) result d') :
    result = match d.object name with
      | some _ => .ok ()
      | none => .error (.notFound s!"blob {name}") := by
  rw [find, given.stored] at runs
  obtain ⟨reply, d₁, replied, rest⟩ := Script.runs_ask_bind.1 runs
  obtain ⟨rfl, rfl⟩ := performs_looking rfl replied
  rw [d₁.houses.perform_openFile given.component] at rest
  rcases d₁.object_cases given with ⟨nothing, gone⟩ | ⟨pieces, there, content⟩
  · rw [nothing] at rest
    rw [gone]
    exact (Script.runs_pure.1 rest).1
  · rw [there] at rest
    rw [content]
    have file := meansFolder_of_plain given.component.plain
    simp only [file, Bool.false_eq_true, if_false] at rest
    exact (Script.runs_pure.1 rest).1

theorem run_read (given : IsBlobName name) {result : Except String Bytes}
    (runs : Script.Runs (disk root path) d ((BlobStore.folder root).read name) result d') :
    result = match d.object name with
      | some data => .ok data
      | none => .error s!"{faultName .notFound} (permanent) at read" := by
  rw [BlobStore.read, given.stored] at runs
  obtain ⟨reply, d₁, replied, rest⟩ := Script.runs_ask_bind.1 runs
  obtain ⟨rfl, rfl⟩ := performs_looking rfl replied
  rcases d₁.object_cases given with ⟨nothing, gone⟩ | ⟨pieces, there, content⟩
  · have absent : d₁.tree.perform (.read (filePath root name)) = (.error .notFound, d₁.tree) := by
      rw [FileTree.perform, d₁.houses.resolve given.component, nothing]
    rw [absent] at rest
    rw [gone]
    exact (Script.runs_pure.1 rest).1
  · rw [d₁.houses.perform_read given.component there] at rest
    rw [content]
    exact (Script.runs_pure.1 rest).1

theorem still (d : Housing root path) (s : Step) (same : (d.tree.perform s).2 = d.tree) :
    (disk root path).replies d s (d.tree.perform s).1 d :=
  .inl (.inl (Prod.ext rfl same))

theorem exists_reply (d : Housing root path) {s : Step} (files : s.OfFiles) :
    ∃ d', (disk root path).replies d s (d.tree.perform s).1 d' ∧ d'.tree = (d.tree.perform s).2 :=
  ⟨d.after s (d.ready_perform files), .inl (.inl rfl), rfl⟩

theorem exists_begin (d : Housing root path) (given : IsBlobName name) :
    ∃ draft d', Script.Runs (disk root path) d ((BlobStore.folder root).begin name)
      (.ok draft) d' ∧ FileTree.SameFolders d.tree d'.tree := by
  obtain ⟨d', replied, changed⟩ := d.exists_reply (s := .truncate (filePath root name)) trivial
  have same : FileTree.SameFolders d.tree d'.tree :=
    changed ▸ FileTree.sameFolders_perform trivial
  rw [d.houses.perform_truncate given.component] at replied
  refine ⟨⟨name, name, 0, []⟩, d', ?_, same⟩
  rw [begin, given.stored]
  simp only [meansFolder_of_plain given.component.plain, Bool.false_eq_true, if_false]
  have made := d.houses.runs_makeFolders given.component d.still
  exact Script.runs_bind.2 ⟨_, d, made, .step replied .done⟩

theorem exists_writeHeld (d : Housing root path) (draft : BlobDraft) :
    ∃ d', Script.Runs (disk root path) d (writeHeld root draft) (.ok ()) d' ∧
      FileTree.SameFolders d.tree d'.tree := by
  unfold writeHeld
  split
  · exact ⟨d, .done, .refl _⟩
  · obtain ⟨d', replied, changed⟩ :=
      d.exists_reply (s := .append (filePath root draft.key) draft.held.reverse.flatten) trivial
    exact ⟨d', .step replied .done, changed ▸ FileTree.sameFolders_perform trivial⟩

theorem exists_take (d : Housing root path) (draft : BlobDraft) (piece : Bytes) :
    ∃ next d', Script.Runs (disk root path) d ((BlobStore.folder root).take draft piece)
      (.ok next) d' ∧ FileTree.SameFolders d.tree d'.tree := by
  obtain ⟨d', wrote, same⟩ := d.exists_writeHeld draft
  exact ⟨_, d', Script.runs_bind.2 ⟨_, d', wrote, .done⟩, same⟩

theorem exists_close (d : Housing root path) (draft : BlobDraft) :
    ∃ d', Script.Runs (disk root path) d ((BlobStore.folder root).close draft)
      (.ok draft.taken, .folder root) d' ∧ FileTree.SameFolders d.tree d'.tree := by
  obtain ⟨d', wrote, same⟩ := d.exists_writeHeld draft
  exact ⟨d', Script.runs_bind.2 ⟨_, d', wrote, .done⟩, same⟩

/-- The catalog can be flushed: files can be made at its path and beside it. -/
def CanFlush (d : Housing root path) : Prop :=
  ∀ file ∈ path, ∀ target ∈ [file, Catalog.temporary file], d.tree.Takes target

theorem CanFlush.of_sameFolders (can : d.CanFlush)
    (same : FileTree.SameFolders d.tree d'.tree) : d'.CanFlush :=
  fun file there target beside => (can file there target beside).of_sameFolders same

theorem runs_makeParent (d : Housing root path) {file : Path} (takes : d.tree.Takes file) :
    Script.Runs (disk root path) d (Catalog.makeParent file) (.ok ()) d := by
  unfold Catalog.makeParent
  split
  · rename_i parent above
    split
    · exact .done
    · rename_i named
      have named : parent.text ≠ "" := by simpa [String.isEmpty_iff] using named
      obtain ⟨place, leads, _⟩ := takes
      obtain ⟨folder, shows⟩ := FileTree.at?_of_parent leads above named
      exact Script.runs_makeFolders d.still named shows
  · exact .done

theorem exists_write (d : Housing root path) {file : Path} (takes : d.tree.Takes file)
    (data : Bytes) :
    ∃ d' place, Script.Runs (disk root path) d (Script.write file data) (.ok ()) d' ∧
      FileTree.SameFolders d.tree d'.tree ∧ d'.tree.at? file = some (place, .file [data]) := by
  obtain ⟨place, truncated, shows⟩ := takes.truncates
  have performed : d.tree.perform (.truncate file) = (.ok (), d.tree.insert place (.file [])) := by
    rw [FileTree.perform, truncated]
    rfl
  obtain ⟨d₁, emptied, changed⟩ := d.exists_reply (s := .truncate file) trivial
  obtain ⟨d₂, written, changed'⟩ := d₁.exists_reply (s := .append file data) trivial
  have same : FileTree.SameFolders d.tree d₁.tree :=
    changed ▸ FileTree.sameFolders_perform trivial
  have same' : FileTree.SameFolders d₁.tree d₂.tree :=
    changed' ▸ FileTree.sameFolders_perform trivial
  rw [performed] at emptied changed
  refine ⟨d₂, place, .step emptied (.step written .done), same.trans same', ?_⟩
  rw [changed']
  exact FileTree.at?_append (changed ▸ shows) data

theorem exists_rename (d : Housing root path) {source file : Path} {place : Location}
    {pieces : List Bytes} (takes : d.tree.Takes file)
    (shows : d.tree.at? source = some (place, .file pieces)) :
    ∃ d', (disk root path).replies d (.rename source file) (.ok ()) d' ∧
      FileTree.SameFolders d.tree d'.tree := by
  obtain ⟨last, renamed⟩ := takes.renames shows
  have performed : d.tree.perform (.rename source file) = (.ok (), last) := by
    rw [FileTree.perform, renamed]
    rfl
  obtain ⟨d', moved, changed⟩ := d.exists_reply (s := .rename source file) trivial
  rw [performed] at moved
  exact ⟨d', moved, changed ▸ FileTree.sameFolders_perform trivial⟩

theorem exists_flush (d : Housing root path) {catalog : Catalog} (filed : catalog.path? = path)
    (can : d.CanFlush) :
    ∃ d', Script.Runs (disk root path) d catalog.flush (.ok ()) d' ∧
      FileTree.SameFolders d.tree d'.tree := by
  cases catalog with
  | memory entries => exact ⟨d, .done, .refl _⟩
  | file file entries =>
      obtain rfl : some file = path := filed
      have main : d.tree.Takes file := can file rfl _ (by simp)
      have beside : d.tree.Takes (Catalog.temporary file) := can file rfl _ (by simp)
      obtain ⟨d₁, place, wrote, same, shows⟩ := d.exists_write beside (Bytes.ofText entries.toText)
      obtain ⟨d₂, moved, same'⟩ := d₁.exists_rename (main.of_sameFolders same) shows
      refine ⟨d₂, ?_, same.trans same'⟩
      exact Script.runs_bind.2 ⟨_, d, d.runs_makeParent main,
        Script.runs_bind.2 ⟨_, d₁, wrote, .step moved .done⟩⟩

end Housing

open Housing

/-- The store in a folder, on a disk that keeps the folder, with a catalog in memory or in
    a file. -/
def ConformingShelf.folder (root : Path) (path : Option Path) :
    ConformingShelf (Housing.disk root path) (some root) path where
  object _ d name := d.object name
  elsewhere rooted given asked different handles :=
    object_of_handles rooted given asked different handles
  looking rooted asked looks := by
    obtain rfl := eq_folder rooted
    cases looks with
    | find runs => rw [eq_of_looking (asks_find _ _) runs]
    | read runs => rw [eq_of_looking (asks_read _ _) runs]
  flushing {catalog} filed := by
    refine (writes_flush catalog).mono fun s files => ?_
    intro store other d d' reply rooted asked replied
    refine object_eq asked replied fun file member => ?_
    obtain ⟨main, there, either⟩ := files file member
    exact d.outside main (filed ▸ there) file either other asked
  removed rooted given runs _ := by
    obtain rfl := eq_folder rooted
    exact (run_remove given runs).2.1
  Holds draft shown bytes := ∃ written, shown = some written ∧
    written ++ draft.held.reverse.flatten = bytes ∧ draft.taken = bytes.length
  begun rooted given runs := by
    obtain rfl := eq_folder rooted
    obtain ⟨rfl, made⟩ := run_begin given runs
    exact ⟨[], made, rfl, rfl⟩
  taken rooted given own holds runs := by
    obtain rfl := eq_folder rooted
    obtain ⟨written, there, rfl, count⟩ := holds
    obtain ⟨rfl, wrote⟩ := run_take given (own.2.trans given.stored) there runs
    refine ⟨_, wrote, by simp, ?_⟩
    rw [List.length_append, ← count]
  closed rooted given own holds runs := by
    obtain rfl := eq_folder rooted
    obtain ⟨written, there, rfl, count⟩ := holds
    obtain ⟨rfl, wrote⟩ := run_close given (own.2.trans given.stored) there runs
    exact ⟨wrote, count⟩
  found rooted given there runs := by
    obtain rfl := eq_folder rooted
    have found := run_find given runs
    rw [there] at found
    exact found
  given rooted given there runs := by
    obtain rfl := eq_folder rooted
    have read := run_read given runs
    rw [there] at read
    exact read

/-- The store in a folder tells what is not there. -/
def CandidShelf.folder (root : Path) (path : Option Path) :
    CandidShelf (Housing.disk root path) (some root) path where
  toConformingShelf := ConformingShelf.folder root path
  unfound rooted given absent runs := by
    obtain rfl := eq_folder rooted
    have absent : Housing.object _ _ = none := absent
    have found := run_find given runs
    rw [absent] at found
    exact found
  ungiven rooted given absent runs := by
    obtain rfl := eq_folder rooted
    have absent : Housing.object _ _ = none := absent
    have read := run_read given runs
    rw [absent] at read
    exact read

end Strongroom
