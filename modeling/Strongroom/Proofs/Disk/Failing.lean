import Strongroom.Proofs.Disk.Places

/-! # Disks that fail

A change may fail, with nothing done or with a part of it. The process that runs a
script may also stop: before a step, after it, or while some of the bytes are
written.
-/

namespace Strongroom

namespace FileTree

/-- How a step that changes the disk may fail. -/
inductive Fails (tree : FileTree) : (s : Step) → s.Reply → FileTree → Prop where
  | makeFolder {path : Path} {fault : DiskFault} :
    Fails tree (.makeFolder path) (.error fault) tree
  | truncate {path : Path} {fault : DiskFault} : Fails tree (.truncate path) (.error fault) tree
  /-- The file is made empty, but the reply is lost. -/
  | truncated {path : Path} {fault : DiskFault} {changed : FileTree} :
    tree.truncate path = .ok changed → Fails tree (.truncate path) (.error fault) changed
  /-- Some of the bytes are written. -/
  | append {path : Path} {fault : DiskFault} (written lost : Bytes) :
    Fails tree (.append path (written ++ lost)) (.error fault) (tree.append path written)
  | rename {source target : Path} {fault : DiskFault} :
    Fails tree (.rename source target) (.error fault) tree

/-- The model of the disk, but any change may fail. -/
def failing : Disk FileTree where
  replies tree s reply tree' := tree.perform s = (reply, tree') ∨ tree.Fails s reply tree'
  responds tree s := ⟨(tree.perform s).1, (tree.perform s).2, .inl rfl⟩

theorem runs_failing {α : Type} {script : Script α} {tree tree' : FileTree} {value : α}
    (runs : Script.Runs disk tree script value tree') :
    Script.Runs failing tree script value tree' :=
  runs.mono fun _ _ _ _ replied => .inl replied

def appends (tree : FileTree) (path : Path) (pieces : List Bytes) : FileTree :=
  pieces.foldl (fun tree piece => tree.append path piece) tree

theorem appends_cons (tree : FileTree) (path : Path) (piece : Bytes) (pieces : List Bytes) :
    tree.appends path (piece :: pieces) = (tree.append path piece).appends path pieces := rfl

theorem appends_keeps {holds : FileTree → Prop} {path : Path}
    (keeps : ∀ {tree}, holds tree → ∀ data, holds (tree.append path data)) {tree : FileTree}
    (before : holds tree) (pieces : List Bytes) : holds (tree.appends path pieces) := by
  induction pieces generalizing tree with
  | nil => exact before
  | cons piece pieces ih =>
      rw [appends_cons]
      exact ih (keeps before piece)

theorem WellFormed.appends {tree : FileTree} (formed : tree.WellFormed) (path : Path)
    (pieces : List Bytes) : (tree.appends path pieces).WellFormed :=
  appends_keeps (fun formed data => formed.append path data) formed pieces

theorem at?_appends {tree : FileTree} {path : Path} {place : Location} {old : List Bytes}
    (shows : tree.at? path = some (place, .file old)) (pieces : List Bytes) :
    (tree.appends path pieces).at? path = some (place, .file (pieces.reverse ++ old)) := by
  induction pieces generalizing tree old with
  | nil => exact shows
  | cons piece pieces ih =>
      rw [appends_cons, List.reverse_cons, List.append_assoc]
      exact ih (at?_append shows piece)

/-- What the disk may hold when the process stops in the midst of a step: of what is
    written some may be there, in any number of pieces. -/
inductive Breaks (tree : FileTree) : Step → FileTree → Prop where
  | append {path : Path} (pieces : List Bytes) (lost : Bytes) :
    Breaks tree (.append path (pieces.flatten ++ lost)) (tree.appends path pieces)

end FileTree

namespace Script

variable {α β : Type} {tree tree' : FileTree}

/-- What the disk may hold when the process stops somewhere in a script. -/
inductive StopsAt : Script α → FileTree → FileTree → Prop where
  | here {script : Script α} {tree : FileTree} : StopsAt script tree tree
  | midway {s : Step} {next : s.Reply → Script α} {tree tree' : FileTree} :
    tree.Breaks s tree' → StopsAt (.step s next) tree tree'
  | later {s : Step} {reply : s.Reply} {next : s.Reply → Script α} {tree tree' tree'' : FileTree} :
    FileTree.failing.replies tree s reply tree' → StopsAt (next reply) tree' tree'' →
      StopsAt (.step s next) tree tree''

theorem Runs.stopsAt {script : Script α} {value : α}
    (runs : Runs FileTree.failing tree script value tree') : script.StopsAt tree tree' := by
  induction runs with
  | done => exact .here
  | step replied _ ih => exact .later replied ih

theorem stopsAt_stopAfter (count : Nat) (script : Script α) (tree : FileTree) :
    script.StopsAt tree (script.stopAfter count tree) := by
  induction count generalizing script tree with
  | zero => exact .here
  | succ count ih =>
      cases script with
      | done value => exact .here
      | step s next => exact .later (.inl rfl) (ih _ _)

theorem stopsAt_pure {value : α} (stops : (pure value : Script α).StopsAt tree tree') :
    tree' = tree := by
  cases stops with
  | here => rfl

/-- Who stops in two scripts, one after the other, stops in one of them. -/
theorem StopsAt.bind {script : Script α} {next : α → Script β}
    (stops : (script >>= next).StopsAt tree tree') :
    script.StopsAt tree tree' ∨
      ∃ value tree₁, Runs FileTree.failing tree script value tree₁ ∧
        (next value).StopsAt tree₁ tree' := by
  change (script.bind next).StopsAt tree tree' at stops
  induction script generalizing tree with
  | done value => exact .inr ⟨value, tree, .done, stops⟩
  | step s more ih =>
      cases stops with
      | here => exact .inl .here
      | midway breaks => exact .inl (.midway breaks)
      | later replied rest =>
          rcases ih _ rest with first | ⟨value, tree₁, runs, rest⟩
          · exact .inl (.later replied first)
          · exact .inr ⟨value, tree₁, .step replied runs, rest⟩

/-- What every step of one kind keeps is kept wherever the process stops in a script of
    such steps, if nothing is written in it. -/
theorem StopsAt.keeps {kind : Step → Prop} {holds : FileTree → Prop} {script : Script α}
    (stops : script.StopsAt tree tree') (asks : script.Asks kind)
    (keeps : ∀ tree s reply tree', kind s → FileTree.failing.replies tree s reply tree' →
      holds tree → holds tree')
    (whole : ∀ path data, ¬ kind (.append path data)) (before : holds tree) : holds tree' := by
  induction stops with
  | here => exact before
  | midway broken =>
      cases broken with
      | append => exact absurd asks.1 (whole _ _)
  | later replied _ ih => exact ih (asks.2 _) (keeps _ _ _ _ asks.1 replied before)

theorem stopsAt_append {path : Path} {data : Bytes}
    (stops : (ask (.append path data)).StopsAt tree tree') :
    ∃ pieces lost, pieces.flatten ++ lost = data ∧ tree' = tree.appends path pieces := by
  cases stops with
  | here => exact ⟨[], data, rfl, rfl⟩
  | midway breaks =>
      cases breaks with
      | append pieces lost => exact ⟨pieces, lost, rfl, rfl⟩
  | later replied rest =>
      cases rest with
      | here =>
          rcases replied with replied | fails
          · exact ⟨[data], [], by simp, (congrArg Prod.snd replied).symm⟩
          · cases fails with
            | append written lost => exact ⟨[written], lost, by simp, rfl⟩

/-- Where it stops while it writes a whole file, the file is as it was, or a part of it
    is there. -/
theorem stopsAt_write {path : Path} {data : Bytes}
    (stops : (write path data).StopsAt tree tree') :
    tree' = tree ∨ ∃ changed pieces lost, tree.truncate path = .ok changed ∧
      pieces.flatten ++ lost = data ∧ tree' = changed.appends path pieces := by
  cases stops with
  | here => exact .inl rfl
  | midway breaks => cases breaks
  | @later _ reply _ _ tree₁ _ replied rest =>
      have emptied : tree₁ = tree ∧ (∃ fault, reply = .error fault) ∨
          tree.truncate path = .ok tree₁ := by
        rcases replied with replied | fails
        · exact (FileTree.settle_cases replied).imp (fun ⟨fault, failed, same⟩ =>
            ⟨same, fault, failed⟩) And.right
        · cases fails with
          | truncate => exact .inl ⟨rfl, _, rfl⟩
          | truncated emptied => exact .inr emptied
      rcases emptied with ⟨rfl, fault, rfl⟩ | emptied
      · exact .inl (stopsAt_pure rest)
      · right
        rcases reply with fault | _
        · cases stopsAt_pure rest
          exact ⟨tree', [], data, emptied, rfl, rfl⟩
        · obtain ⟨pieces, lost, whole, rfl⟩ := stopsAt_append rest
          exact ⟨tree₁, pieces, lost, emptied, whole, rfl⟩

end Script

end Strongroom
