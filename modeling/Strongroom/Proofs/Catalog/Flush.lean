import Strongroom.Catalog.Basic
import Strongroom.Proofs.Disk.Failing
import Strongroom.Proofs.Disk.Paths
import Strongroom.Proofs.Disk.Places

/-! # Flushes on a disk that fails

Any step of a flush may fail, with nothing done or with a part of it. Whatever
fails, what the path of the catalog shows stays as it was; where nothing fails, it
shows the whole document.
-/

namespace Strongroom

namespace Catalog

variable {path : Path} {tree tree' : FileTree} {shown : Option (Location × FileNode)}

/-- What the path of a catalog shows, on a disk that is in order. -/
structure Shows (path : Path) (shown : Option (Location × FileNode)) (tree : FileTree) : Prop where
  formed : tree.WellFormed
  steady : tree.Steady path
  here : tree.at? path = shown

/-- A step of a flush that comes before the document is written. -/
inductive Prepares (path : Path) : Step → Prop where
  | look (other : Path) : Prepares path (.look other)
  | makeFolder {first : Path} : FileTree.Leads first path → Prepares path (.makeFolder first)

/-- A catalog and the document beside it stand in different places. -/
theorem apart_of_temporary (beside : temporary path ≠ path) {place : Location}
    (leads : tree.locate (temporary path) = .ok place) (here : place = tree.destination path) :
    path.meansFolder := by
  by_cases file : path.meansFolder
  · exact file
  · obtain ⟨absolute, dirs, name, other, names, names', different, noBack, noBack'⟩ :=
      Path.segments_of_withExtension (by decide) (by decide) beside file
    have based : tree.base (temporary path) = tree.base path := by
      rw [FileTree.base, FileTree.base, show (temporary path).isAbsolute = _ from absolute]
    have same : tree.destination (temporary path) = tree.destination path :=
      (FileTree.locate_eq_destination leads).symm.trans here
    rw [FileTree.destination, FileTree.destination, based,
      show (temporary path).segments = _ from names', names,
      FileTree.follow_append_singleton _ _ noBack',
      FileTree.follow_append_singleton _ _ noBack] at same
    exact absurd (List.cons.inj (List.append_cancel_left same)).1.symm different

/-- A file that is made or written beside a catalog does not show. -/
theorem Shows.insert (shows : Shows path shown tree) (beside : temporary path ≠ path)
    {place : Location} (leads : tree.locate (temporary path) = .ok place)
    (none : tree.find? place ≠ some .folder) (pieces : List Bytes) :
    Shows path shown (tree.insert place (.file pieces)) where
  formed := by
    obtain ⟨folder, name, rfl, around⟩ := shows.formed.around_locate leads none
    exact shows.formed.insert_file none around
  steady := by
    rcases shows.steady with ⟨found, leads⟩ | down
    · left
      exact ⟨found, (FileTree.locate_congr (by rfl)
        (fun other => (FileTree.folders_insert_file none other).symm) found).1 leads⟩
    · exact .inr down
  here := by
    rw [FileTree.at?_insert_file none fun leads' =>
      apart_of_temporary beside leads (FileTree.locate_eq_destination leads')]
    exact shows.here

theorem Shows.truncate (shows : Shows path shown tree) (beside : temporary path ≠ path)
    (emptied : tree.truncate (temporary path) = .ok tree') : Shows path shown tree' := by
  obtain ⟨place, leads, _, none, rfl⟩ := FileTree.truncate_ok emptied
  exact shows.insert beside leads none []

theorem Shows.append (shows : Shows path shown tree) (beside : temporary path ≠ path)
    (data : Bytes) : Shows path shown (tree.append (temporary path) data) := by
  rcases tree.append_eq (temporary path) data with same | ⟨place, pieces, there, written⟩
  · rwa [same]
  · obtain ⟨leads, _⟩ := FileTree.at?_eq_some.1 there
    rw [written]
    exact shows.insert beside leads (FileTree.ne_folder_of_at? there) _

theorem Shows.appends (shows : Shows path shown tree) (beside : temporary path ≠ path)
    (pieces : List Bytes) : Shows path shown (tree.appends (temporary path) pieces) :=
  FileTree.appends_keeps (fun shows data => shows.append beside data) shows pieces

/-- No step that prepares the flush shows, whether it fails or not. -/
theorem Shows.prepares (tree : FileTree) (s : Step) (reply : s.Reply) (tree' : FileTree)
    (prepares : Prepares path s) (replied : FileTree.failing.replies tree s reply tree')
    (shows : Shows path shown tree) : Shows path shown tree' := by
  cases prepares with
  | look other =>
      rcases replied with replied | fails
      · cases replied
        exact shows
      · cases fails
  | makeFolder leads =>
      rcases replied with replied | fails
      · rcases FileTree.settle_cases replied with ⟨_, _, rfl⟩ | ⟨_, made⟩
        · exact shows
        · obtain ⟨formed, steady, same⟩ :=
            FileTree.at?_makeFolder shows.formed shows.steady leads made
          exact ⟨formed, steady, same.trans shows.here⟩
      · cases fails
        exact shows

theorem Shows.write (beside : temporary path ≠ path) {data : Bytes}
    (stops : (Script.write (temporary path) data).StopsAt tree tree')
    (shows : Shows path shown tree) : Shows path shown tree' := by
  rcases Script.stopsAt_write stops with rfl | ⟨changed, pieces, _, emptied, _, rfl⟩
  · exact shows
  · exact (shows.truncate beside emptied).appends beside pieces

theorem prepares_settled (first : Path) (fault : DiskFault) :
    (Script.makeFoldersFrom.settled first fault).Asks (Prepares path) := by
  refine ⟨.look first, fun reply => ?_⟩
  change (if (reply == some FileKind.folder) = true then _ else _ : Script _).Asks _
  split
  all_goals exact trivial

theorem prepares_makeFoldersFrom (fuel : Nat) (first : Path)
    (leads : first.text ≠ "" → FileTree.Leads first path) :
    (Script.makeFoldersFrom fuel first).Asks (Prepares path) := by
  induction fuel generalizing first with
  | zero => exact trivial
  | succ fuel ih =>
      unfold Script.makeFoldersFrom
      split
      · exact trivial
      · rename_i some
        have some : first.text ≠ "" := by simpa [String.isEmpty_iff] using some
        have leads := leads some
        refine ⟨.makeFolder leads, fun reply => ?_⟩
        rcases reply with (_ | _ | _ | _ | _ | _ | _) | _
        case error.notFound =>
          dsimp only
          split
          · exact trivial
          · rename_i parent above
            refine (ih parent fun named => ?_).bind fun made => ?_
            · obtain ⟨⟨name, names⟩, absolute⟩ := Path.segments_of_parent above named
              obtain ⟨name', more, further⟩ := leads.names
              refine ⟨absolute.trans leads.absolute, name, name' :: more, ?_⟩
              rw [further, names]
              simp
            · rcases made with fault | _
              · exact trivial
              · refine ⟨.makeFolder leads, fun reply => ?_⟩
                rcases reply with fault | _
                · exact prepares_settled first fault
                · exact trivial
        case ok => exact trivial
        all_goals exact prepares_settled first _

theorem prepares_makeParent (path : Path) : (makeParent path).Asks (Prepares path) := by
  unfold makeParent
  split
  · rename_i parent above
    split
    · exact trivial
    · refine prepares_makeFoldersFrom _ parent fun named => ?_
      obtain ⟨⟨name, names⟩, absolute⟩ := Path.segments_of_parent above named
      exact ⟨absolute, name, [], names⟩
  · exact trivial

theorem at?_of_write {data : Bytes}
    (runs : Script.Runs FileTree.failing tree (Script.write path data) (.ok ()) tree') :
    ∃ place, tree'.at? path = some (place, .file [data]) := by
  obtain ⟨reply, tree₁, replied, rest⟩ := Script.runs_step.1 runs
  rcases reply with fault | _
  · obtain ⟨never, _⟩ := Script.runs_pure.1 rest
    cases never
  · obtain ⟨reply, tree₂, replied', rest⟩ := Script.runs_step.1 rest
    obtain ⟨rfl, rfl⟩ := Script.runs_done.1 rest
    rcases replied with replied | fails
    · rcases FileTree.settle_cases replied with ⟨_, never, _⟩ | ⟨_, emptied⟩
      · cases never
      · obtain ⟨place, empty⟩ := FileTree.at?_truncate emptied
        rcases replied' with replied' | fails
        · have written : tree₁.append path data = tree' := congrArg Prod.snd replied'
          rw [← written]
          exact ⟨place, FileTree.at?_append empty data⟩
        · cases fails
    · cases fails

/-- A flush comes to an end where a step fails, or goes through all of them. -/
theorem runs_replaceDocument {text : String} {result : Except Error Unit}
    (runs : Script.Runs FileTree.failing tree (replaceDocument path text) result tree') :
    ∃ made tree₁, Script.Runs FileTree.failing tree (makeParent path) made tree₁ ∧
      ((∃ e, result = .error e ∧ tree' = tree₁) ∨
        ∃ wrote tree₂, Script.Runs FileTree.failing tree₁
            (Script.write (temporary path) (Bytes.ofText text)) wrote tree₂ ∧
          ((∃ e, result = .error e ∧ tree' = tree₂) ∨
            wrote = .ok () ∧ result = .ok () ∧
              tree₂.rename (temporary path) path = .ok tree')) := by
  obtain ⟨made, tree₁, made', rest⟩ := Script.runs_bind.1 runs
  refine ⟨made, tree₁, made', ?_⟩
  rcases made with fault | _
  · obtain ⟨rfl, rfl⟩ := Script.runs_pure.1 rest
    exact .inl ⟨_, rfl, rfl⟩
  · obtain ⟨wrote, tree₂, wrote', rest⟩ := Script.runs_bind.1 rest
    refine .inr ⟨wrote, tree₂, wrote', ?_⟩
    rcases wrote with fault | _
    · obtain ⟨rfl, rfl⟩ := Script.runs_pure.1 rest
      exact .inl ⟨_, rfl, rfl⟩
    · obtain ⟨reply, tree₃, replied, final⟩ := Script.runs_step.1 rest
      rcases replied with replied | fails
      · rcases FileTree.settle_cases replied with ⟨fault, rfl, rfl⟩ | ⟨rfl, moved⟩
        · obtain ⟨rfl, rfl⟩ := Script.runs_pure.1 final
          exact .inl ⟨_, rfl, rfl⟩
        · obtain ⟨rfl, rfl⟩ := Script.runs_pure.1 final
          exact .inr ⟨rfl, rfl, moved⟩
      · cases fails
        obtain ⟨rfl, rfl⟩ := Script.runs_pure.1 final
        exact .inl ⟨_, rfl, rfl⟩

theorem at?_of_replaceDocument {text : String}
    (runs : Script.Runs FileTree.failing tree (replaceDocument path text) (.ok ()) tree') :
    ∃ place, tree'.at? path = some (place, .file [Bytes.ofText text]) := by
  obtain ⟨_, _, _, ⟨_, never, _⟩ | ⟨wrote, tree₂, wrote', outcome⟩⟩ := runs_replaceDocument runs
  · cases never
  · obtain ⟨_, never, _⟩ | ⟨rfl, _, moved⟩ := outcome
    · cases never
    obtain ⟨place, shown⟩ := at?_of_write wrote'
    exact FileTree.at?_rename moved shown

/-- A flush that fails does not show; one that succeeds leaves the disk in order. -/
theorem Shows.replaceDocument (beside : temporary path ≠ path) (shows : Shows path shown tree)
    {text : String} {result : Except Error Unit}
    (runs : Script.Runs FileTree.failing tree (replaceDocument path text) result tree') :
    (∃ e, result = .error e ∧ Shows path shown tree') ∨
      result = .ok () ∧ ∃ place, Shows path (some (place, .file [Bytes.ofText text])) tree' := by
  obtain ⟨_, tree₁, made, outcome⟩ := runs_replaceDocument runs
  have shows₁ := made.keeps (prepares_makeParent path) Shows.prepares shows
  rcases outcome with ⟨e, failed, rfl⟩ | ⟨wrote, tree₂, wrote', outcome⟩
  · exact .inl ⟨e, failed, shows₁⟩
  · have shows₂ := shows₁.write beside wrote'.stopsAt
    rcases outcome with ⟨e, failed, rfl⟩ | ⟨_, kept, moved⟩
    · exact .inl ⟨e, failed, shows₂⟩
    · subst kept
      obtain ⟨place, here⟩ := at?_of_replaceDocument runs
      obtain ⟨leads, _⟩ := FileTree.at?_eq_some.1 here
      exact .inr ⟨rfl, place, shows₂.formed.rename moved, .inl ⟨place, leads⟩, here⟩

end Catalog

end Strongroom
