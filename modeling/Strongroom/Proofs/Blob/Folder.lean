import Strongroom.Proofs.Disk.Footprint
import Strongroom.Proofs.Disk.Paths

/-! # Objects in a folder

An object with an ordinary name is a file in the folder of its store. Whatever the
store does to the object is done to this file, and nothing has to be made around it,
as the folder is there.
-/

namespace Strongroom

open BlobStore

variable {root : Path} {place : Location} {tree : FileTree} {key other : String}
  {pieces : List Bytes}

/-- Making a folder that is there does nothing, on a disk that may reply as the model
    does where the model changes nothing. -/
theorem Script.runs_makeFolders {δ : Type} {disk : Disk δ} {d : δ} {path : Path}
    (still : ∀ s, (tree.perform s).2 = tree → disk.replies d s (tree.perform s).1 d)
    (named : path.text ≠ "") (there : tree.at? path = some (place, .folder)) :
    Runs disk d (makeFolders path) (.ok ()) d := by
  obtain ⟨leads, folder, _⟩ := FileTree.at?_eq_some.1 there
  have made : tree.perform (.makeFolder path) = (.error .exists, tree) := by
    simp [FileTree.perform, FileTree.makeFolder, leads, folder, Bind.bind, Except.bind,
      FileTree.settle]
  have looked : tree.perform (.look path) = (some .folder, tree) :=
    congrArg (fun found : Option (Location × FileNode) => (found.map (·.2.kind), tree)) there
  have refused := still _ (congrArg Prod.snd made)
  have found := still _ (congrArg Prod.snd looked)
  rw [made] at refused
  rw [looked] at found
  rw [makeFolders, makeFoldersFrom, String.isEmpty_eq_false_iff.2 named]
  exact .step refused (.step found .done)

namespace FileTree

variable {file parent : Path}

theorem at?_of_parent (leads : tree.locate file = .ok place) (above : file.parent? = some parent)
    (named : parent.text ≠ "") : ∃ folder, tree.at? parent = some (folder, .folder) := by
  obtain ⟨⟨name, names⟩, absolute⟩ := Path.segments_of_parent above named
  have walked := locate_ok leads
  rw [names, walk_append] at walked
  obtain ⟨folder, walked, rest⟩ := walked
  obtain ⟨there, _⟩ := walk_cons.1 rest
  have based : tree.base parent = tree.base file := by rw [base, base, absolute]
  rw [← based] at walked
  exact ⟨folder, at?_eq_some.2 ⟨locate_of_walk named walked, there, fun _ => rfl⟩⟩

end FileTree

/-- A store keeps its objects in a folder, and no ordinary name means a folder in it. -/
structure Houses (root : Path) (place : Location) (tree : FileTree) : Prop where
  there : tree.at? root = some (place, .folder)
  files : ∀ key, Path.IsComponent key → tree.find? (place ++ [key]) ≠ some .folder

namespace Houses

theorem named (houses : Houses root place tree) : root.text ≠ "" := by
  intro nothing
  obtain ⟨leads, _⟩ := FileTree.at?_eq_some.1 houses.there
  rw [FileTree.locate, nothing] at leads
  cases leads

theorem filePath_eq (component : Path.IsComponent key) : filePath root key = root.join ⟨key⟩ := by
  have slash : (key == "/") = false := by
    rw [beq_eq_false_iff_ne]
    rintro rfl
    exact component.plain (by decide)
  rw [filePath, slash]
  rfl

theorem locate (houses : Houses root place tree) (component : Path.IsComponent key) :
    tree.locate (filePath root key) = .ok (place ++ [key]) := by
  obtain ⟨leads, folder, _⟩ := FileTree.at?_eq_some.1 houses.there
  have based : tree.base (root.join ⟨key⟩) = tree.base root := by
    rw [FileTree.base, FileTree.base, Path.isAbsolute_join component houses.named]
  rw [filePath_eq component]
  apply FileTree.locate_of_walk (Path.text_join_ne component houses.named)
  rw [based, Path.segments_join component houses.named, FileTree.walk_append]
  refine ⟨place, FileTree.locate_ok leads, FileTree.walk_cons.2 ⟨folder, ?_⟩⟩
  rw [if_neg component.back, FileTree.walk]

theorem file (houses : Houses root place tree) (component : Path.IsComponent key) :
    (filePath root key).meansFolder = false := by
  rw [filePath_eq component]
  exact Path.meansFolder_join component houses.named

theorem resolve (houses : Houses root place tree) (component : Path.IsComponent key) :
    tree.resolve (filePath root key) =
      match tree.find? (place ++ [key]) with
      | none => .error .notFound
      | some node => .ok (place ++ [key], node) := by
  rw [FileTree.resolve, houses.locate component]
  simp only [bind, Except.bind, houses.file component]
  cases tree.find? (place ++ [key]) with
  | none => rfl
  | some node =>
      cases node with
      | file | folder => rfl

theorem runs_makeFolders {δ : Type} {disk : Disk δ} {d : δ} (houses : Houses root place tree)
    (component : Path.IsComponent key)
    (still : ∀ s, (tree.perform s).2 = tree → disk.replies d s (tree.perform s).1 d) :
    Script.Runs disk d (Script.makeFolders ((filePath root key).parent?.getD ⟨""⟩)) (.ok ()) d := by
  cases above : (filePath root key).parent? with
  | none => exact .done
  | some parent =>
      rw [Option.getD_some]
      by_cases nothing : parent.text = ""
      · rw [Script.makeFolders, Script.makeFoldersFrom, nothing]
        exact .done
      · obtain ⟨folder, shows⟩ := FileTree.at?_of_parent (houses.locate component) above nothing
        exact Script.runs_makeFolders still nothing shows

theorem of_sameFolders (houses : Houses root place tree) {tree' : FileTree}
    (same : FileTree.SameFolders tree tree') : Houses root place tree' where
  there := same.at?_eq houses.there
  files key component := mt (same.folders _).1 (houses.files key component)

theorem insert (houses : Houses root place tree) (component : Path.IsComponent key)
    (pieces : List Bytes) : Houses root place (tree.insert (place ++ [key]) (.file pieces)) :=
  houses.of_sameFolders (.insert (houses.files key component) pieces)

theorem erase (houses : Houses root place tree) (component : Path.IsComponent key) :
    Houses root place (tree.erase (place ++ [key])) :=
  houses.of_sameFolders (.erase (houses.files key component))

section Steps

variable (houses : Houses root place tree) (component : Path.IsComponent key)

include houses component

theorem at?_eq : tree.at? (filePath root key) =
    (tree.find? (place ++ [key])).map fun node => (place ++ [key], node) := by
  rw [FileTree.at?, houses.resolve component]
  cases tree.find? (place ++ [key]) with
  | none | some => rfl

theorem perform_truncate : tree.perform (.truncate (filePath root key)) =
    (.ok (), tree.insert (place ++ [key]) (.file [])) := by
  have emptied : tree.truncate (filePath root key) =
      .ok (tree.insert (place ++ [key]) (.file [])) := by
    rw [FileTree.truncate, houses.locate component]
    simp only [bind, Except.bind, houses.file component, Bool.false_eq_true, if_false]
    split
    · rename_i folder
      exact absurd folder (houses.files key component)
    · rfl
  rw [FileTree.perform, emptied]
  rfl

theorem perform_append (there : tree.find? (place ++ [key]) = some (.file pieces)) (data : Bytes) :
    tree.perform (.append (filePath root key) data) =
      (.ok (), tree.insert (place ++ [key]) (.file (data :: pieces))) := by
  have shown : tree.at? (filePath root key) = some (place ++ [key], .file pieces) := by
    rw [houses.at?_eq component, there]
    rfl
  rw [FileTree.perform, FileTree.append_of_at? shown]

theorem perform_look : tree.perform (.look (filePath root key)) =
    ((tree.find? (place ++ [key])).map FileNode.kind, tree) := by
  rw [FileTree.perform, houses.resolve component]
  cases tree.find? (place ++ [key]) with
  | none | some => rfl

theorem perform_openFile : tree.perform (.openFile (filePath root key)) =
    (match tree.find? (place ++ [key]) with
      | none => .error .notFound
      | some _ => .ok (), tree) := by
  rw [FileTree.perform, houses.resolve component]
  cases tree.find? (place ++ [key]) with
  | none | some => rfl

theorem perform_read (there : tree.find? (place ++ [key]) = some (.file pieces)) :
    tree.perform (.read (filePath root key)) = (.ok (FileNode.file pieces).content, tree) := by
  rw [FileTree.perform, houses.resolve component, there]

theorem perform_removeFile_of_none (nothing : tree.find? (place ++ [key]) = none) :
    tree.perform (.removeFile (filePath root key)) = (.error .notFound, tree) := by
  rw [FileTree.perform, FileTree.removeFile, houses.resolve component, nothing]
  rfl

theorem perform_removeFile (there : tree.find? (place ++ [key]) = some (.file pieces)) :
    tree.perform (.removeFile (filePath root key)) = (.ok (), tree.erase (place ++ [key])) := by
  rw [FileTree.perform, FileTree.removeFile, houses.resolve component, there]
  rfl

end Steps

end Houses

end Strongroom
