import Strongroom.Proofs.Catalog.Durability
import Strongroom.Proofs.Json.Cut

/-! # What is left of a flush

Wherever a flush stops, its path shows what it showed, or what has been written of
the document. It shows a part of one only where the document has no other place to
be written to, and a document that is cut does not open.
-/

namespace Strongroom

namespace Bytes

theorem ofText_of_text? {bytes : Bytes} {text : String} (read : text? bytes = some text) :
    ofText text = bytes := by
  unfold text? String.fromUTF8? at read
  split at read
  · cases read
    exact List.toList_toArray
  · cases read

theorem isValidUTF8_of_append {text : List Char} {rest : ByteArray}
    (valid : (text.utf8Encode ++ rest).IsValidUTF8) : rest.IsValidUTF8 := by
  induction text with
  | nil => simpa using valid
  | cons c text ih =>
      rw [← List.singleton_append, List.utf8Encode_append, ByteArray.append_assoc,
        ByteArray.isValidUTF8_utf8Encode_singleton_append_iff] at valid
      exact ih valid

/-- A text that is cut reads, if it does, as the beginning of the text. -/
theorem text?_of_cut {cut lost : Bytes} {text whole : String} (read : text? cut = some text)
    (cuts : cut ++ lost = ofText whole) : ∃ rest, whole = text ++ rest ∧ ofText rest = lost := by
  have parts : whole.toByteArray = text.toByteArray ++ ⟨lost.toArray⟩ := by
    refine ByteArray.ext (Array.toList_inj.1 ?_)
    rw [ByteArray.data_append, Array.toList_append]
    exact (ofText_of_text? read ▸ cuts).symm
  have valid : ByteArray.IsValidUTF8 ⟨lost.toArray⟩ := by
    have valid := whole.isValidUTF8
    rw [parts, ← String.utf8Encode_toList] at valid
    exact isValidUTF8_of_append valid
  refine ⟨.ofByteArray ⟨lost.toArray⟩ valid, ?_, List.toList_toArray⟩
  rw [← String.toByteArray_inj, String.toByteArray_append]
  exact parts

end Bytes

namespace Catalog

variable {path : Path} {tree tree' : FileTree} {shown : Option (Location × FileNode)}

theorem opened_congr (place place' : Location) {pieces pieces' : List Bytes}
    (same : (FileNode.file pieces).content = (FileNode.file pieces').content) :
    opened path (some (place, .file pieces)) = opened path (some (place', .file pieces')) := by
  simp only [opened, same]

/-- A document that is cut does not open. -/
theorem opened_of_cut (place : Location) {pieces : List Bytes} {lost : Bytes} {entries : Entries}
    (cuts : (FileNode.file pieces).content ++ lost = Bytes.ofText entries.toText)
    (some : lost ≠ []) : ∃ e, opened path (.some (place, .file pieces)) = .error e := by
  cases read : Bytes.text? (FileNode.file pieces).content with
  | none =>
      simp only [opened, read]
      exact ⟨_, rfl⟩
  | some text =>
      obtain ⟨rest, whole, back⟩ := Bytes.text?_of_cut read cuts
      have left : rest.toList ≠ [] := by
        intro nothing
        rw [String.toList_eq_nil_iff.1 nothing] at back
        exact some back.symm
      have chars : text.toList ++ rest.toList = entries.toJson.prettyChars 0 := by
        rw [← String.toList_append, ← whole]
        exact String.toList_ofList
      have none := Json.parse?_eq_none_of_cut entries.plain_toJson chars left
      rw [String.ofList_toList] at none
      simp only [opened, read, Catalog.read, none]
      exact ⟨_, rfl⟩

/-- What the path of a catalog may show when a flush of a document has stopped. -/
inductive Remains (path : Path) (shown : Option (Location × FileNode)) (data : Bytes) :
    Option (Location × FileNode) → Prop where
  | kept : Remains path shown data shown
  | written {place : Location} {pieces : List Bytes} {lost : Bytes} :
    (FileNode.file pieces).content ++ lost = data → (temporary path ≠ path → lost = []) →
      Remains path shown data (some (place, .file pieces))

/-- Where a flush stops in the folders or in the document, or has moved it. -/
theorem stopsAt_replaceDocument {text : String}
    (stops : (replaceDocument path text).StopsAt tree tree') :
    (makeParent path).StopsAt tree tree' ∨
      ∃ tree₁, Script.Runs FileTree.failing tree (makeParent path) (.ok ()) tree₁ ∧
        ((Script.write (temporary path) (Bytes.ofText text)).StopsAt tree₁ tree' ∨
          ∃ tree₂, Script.Runs FileTree.failing tree₁
              (Script.write (temporary path) (Bytes.ofText text)) (.ok ()) tree₂ ∧
            tree₂.rename (temporary path) path = .ok tree') := by
  rcases Script.StopsAt.bind stops with first | ⟨made, tree₁, made', rest⟩
  · exact .inl first
  · rcases made with fault | _
    · cases Script.stopsAt_pure rest
      exact .inl made'.stopsAt
    · refine .inr ⟨tree₁, made', ?_⟩
      rcases Script.StopsAt.bind rest with second | ⟨wrote, tree₂, wrote', rest⟩
      · exact .inl second
      · rcases wrote with fault | _
        · cases Script.stopsAt_pure rest
          exact .inl wrote'.stopsAt
        · cases rest with
          | here => exact .inl wrote'.stopsAt
          | midway breaks => cases breaks
          | @later _ reply _ _ tree₃ _ replied rest =>
              obtain rfl : tree' = tree₃ := by
                rcases reply with fault | _
                · exact Script.stopsAt_pure rest
                · exact Script.stopsAt_pure rest
              rcases replied with replied | fails
              · rcases FileTree.settle_cases replied with ⟨_, _, rfl⟩ | ⟨_, moved⟩
                · exact .inl wrote'.stopsAt
                · exact .inr ⟨tree₂, wrote', moved⟩
              · cases fails
                exact .inl wrote'.stopsAt

theorem formed_of_stop {text : String} (formed : tree.WellFormed)
    (stops : (replaceDocument path text).StopsAt tree tree') : tree'.WellFormed := by
  have makes (tree : FileTree) (s : Step) (reply : s.Reply) (tree' : FileTree)
      (prepares : Prepares path s) (replied : FileTree.failing.replies tree s reply tree')
      (formed : tree.WellFormed) : tree'.WellFormed := by
    cases prepares with
    | look other =>
        rcases replied with replied | fails
        · cases replied
          exact formed
        · cases fails
    | makeFolder =>
        rcases replied with replied | fails
        · rcases FileTree.settle_cases replied with ⟨_, _, rfl⟩ | ⟨_, made⟩
          · exact formed
          · exact formed.makeFolder made
        · cases fails
          exact formed
  have writes {tree tree' : FileTree} {data : Bytes} (formed : tree.WellFormed)
      (stops : (Script.write (temporary path) data).StopsAt tree tree') : tree'.WellFormed := by
    rcases Script.stopsAt_write stops with rfl | ⟨changed, pieces, _, emptied, _, rfl⟩
    · exact formed
    · exact (formed.truncate emptied).appends _ pieces
  rcases stopsAt_replaceDocument stops with first | ⟨tree₁, made, outcome⟩
  · exact first.keeps (prepares_makeParent path) makes (fun _ _ never => by cases never) formed
  · have formed₁ := made.keeps (prepares_makeParent path) makes formed
    rcases outcome with second | ⟨tree₂, wrote, moved⟩
    · exact writes formed₁ second
    · exact (writes formed₁ wrote.stopsAt).rename moved

theorem Shows.remains_of_write {data : Bytes} (shows : Shows path shown tree)
    (stops : (Script.write (temporary path) data).StopsAt tree tree') :
    ∃ shown', Shows path shown' tree' ∧ Remains path shown data shown' := by
  by_cases beside : temporary path = path
  · rw [beside] at stops
    rcases Script.stopsAt_write stops with rfl | ⟨changed, pieces, lost, emptied, whole, rfl⟩
    · exact ⟨shown, shows, .kept⟩
    · have formed := (shows.formed.truncate emptied).appends path pieces
      obtain ⟨place, empty⟩ := FileTree.at?_truncate emptied
      have here := FileTree.at?_appends empty pieces
      obtain ⟨leads', _⟩ := FileTree.at?_eq_some.1 here
      have cuts : (FileNode.file (pieces.reverse ++ [])).content ++ lost = data := by
        rw [FileNode.content, List.append_nil, List.reverse_reverse]
        exact whole
      exact ⟨_, ⟨formed, .inl ⟨place, leads'⟩, here⟩,
        .written cuts fun other => absurd beside other⟩
  · exact ⟨shown, shows.write beside stops, .kept⟩

/-- Wherever a flush stops, its path shows what it showed, or what has been written. -/
theorem Shows.remains {text : String} (shows : Shows path shown tree)
    (stops : (Catalog.replaceDocument path text).StopsAt tree tree') :
    ∃ shown', Shows path shown' tree' ∧ Remains path shown (Bytes.ofText text) shown' := by
  rcases stopsAt_replaceDocument stops with first | ⟨tree₁, made, outcome⟩
  · refine ⟨shown, ?_, .kept⟩
    exact first.keeps (prepares_makeParent path) Shows.prepares (fun _ _ never => by cases never)
      shows
  · have shows₁ := made.keeps (prepares_makeParent path) Shows.prepares shows
    rcases outcome with second | ⟨tree₂, wrote, moved⟩
    · exact shows₁.remains_of_write second
    · obtain ⟨_, shows₂, _⟩ := shows₁.remains_of_write wrote.stopsAt
      obtain ⟨_, there⟩ := at?_of_write wrote
      obtain ⟨place, here⟩ := FileTree.at?_rename moved there
      obtain ⟨leads, _⟩ := FileTree.at?_eq_some.1 here
      have whole : (FileNode.file [Bytes.ofText text]).content ++ [] = Bytes.ofText text := by
        simp [FileNode.content]
      exact ⟨_, ⟨shows₂.formed.rename moved, .inl ⟨place, leads⟩, here⟩,
        .written whole fun _ => rfl⟩

/-- What opens then is what opened before, or the document; a part of it does not open. -/
theorem Remains.opened {entries : Entries} {shown' : Option (Location × FileNode)}
    (sound : entries.Sound)
    (remains : Remains path shown (Bytes.ofText entries.toText) shown') :
    Catalog.opened path shown' = Catalog.opened path shown ∨
      Catalog.opened path shown' = .ok (.file path entries.written) ∨
        temporary path = path ∧ ∃ e, Catalog.opened path shown' = .error e := by
  cases remains with
  | kept => exact .inl rfl
  | @written place pieces lost cuts beside =>
      right
      by_cases whole : lost = []
      · left
        rw [whole, List.append_nil] at cuts
        have same : (FileNode.file pieces).content =
            (FileNode.file [Bytes.ofText entries.toText]).content :=
          cuts.trans (List.append_nil _).symm
        rw [opened_congr place place same]
        exact opened_toText path place sound
      · right
        exact ⟨not_imp_comm.1 beside whole, opened_of_cut place cuts whole⟩

end Catalog

end Strongroom
