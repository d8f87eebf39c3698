import Strongroom.Proofs.Blob.Folder
import Strongroom.Proofs.Blob.Shelf

/-! # A store is a map from names to byte strings

Whatever is put into a store, taken from it and removed, under ordinary names, is
answered as a map from names to byte strings answers it: an object appears whole or
not at all, and nothing that is done under one name shows under another. Blanks at
the ends of a name say nothing, so names that differ in them alone mean one object.
-/

namespace Strongroom

/-- What is asked of a store. -/
inductive BlobRequest where
  | put (name : String) (source : List (Except String Bytes))
  | get (name : String)
  | remove (name : String)

inductive BlobAnswer where
  | stored (result : Except Error Nat)
  /-- Whether an object was found, and what was read of it. -/
  | given (result : Except Error (Except String Bytes))
  | removed (result : Except Error Unit)

def sourceBytes (source : List (Except String Bytes)) : Bytes :=
  (source.filterMap Except.toOption).flatten

/-- The first error among the items of a source. -/
def sourceError? (source : List (Except String Bytes)) : Option String :=
  source.findSome? fun
    | .error text => some text
    | .ok _ => none

abbrev Objects := String → Option Bytes

namespace BlobStore

/-- What a store holds under a key. -/
def object? (store : BlobStore) (tree : FileTree) (key : String) : Option Bytes :=
  match store with
  | .memory objects => objects.lookup key
  | .folder root =>
    match tree.at? (filePath root key) with
    | some (_, .file pieces) => some (FileNode.file pieces).content
    | _ => none

/-- A store in memory is always ready; the other kind needs its folder, with no folder
    in it under an ordinary name. -/
def Ready (tree : FileTree) : BlobStore → Prop
  | .memory _ => True
  | .folder root => ∃ place, Houses root place tree

def get (store : BlobStore) (name : String) : Script (Except Error (Except String Bytes)) := do
  match ← store.find name with
  | .error e => return .error e
  | .ok () => return .ok (← store.read name)

end BlobStore

namespace BlobRequest

def name : BlobRequest → String
  | .put name _ | .get name | .remove name => name

def run (store : BlobStore) : BlobRequest → Script (BlobAnswer × BlobStore)
  | .put name source => do
    let (result, store) ← store.put name source
    return (.stored result, store)
  | .get name => return (.given (← store.get name), store)
  | .remove name => do
    let (result, store) ← store.remove name
    return (.removed result, store)

/-- The answer of a map, and what it is then. -/
def answer (objects : Objects) : BlobRequest → BlobAnswer × Objects
  | .put name source =>
    match sourceError? source with
    | none =>
      (.stored (.ok (sourceBytes source).length),
        Function.update objects (Text.trim name) (some (sourceBytes source)))
    | some text =>
      (.stored (.error (BlobStore.sourceFailed name text)),
        Function.update objects (Text.trim name) none)
  | .get name =>
    (.given
      (match objects (Text.trim name) with
        | some data => .ok (.ok data)
        | none => .error (.notFound s!"blob {name}")), objects)
  | .remove name => (.removed (.ok ()), Function.update objects (Text.trim name) none)

end BlobRequest

open BlobStore

variable {store store' store'' : BlobStore} {tree tree' tree'' : FileTree} {root : Path}
  {place : Location} {name key : String} {value value' : Option Bytes} {objects : Objects}
  {draft : BlobDraft} {data piece : Bytes}

/-- One object is set, or taken away, and the others stay. -/
structure Sets (key : String) (value : Option Bytes) (store : BlobStore) (tree : FileTree)
    (store' : BlobStore) (tree' : FileTree) : Prop where
  ready : store'.Ready tree'
  here : store'.object? tree' key = value
  others : ∀ other, Path.IsComponent other → other ≠ key →
    store'.object? tree' other = store.object? tree other

theorem Sets.trans (first : Sets key value store tree store' tree')
    (second : Sets key value' store' tree' store'' tree'') :
    Sets key value' store tree store'' tree'' where
  ready := second.ready
  here := second.here
  others other component different :=
    (second.others other component different).trans (first.others other component different)

namespace Houses

variable (houses : Houses root place tree) (component : Path.IsComponent key)

include houses component

theorem object?_eq : (BlobStore.folder root).object? tree key =
    match tree.find? (place ++ [key]) with
    | some (.file pieces) => some (FileNode.file pieces).content
    | _ => none := by
  rw [object?, houses.at?_eq component]
  cases tree.find? (place ++ [key]) with
  | none => rfl
  | some node =>
      cases node with
      | file | folder => rfl

theorem object?_cases :
    (tree.find? (place ++ [key]) = none ∧ (BlobStore.folder root).object? tree key = none) ∨
      ∃ pieces, tree.find? (place ++ [key]) = some (.file pieces) ∧
        (BlobStore.folder root).object? tree key = some (FileNode.file pieces).content := by
  rw [houses.object?_eq component]
  cases found : tree.find? (place ++ [key]) with
  | none => exact .inl ⟨rfl, rfl⟩
  | some node =>
      cases node with
      | folder => exact absurd found (houses.files key component)
      | file pieces => exact .inr ⟨pieces, rfl, rfl⟩

theorem sets_insert (pieces : List Bytes) :
    Sets key (some (FileNode.file pieces).content) (.folder root) tree (.folder root)
      (tree.insert (place ++ [key]) (.file pieces)) where
  ready := ⟨place, houses.insert component pieces⟩
  here := by
    rw [(houses.insert component pieces).object?_eq component,
      FileTree.find?_insert _ _ (FileTree.proper_of_find? (houses.files key component)),
      if_pos rfl]
  others other component' different := by
    have apart : place ++ [other] ≠ place ++ [key] := by simpa using different
    rw [(houses.insert component pieces).object?_eq component', houses.object?_eq component',
      FileTree.find?_insert _ _ (FileTree.proper_of_find? (houses.files key component)),
      if_neg apart]

theorem sets_erase :
    Sets key none (.folder root) tree (.folder root) (tree.erase (place ++ [key])) where
  ready := ⟨place, houses.erase component⟩
  here := by
    rw [(houses.erase component).object?_eq component,
      FileTree.find?_erase _ (FileTree.proper_of_find? (houses.files key component)), if_pos rfl]
  others other component' different := by
    have apart : place ++ [other] ≠ place ++ [key] := by simpa using different
    rw [(houses.erase component).object?_eq component', houses.object?_eq component',
      FileTree.find?_erase _ (FileTree.proper_of_find? (houses.files key component)),
      if_neg apart]

end Houses

theorem storedName_of_component (component : Path.IsComponent (Text.trim name)) :
    storedName name = Text.trim name :=
  storedName_of_plain component.some component.plain

theorem runs_remove (ready : store.Ready tree) (component : Path.IsComponent (Text.trim name)) :
    ∃ store' tree', Script.Runs FileTree.disk tree (store.remove name) (.ok (), store') tree' ∧
      Sets (Text.trim name) none store tree store' tree' := by
  have stored := storedName_of_component component
  cases store with
  | memory objects =>
      refine ⟨_, tree, .done, trivial, ?_, ?_⟩
      · rw [stored, object?]
        exact (lookup_filter_ne objects _ _).trans (if_pos rfl)
      · intro other _ different
        rw [stored, object?]
        exact (lookup_filter_ne objects _ _).trans (if_neg different)
  | folder root =>
      obtain ⟨place, houses⟩ := ready
      rcases houses.object?_cases component with ⟨nothing, gone⟩ | ⟨pieces, there, _⟩
      · refine ⟨.folder root, tree, ?_, ⟨place, houses⟩, gone, fun _ _ _ => rfl⟩
        have looked := houses.perform_look component
        rw [nothing] at looked
        rw [remove, stored]
        exact .step looked (.step (houses.perform_removeFile_of_none component nothing) .done)
      · refine ⟨.folder root, tree.erase _, ?_, houses.sets_erase component⟩
        have looked := houses.perform_look component
        rw [there] at looked
        rw [remove, stored]
        exact .step looked (.step (houses.perform_removeFile component there) .done)

/-- An object that is being written: what has come of it is held by the draft, or
    stands in its file but for the last piece. -/
structure Writing (name : String) (store : BlobStore) (tree : FileTree) (data : Bytes)
    (tree' : FileTree) (draft : BlobDraft) : Prop where
  named : draft.name = name
  keyed : draft.key = Text.trim name
  count : draft.taken = data.length
  written : match store with
    | .memory _ => tree' = tree ∧ draft.held.reverse.flatten = data
    | .folder _ => ∃ written, Sets (Text.trim name) (some written) store tree store tree' ∧
        written ++ draft.held.reverse.flatten = data

theorem runs_begin (ready : store.Ready tree) (component : Path.IsComponent (Text.trim name)) :
    ∃ draft tree', Script.Runs FileTree.disk tree (store.begin name) (.ok draft) tree' ∧
      Writing name store tree [] tree' draft := by
  have stored := storedName_of_component component
  have file := meansFolder_of_plain component.plain
  cases store with
  | memory objects =>
      refine ⟨{ name, key := Text.trim name, taken := 0, held := [] }, tree, ?_,
        rfl, rfl, rfl, rfl, rfl⟩
      simp only [begin, stored, file, Bool.false_eq_true, if_false]
      exact .done
  | folder root =>
      obtain ⟨place, houses⟩ := ready
      have sets : Sets (Text.trim name) (some []) (.folder root) tree (.folder root) _ :=
        houses.sets_insert component []
      refine ⟨{ name, key := Text.trim name, taken := 0, held := [] }, _, ?_,
        ⟨rfl, rfl, rfl, [], sets, rfl⟩⟩
      rw [begin, stored]
      simp only [file, Bool.false_eq_true, if_false]
      have still (s : Step) (same : (tree.perform s).2 = tree) :
          FileTree.disk.replies tree s (tree.perform s).1 tree := Prod.ext rfl same
      apply Script.runs_bind.2 ⟨_, _, houses.runs_makeFolders component still, ?_⟩
      exact .step (houses.perform_truncate component) .done

theorem Writing.runs_writeHeld (writing : Writing name (.folder root) tree data tree' draft)
    (component : Path.IsComponent (Text.trim name)) :
    ∃ tree'', Script.Runs FileTree.disk tree' (writeHeld root draft) (.ok ()) tree'' ∧
      Sets (Text.trim name) (some data) (.folder root) tree (.folder root) tree'' := by
  obtain ⟨written, sets, whole⟩ := writing.written
  rw [writeHeld, writing.keyed]
  cases held : draft.held with
  | nil =>
      rw [held] at whole
      have same : written = data := by simpa using whole
      exact ⟨tree', .done, same ▸ sets⟩
  | cons piece pieces =>
      obtain ⟨place, houses⟩ := sets.ready
      have here := sets.here
      rcases houses.object?_cases component with ⟨_, gone⟩ | ⟨before, there, content⟩
      · rw [gone] at here
        cases here
      · rw [content] at here
        let more := (piece :: pieces).reverse.flatten
        have same : (FileNode.file (more :: before)).content = data := by
          rw [held, ← Option.some.inj here] at whole
          simpa [more, FileNode.content] using whole
        refine ⟨_, .step (houses.perform_append component there more) .done, ?_⟩
        rw [← same]
        exact sets.trans (houses.sets_insert component (more :: before))

theorem Writing.runs_take (writing : Writing name store tree data tree' draft)
    (component : Path.IsComponent (Text.trim name)) (piece : Bytes) :
    ∃ draft' tree'', Script.Runs FileTree.disk tree' (store.take draft piece) (.ok draft') tree'' ∧
      Writing name store tree (data ++ piece) tree'' draft' := by
  have count : draft.taken + piece.length = (data ++ piece).length := by
    rw [writing.count, List.length_append]
  cases store with
  | memory objects =>
      obtain ⟨rfl, held⟩ := writing.written
      refine ⟨_, tree', .done, writing.named, writing.keyed, count, rfl, ?_⟩
      rw [List.reverse_cons, List.flatten_append, held, List.flatten_singleton]
  | folder root =>
      obtain ⟨tree'', wrote, sets⟩ := writing.runs_writeHeld component
      refine ⟨_, tree'', Script.runs_bind.2 ⟨_, _, wrote, .done⟩, writing.named, writing.keyed,
        count, data, sets, ?_⟩
      rw [List.reverse_singleton, List.flatten_singleton]

theorem Writing.runs_close (writing : Writing name store tree data tree' draft)
    (component : Path.IsComponent (Text.trim name)) :
    ∃ store' tree'', Script.Runs FileTree.disk tree' (store.close draft)
        (.ok data.length, store') tree'' ∧
      Sets (Text.trim name) (some data) store tree store' tree'' := by
  rw [← writing.count]
  cases store with
  | memory objects =>
      obtain ⟨rfl, held⟩ := writing.written
      refine ⟨_, tree', .done, trivial, ?_, ?_⟩
      · rw [writing.keyed, object?, List.lookup_cons_self, held]
      · intro other _ different
        have skipped : (other == Text.trim name) = false := beq_eq_false_iff_ne.2 different
        rw [writing.keyed, object?, List.lookup_cons, skipped]
        exact (lookup_filter_ne objects _ _).trans (if_neg different)
  | folder root =>
      obtain ⟨tree'', wrote, sets⟩ := writing.runs_writeHeld component
      exact ⟨.folder root, tree'', Script.runs_bind.2 ⟨_, _, wrote, .done⟩, sets⟩

theorem Writing.runs_discard (writing : Writing name store tree data tree' draft)
    (ready : store.Ready tree) (component : Path.IsComponent (Text.trim name)) :
    ∃ store' tree'', Script.Runs FileTree.disk tree' (store.discard draft) store' tree'' ∧
      Sets (Text.trim name) none store tree store' tree'' := by
  have began : ∃ value, Sets (Text.trim name) value store tree store tree' := by
    cases store with
    | memory objects => exact ⟨_, ready, rfl, fun _ _ _ => rfl⟩
    | folder root =>
        obtain ⟨written, sets, _⟩ := writing.written
        exact ⟨_, sets⟩
  obtain ⟨value, sets⟩ := began
  obtain ⟨store', tree'', removed, gone⟩ := runs_remove sets.ready component
  rw [← writing.named] at removed
  exact ⟨store', tree'', BlobStore.runs_discard.2 ⟨_, removed⟩, sets.trans gone⟩

/-- A source is taken to its end, or up to its first error. -/
theorem Writing.runs_fill (writing : Writing name store tree data tree' draft)
    (ready : store.Ready tree) (component : Path.IsComponent (Text.trim name))
    (source : List (Except String Bytes)) :
    ∃ result store' tree'', Script.Runs FileTree.disk tree' (store.fill draft source)
        (result, store') tree'' ∧
      match sourceError? source with
      | none => result = .ok (data ++ sourceBytes source).length ∧
          Sets (Text.trim name) (some (data ++ sourceBytes source)) store tree store' tree''
      | some text => result = .error (sourceFailed name text) ∧
          Sets (Text.trim name) none store tree store' tree'' := by
  induction source generalizing data tree' draft with
  | nil =>
      obtain ⟨store', tree'', runs, sets⟩ := writing.runs_close component
      have whole : data ++ sourceBytes [] = data := List.append_nil data
      rw [whole]
      exact ⟨_, store', tree'', runs, rfl, sets⟩
  | cons item rest ih =>
      cases item with
      | error text =>
          obtain ⟨store', tree'', runs, sets⟩ := writing.runs_discard ready component
          refine ⟨_, store', tree'', ?_, rfl, sets⟩
          rw [← writing.named]
          exact Script.runs_bind.2 ⟨_, _, runs, .done⟩
      | ok piece =>
          obtain ⟨draft', tree₁, took, writing'⟩ := writing.runs_take component piece
          obtain ⟨result, store', tree'', runs, outcome⟩ := ih writing'
          have bytes : data ++ piece ++ sourceBytes rest =
              data ++ sourceBytes (.ok piece :: rest) :=
            List.append_assoc data piece (sourceBytes rest)
          rw [bytes] at outcome
          exact ⟨result, store', tree'', Script.runs_bind.2 ⟨_, _, took, runs⟩, outcome⟩

theorem runs_get (ready : store.Ready tree) (component : Path.IsComponent (Text.trim name)) :
    Script.Runs FileTree.disk tree (store.get name)
      (match store.object? tree (Text.trim name) with
        | some data => .ok (.ok data)
        | none => .error (.notFound s!"blob {name}")) tree := by
  have stored := storedName_of_component component
  have file := meansFolder_of_plain component.plain
  cases store with
  | memory objects =>
      have slash : (Text.trim name == "/") = false := by
        rw [beq_eq_false_iff_ne]
        intro same
        exact component.plain (same ▸ by decide)
      have nobody : (objects.any fun _ => false) = false := List.any_eq_false.2 (by simp)
      rw [BlobStore.get, find, stored]
      cases held : objects.lookup (Text.trim name) with
      | none =>
          simp only [object?, held, Option.isSome_none, Bool.false_eq_true, if_false, slash, file,
            Bool.false_and, nobody, Bool.or_false]
          exact .done
      | some data =>
          simp only [object?, held, Option.isSome_some, if_true]
          apply Script.runs_bind.2 ⟨_, _, .done, ?_⟩
          rw [BlobStore.read, stored]
          simp only [held]
          exact .done
  | folder root =>
      obtain ⟨place, houses⟩ := ready
      have looked := houses.perform_openFile component
      rw [BlobStore.get, find, stored]
      rcases houses.object?_cases component with ⟨nothing, gone⟩ | ⟨pieces, there, content⟩
      · rw [nothing] at looked
        rw [gone]
        exact .step looked .done
      · rw [there] at looked
        rw [content]
        apply Script.Runs.step looked
        simp only [file, Bool.false_eq_true, if_false]
        apply Script.runs_bind.2 ⟨_, _, .done, ?_⟩
        rw [BlobStore.read, stored]
        exact .step (houses.perform_read component there) .done

/-- A store holds what a map does, under every ordinary name. -/
structure IsMap (objects : Objects) (store : BlobStore) (tree : FileTree) : Prop where
  ready : store.Ready tree
  same : ∀ key, Path.IsComponent key → store.object? tree key = objects key

theorem IsMap.sets (isMap : IsMap objects store tree)
    (sets : Sets key value store tree store' tree') :
    IsMap (Function.update objects key value) store' tree' where
  ready := sets.ready
  same other component := by
    by_cases here : other = key
    · subst here
      rw [sets.here, Function.update_self]
    · rw [sets.others other component here, Function.update_of_ne here, isMap.same other component]

namespace BlobRequest

variable {request : BlobRequest} {requests : List BlobRequest}

/-- One request is answered as by a map. -/
theorem runs_run (isMap : IsMap objects store tree)
    (component : Path.IsComponent (Text.trim request.name)) :
    ∃ store' tree', Script.Runs FileTree.disk tree (request.run store)
        ((request.answer objects).1, store') tree' ∧
      IsMap (request.answer objects).2 store' tree' := by
  have ready := isMap.ready
  cases request with
  | put name source =>
      obtain ⟨draft, tree₁, began, writing⟩ := runs_begin ready component
      obtain ⟨result, store', tree', filled, outcome⟩ := writing.runs_fill ready component source
      have runs : Script.Runs FileTree.disk tree ((put name source).run store)
          (.stored result, store') tree' :=
        Script.runs_bind.2 ⟨_, _, Script.runs_bind.2 ⟨_, _, began, filled⟩, .done⟩
      rw [answer]
      cases given : sourceError? source with
      | none | some =>
          rw [given] at outcome
          obtain ⟨rfl, sets⟩ := outcome
          dsimp only
          exact ⟨store', tree', runs, isMap.sets sets⟩
  | get name =>
      have component : Path.IsComponent (Text.trim name) := component
      have gets := runs_get ready component
      rw [isMap.same _ component] at gets
      exact ⟨store, tree, Script.runs_bind.2 ⟨_, _, gets, .done⟩, isMap⟩
  | remove name =>
      obtain ⟨store', tree', removed, sets⟩ := runs_remove ready component
      rw [answer]
      exact ⟨store', tree', Script.runs_bind.2 ⟨_, _, removed, .done⟩, isMap.sets sets⟩

def runAll : List BlobRequest → BlobStore → Script (List BlobAnswer × BlobStore)
  | [], store => return ([], store)
  | request :: later, store => do
    let (answer, store) ← request.run store
    let (answers, store) ← runAll later store
    return (answer :: answers, store)

/-- The answers of a map to requests, and what it is in the end. -/
def answerAll : List BlobRequest → Objects → List BlobAnswer × Objects
  | [], objects => ([], objects)
  | request :: later, objects =>
    let (answer, objects) := request.answer objects
    let (answers, objects) := answerAll later objects
    (answer :: answers, objects)

theorem runs_runAll (isMap : IsMap objects store tree)
    (components : ∀ request ∈ requests, Path.IsComponent (Text.trim request.name)) :
    ∃ store' tree', Script.Runs FileTree.disk tree (runAll requests store)
        ((answerAll requests objects).1, store') tree' ∧
      IsMap (answerAll requests objects).2 store' tree' := by
  induction requests generalizing objects store tree with
  | nil => exact ⟨store, tree, .done, isMap⟩
  | cons request later ih =>
      obtain ⟨here, rest⟩ := List.forall_mem_cons.1 components
      obtain ⟨store₁, tree₁, first, isMap₁⟩ := runs_run isMap here
      obtain ⟨store', tree', others, isMap'⟩ := ih isMap₁ rest
      refine ⟨store', tree', ?_, isMap'⟩
      exact Script.runs_bind.2 ⟨_, _, first, Script.runs_bind.2 ⟨_, _, others, .done⟩⟩

/-- A store answers any requests as a map from names to byte strings does, beginning
    with what it holds, and in the end holds what the map does: what is put is there
    whole, with its size as the answer, or its source breaks and nothing is there, not
    even what was there before; what is removed is gone, and removing does not fail; and
    under another name everything stays as it is. This is so in memory and in a folder,
    for all names that are ordinary names of a path when the blanks at their ends are
    dropped; two such names mean one object if they differ in these blanks alone. -/
theorem store_is_map (ready : store.Ready tree)
    (components : ∀ request ∈ requests, Path.IsComponent (Text.trim request.name)) :
    ∃ store' tree',
      (runAll requests store).run tree =
          (((answerAll requests (store.object? tree)).1, store'), tree') ∧
        store'.Ready tree' ∧
          ∀ key, Path.IsComponent key →
            store'.object? tree' key = (answerAll requests (store.object? tree)).2 key := by
  have isMap : IsMap (store.object? tree) store tree := ⟨ready, fun _ _ => rfl⟩
  obtain ⟨store', tree', runs, isMap'⟩ := runs_runAll isMap components
  exact ⟨store', tree', Script.runs_tree.1 runs, isMap'.ready, isMap'.same⟩

/-- In a folder: two objects, one of which is written anew from a source that breaks. -/
theorem folder_is_map_of_two_names :
    let tree : FileTree := { entries := [(["blobs"], .folder)] }
    let requests : List BlobRequest :=
      [.put "a" [.ok [1, 2], .ok [3]], .put "b" [.ok [4]], .get "a",
        .put "a" [.ok [5], .error "gone"], .get "a", .get "b"]
    (BlobStore.folder ⟨"/blobs"⟩).Ready tree ∧
      (∀ request ∈ requests, Path.IsComponent (Text.trim request.name)) ∧
        ∃ store' tree', (runAll requests (.folder ⟨"/blobs"⟩)).run tree =
          (([.stored (.ok 3), .stored (.ok 1), .given (.ok (.ok [1, 2, 3])),
            .stored (.error (.storage "blob a: source failed: gone")),
            .given (.error (.notFound "blob a")), .given (.ok (.ok [4]))], store'), tree') := by
  intro tree requests
  have houses : Houses ⟨"/blobs"⟩ ["blobs"] tree := by
    refine ⟨rfl, ?_⟩
    intro key _
    simp [tree, FileTree.find?, List.lookup_cons]
  have ready : (BlobStore.folder ⟨"/blobs"⟩).Ready tree := ⟨["blobs"], houses⟩
  have components : ∀ request ∈ requests, Path.IsComponent (Text.trim request.name) := by
    have a : Path.IsComponent (Text.trim "a") := by constructor <;> decide
    have b : Path.IsComponent (Text.trim "b") := by constructor <;> decide
    simp [requests, name, a, b]
  obtain ⟨store', tree', ran, _⟩ := store_is_map ready components
  exact ⟨ready, components, store', tree', ran⟩

/-- Two ordinary names that differ in a blank mean one object: what is put under one of
    them is found under the other one. -/
theorem blank_names_one_object :
    "x" ≠ " x" ∧ Path.IsComponent "x" ∧ Path.IsComponent " x" ∧
      ((runAll [.put "x" [.ok [1]], .put " x" [.ok [2]], .get "x"] (.memory [])).run {}).1.1 =
        [.stored (.ok 1), .stored (.ok 1), .given (.ok (.ok [2]))] := by
  refine ⟨by decide, ?_, ?_, rfl⟩
  · constructor <;> decide
  · constructor <;> decide

end BlobRequest

end Strongroom
