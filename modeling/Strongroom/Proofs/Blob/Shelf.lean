import Strongroom.Catalog.Basic
import Strongroom.Proofs.Blob.Names
import Strongroom.Proofs.Disk.Footprint

/-! # What a store shows

A store on a disk shows objects by their names. Whatever is done to one object
leaves the others alone, and so do look-ups and the flushes of a catalog. A
store that conforms also shows what it was given once an object is finished.
The store in memory conforms on every disk, and the one in a folder on a disk that
keeps the folder.
-/

namespace Strongroom

variable {δ : Type}

/-- Names that are given to blobs. -/
def IsBlobName (name : String) : Prop :=
  ∃ id : Uuid, name = id.toText

/-- A draft of the object with a name. -/
def BlobDraft.IsOf (draft : BlobDraft) (name : String) : Prop :=
  draft.name = name ∧ draft.key = BlobStore.storedName name

namespace BlobStore

/-- The folder of a store; memory has none. -/
def root? : BlobStore → Option Path
  | .memory _ => none
  | .folder root => some root

/-- One thing is done to the object with a name. -/
inductive Handles (disk : Disk δ) (name : String) : BlobStore → δ → BlobStore → δ → Prop where
  | begin {store : BlobStore} {d d' : δ} {result : Except Error BlobDraft} :
    Script.Runs disk d (store.begin name) result d' → Handles disk name store d store d'
  | take {store : BlobStore} {d d' : δ} {draft : BlobDraft} {piece : Bytes}
      {result : Except Error BlobDraft} :
    draft.IsOf name → Script.Runs disk d (store.take draft piece) result d' →
      Handles disk name store d store d'
  | close {store store' : BlobStore} {d d' : δ} {draft : BlobDraft} {result : Except Error Nat} :
    draft.IsOf name → Script.Runs disk d (store.close draft) (result, store') d' →
      Handles disk name store d store' d'
  | remove {store store' : BlobStore} {d d' : δ} {result : Except Error Unit} :
    Script.Runs disk d (store.remove name) (result, store') d' →
      Handles disk name store d store' d'

/-- Several things are done to the object with a name, one after the other. -/
inductive Reworks (disk : Disk δ) (name : String) : BlobStore → δ → BlobStore → δ → Prop where
  | nothing {store : BlobStore} {d : δ} : Reworks disk name store d store d
  | more {store store' store'' : BlobStore} {d d' d'' : δ} :
    Handles disk name store d store' d' → Reworks disk name store' d' store'' d'' →
      Reworks disk name store d store'' d''

theorem Handles.reworks {disk : Disk δ} {name : String} {store store' : BlobStore} {d d' : δ}
    (handles : Handles disk name store d store' d') : Reworks disk name store d store' d' :=
  .more handles .nothing

/-- An object is looked up or read. -/
inductive Looks (disk : Disk δ) (store : BlobStore) : δ → δ → Prop where
  | find {d d' : δ} {name : String} {result : Except Error Unit} :
    Script.Runs disk d (store.find name) result d' → Looks disk store d d'
  | read {d d' : δ} {name : String} {result : Except String Bytes} :
    Script.Runs disk d (store.read name) result d' → Looks disk store d d'

variable {disk : Disk δ} {store store' : BlobStore} {name : String} {draft : BlobDraft} {d d' : δ}

theorem root?_remove {result : Except Error Unit}
    (runs : Script.Runs disk d (store.remove name) (result, store') d') :
    store'.root? = store.root? := by
  cases store with
  | memory objects =>
      obtain ⟨⟨⟩, _⟩ := Script.runs_pure.1 runs
      rfl
  | folder root =>
      simp only [remove, Script.runs_bind] at runs
      obtain ⟨kind, d₁, _, rest⟩ := runs
      split at rest
      all_goals
        obtain ⟨reply, d₂, _, rest⟩ := Script.runs_bind.1 rest
        split at rest
        all_goals
          obtain ⟨⟨⟩, _⟩ := Script.runs_pure.1 rest
          rfl

theorem runs_discard :
    Script.Runs disk d (store.discard draft) store' d' ↔
      ∃ result, Script.Runs disk d (store.remove draft.name) (result, store') d' := by
  simp only [discard, Script.runs_bind, Script.runs_pure]
  constructor
  · rintro ⟨⟨result, _⟩, _, removed, rfl, rfl⟩
    exact ⟨result, removed⟩
  · rintro ⟨result, removed⟩
    exact ⟨(result, store'), d', removed, rfl, rfl⟩

theorem root?_close {result : Except Error Nat}
    (runs : Script.Runs disk d (store.close draft) (result, store') d') :
    store'.root? = store.root? := by
  cases store with
  | memory objects =>
      obtain ⟨⟨⟩, _⟩ := Script.runs_pure.1 runs
      rfl
  | folder root =>
      simp only [close, Script.runs_bind] at runs
      obtain ⟨written, d₁, _, rest⟩ := runs
      cases written with
      | ok =>
          obtain ⟨⟨⟩, _⟩ := Script.runs_pure.1 rest
          rfl
      | error fault =>
          simp only [Script.runs_bind, runs_discard, Script.runs_pure] at rest
          obtain ⟨_, _, ⟨_, removed⟩, ⟨⟩, _⟩ := rest
          exact root?_remove removed

theorem Handles.root? (handles : Handles disk name store d store' d') :
    store'.root? = store.root? := by
  cases handles with
  | begin => rfl
  | take => rfl
  | close _ runs => exact root?_close runs
  | remove runs => exact root?_remove runs

theorem Reworks.root? (reworks : Reworks disk name store d store' d') :
    store'.root? = store.root? := by
  induction reworks with
  | nothing => rfl
  | more handles _ ih => exact ih.trans handles.root?

theorem eq_of_begin (runs : Script.Runs disk d (store.begin name) (.ok draft) d') :
    draft = ⟨name, storedName name, 0, []⟩ := by
  simp only [begin] at runs
  split at runs
  · simp only [Script.runs_pure, reduceCtorEq, false_and] at runs
  · cases store with
    | memory objects =>
        obtain ⟨⟨⟩, _⟩ := Script.runs_pure.1 runs
        rfl
    | folder root =>
        simp only [Script.runs_bind] at runs
        obtain ⟨made, d₁, _, rest⟩ := runs
        cases made with
        | error fault => simp only [Script.runs_pure, reduceCtorEq, false_and] at rest
        | ok =>
            simp only [Script.runs_bind] at rest
            obtain ⟨emptied, d₂, _, rest⟩ := rest
            cases emptied with
            | error fault => simp only [Script.runs_pure, reduceCtorEq, false_and] at rest
            | ok =>
                obtain ⟨⟨⟩, _⟩ := Script.runs_pure.1 rest
                rfl

theorem isOf_begin (runs : Script.Runs disk d (store.begin name) (.ok draft) d') :
    draft.IsOf name := by
  simp only [eq_of_begin runs, BlobDraft.IsOf, and_self]

theorem same_of_take {next : BlobDraft} {piece : Bytes}
    (runs : Script.Runs disk d (store.take draft piece) (.ok next) d') :
    next.name = draft.name ∧ next.key = draft.key ∧
      next.taken = draft.taken + piece.length := by
  cases store with
  | memory objects =>
      obtain ⟨⟨⟩, _⟩ := Script.runs_pure.1 runs
      exact ⟨rfl, rfl, rfl⟩
  | folder root =>
      obtain ⟨written, d₁, _, rest⟩ := Script.runs_bind.1 runs
      cases written with
      | error fault => obtain ⟨⟨⟩, _⟩ := Script.runs_pure.1 rest
      | ok =>
          obtain ⟨⟨⟩, _⟩ := Script.runs_pure.1 rest
          exact ⟨rfl, rfl, rfl⟩

theorem isOf_take {next : BlobDraft} {piece : Bytes} (of : draft.IsOf name)
    (runs : Script.Runs disk d (store.take draft piece) (.ok next) d') : next.IsOf name :=
  have ⟨named, keyed, _⟩ := same_of_take runs
  ⟨named.trans of.1, keyed.trans of.2⟩

theorem size_of_close {size : Nat}
    (runs : Script.Runs disk d (store.close draft) (.ok size, store') d') :
    size = draft.taken := by
  cases store with
  | memory objects =>
      obtain ⟨⟨⟩, _⟩ := Script.runs_pure.1 runs
      rfl
  | folder root =>
      simp only [close, Script.runs_bind] at runs
      obtain ⟨written, d₁, _, rest⟩ := runs
      cases written with
      | ok =>
          obtain ⟨⟨⟩, _⟩ := Script.runs_pure.1 rest
          rfl
      | error fault =>
          obtain ⟨_, _, _, rest⟩ := Script.runs_bind.1 rest
          obtain ⟨⟨⟩, _⟩ := Script.runs_pure.1 rest

theorem asks_find (store : BlobStore) (name : String) :
    (store.find name).Asks fun s => s.targets = [] := by
  unfold find
  dsimp only
  generalize storedName name = key
  cases store with
  | memory objects =>
      dsimp only
      split
      · trivial
      · split
        all_goals trivial
  | folder root =>
      refine Script.Asks.bind ⟨rfl, fun _ => trivial⟩ fun reply => ?_
      split
      · trivial
      · trivial
      · split
        all_goals trivial

theorem asks_read (store : BlobStore) (name : String) :
    (store.read name).Asks fun s => s.targets = [] := by
  unfold read
  cases store with
  | memory objects =>
      dsimp only
      split
      all_goals trivial
  | folder root =>
      refine Script.Asks.bind ⟨rfl, fun _ => trivial⟩ fun reply => ?_
      cases reply with
      | error | ok => trivial

end BlobStore

/-- What the stores with one root show on a disk that also has the file of a
    catalog. -/
structure Shelf (disk : Disk δ) (root path : Option Path) where
  /-- The object under a name, if there is one. -/
  object : BlobStore → δ → String → Option Bytes
  /-- What is done to one object leaves the others alone. -/
  elsewhere : ∀ {store store' : BlobStore} {name other : String} {d d' : δ},
    store.root? = root → IsBlobName name → IsBlobName other → name ≠ other →
      store.Handles disk name d store' d' → object store' d' other = object store d other
  looking : ∀ {store : BlobStore} {other : String} {d d' : δ},
    store.root? = root → IsBlobName other → store.Looks disk d d' →
      object store d' other = object store d other
  /-- No step of a flush touches an object. -/
  flushing : ∀ {catalog : Catalog}, catalog.path? = path →
    catalog.flush.Asks fun s =>
      ∀ {store : BlobStore} {other : String} {d d' : δ} {reply : s.Reply},
        store.root? = root → IsBlobName other → disk.replies d s reply d' →
          object store d' other = object store d other
  /-- A removal that succeeds leaves nothing under the name, and one that fails
      makes nothing there. -/
  removed : ∀ {store store' : BlobStore} {name : String} {result : Except Error Unit} {d d' : δ},
    store.root? = root → IsBlobName name →
      Script.Runs disk d (store.remove name) (result, store') d' →
        result = .ok () ∨ object store d name = none → object store' d' name = none

theorem Shelf.aside {disk : Disk δ} {root path : Option Path} (shelf : Shelf disk root path)
    {store store' : BlobStore} {name other : String} {d d' : δ} (rooted : store.root? = root)
    (given : IsBlobName name) (asked : IsBlobName other) (different : name ≠ other)
    (reworks : store.Reworks disk name d store' d') :
    shelf.object store' d' other = shelf.object store d other := by
  induction reworks with
  | nothing => rfl
  | more handles _ ih =>
      rw [ih (handles.root?.trans rooted)]
      exact shelf.elsewhere rooted given asked different handles

/-- A store that conforms: what it finished is there, as it was given, and can
    be read. -/
structure ConformingShelf (disk : Disk δ) (root path : Option Path) extends
    Shelf disk root path where
  /-- A draft, with what stands under its name, holds some bytes. -/
  Holds : BlobDraft → Option Bytes → Bytes → Prop
  begun : ∀ {store : BlobStore} {name : String} {draft : BlobDraft} {d d' : δ},
    store.root? = root → IsBlobName name →
      Script.Runs disk d (store.begin name) (.ok draft) d' →
        Holds draft (object store d' name) []
  taken : ∀ {store : BlobStore} {name : String} {draft next : BlobDraft} {bytes piece : Bytes}
      {d d' : δ},
    store.root? = root → IsBlobName name → draft.IsOf name →
      Holds draft (object store d name) bytes →
        Script.Runs disk d (store.take draft piece) (.ok next) d' →
          Holds next (object store d' name) (bytes ++ piece)
  closed : ∀ {store store' : BlobStore} {name : String} {draft : BlobDraft} {bytes : Bytes}
      {size : Nat} {d d' : δ},
    store.root? = root → IsBlobName name → draft.IsOf name →
      Holds draft (object store d name) bytes →
        Script.Runs disk d (store.close draft) (.ok size, store') d' →
          object store' d' name = some bytes ∧ size = bytes.length
  found : ∀ {store : BlobStore} {name : String} {bytes : Bytes} {result : Except Error Unit}
      {d d' : δ},
    store.root? = root → IsBlobName name → object store d name = some bytes →
      Script.Runs disk d (store.find name) result d' → result = .ok ()
  given : ∀ {store : BlobStore} {name : String} {bytes : Bytes} {result : Except String Bytes}
      {d d' : δ},
    store.root? = root → IsBlobName name → object store d name = some bytes →
      Script.Runs disk d (store.read name) result d' → result = .ok bytes

/-- A store that conforms, and says so where nothing is. -/
structure CandidShelf (disk : Disk δ) (root path : Option Path) extends
    ConformingShelf disk root path where
  unfound : ∀ {store : BlobStore} {name : String} {result : Except Error Unit} {d d' : δ},
    store.root? = root → IsBlobName name → object store d name = none →
      Script.Runs disk d (store.find name) result d' →
        result = .error (.notFound s!"blob {name}")
  ungiven : ∀ {store : BlobStore} {name : String} {result : Except String Bytes} {d d' : δ},
    store.root? = root → IsBlobName name → object store d name = none →
      Script.Runs disk d (store.read name) result d' →
        result = .error s!"{BlobStore.faultName .notFound} (permanent) at read"

end Strongroom
