import Strongroom.Proofs.Blob.Shelf
import Strongroom.Proofs.Disk.Places

/-! # The store in memory conforms

Objects in memory are looked up in a list that holds a key once. No step of a
disk has anything to do with them.
-/

namespace Strongroom

variable {δ : Type}

theorem Script.asks_of_forall {α : Type} {kind : Step → Prop} (all : ∀ s, kind s)
    (script : Script α) : script.Asks kind := by
  induction script with
  | done value => exact trivial
  | step s next ih => exact ⟨all s, ih⟩

namespace BlobStore

def shown : BlobStore → String → Option Bytes
  | .memory objects, name => objects.lookup (storedName name)
  | .folder _, _ => none

theorem eq_memory {store : BlobStore} (memory : store.root? = none) :
    ∃ objects, store = .memory objects := by
  cases store with
  | memory objects => exact ⟨objects, rfl⟩
  | folder root => cases memory

theorem shown_of_handles {disk : Disk δ} {store store' : BlobStore} {name other : String}
    {d d' : δ} (memory : store.root? = none) (given : IsBlobName name) (asked : IsBlobName other)
    (different : name ≠ other) (handles : store.Handles disk name d store' d') :
    store'.shown other = store.shown other := by
  obtain ⟨objects, rfl⟩ := eq_memory memory
  obtain ⟨id, rfl⟩ := given
  obtain ⟨id', rfl⟩ := asked
  cases handles with
  | begin => rfl
  | take => rfl
  | close of runs =>
      obtain ⟨⟨⟩, _⟩ := Script.runs_pure.1 runs
      have key := of.2
      rw [storedName_toText] at key
      have skipped : (id'.toText == id.toText) = false :=
        beq_eq_false_iff_ne.2 (Ne.symm different)
      rw [shown, shown, storedName_toText, key, List.lookup_cons, skipped]
      exact (lookup_filter_ne objects _ _).trans (if_neg (Ne.symm different))
  | remove runs =>
      obtain ⟨⟨⟩, _⟩ := Script.runs_pure.1 runs
      rw [shown, shown, storedName_toText, storedName_toText]
      exact (lookup_filter_ne objects _ _).trans (if_neg (Ne.symm different))

end BlobStore

open BlobStore in
/-- The store in memory, on any disk and with a catalog of any kind. -/
def ConformingShelf.memory (disk : Disk δ) (path : Option Path) :
    ConformingShelf disk none path where
  object store _ name := store.shown name
  elsewhere memory given asked different handles :=
    shown_of_handles memory given asked different handles
  looking _ _ _ := rfl
  flushing _ := Script.asks_of_forall (fun _ _ _ _ _ _ _ _ _ => rfl) _
  removed memory given runs _ := by
    obtain ⟨objects, rfl⟩ := eq_memory memory
    obtain ⟨id, rfl⟩ := given
    obtain ⟨⟨⟩, _⟩ := Script.runs_pure.1 runs
    rw [shown, storedName_toText]
    exact (lookup_filter_ne objects _ _).trans (if_pos rfl)
  Holds draft _ bytes := draft.held.reverse.flatten = bytes ∧ draft.taken = bytes.length
  begun memory given runs := by
    obtain ⟨objects, rfl⟩ := eq_memory memory
    obtain ⟨id, rfl⟩ := given
    simp only [BlobStore.begin, storedName_toText, meansFolder_toText, Bool.false_eq_true, if_false,
      Script.runs_pure, Except.ok.injEq] at runs
    rw [runs.1]
    exact ⟨rfl, rfl⟩
  taken memory _ _ holds runs := by
    obtain ⟨objects, rfl⟩ := eq_memory memory
    obtain ⟨⟨⟩, _⟩ := Script.runs_pure.1 runs
    constructor
    · simp [holds.1]
    · simp [holds.2]
  closed memory given of holds runs := by
    obtain ⟨objects, rfl⟩ := eq_memory memory
    obtain ⟨⟨⟩, _⟩ := Script.runs_pure.1 runs
    constructor
    · rw [shown, of.2, List.lookup_cons_self, holds.1]
    · exact holds.2
  found memory _ there runs := by
    obtain ⟨objects, rfl⟩ := eq_memory memory
    rw [shown] at there
    simp only [BlobStore.find, there, Option.isSome_some, if_true, Script.runs_pure] at runs
    exact runs.1
  given memory _ there runs := by
    obtain ⟨objects, rfl⟩ := eq_memory memory
    rw [shown] at there
    simp only [BlobStore.read, there, Script.runs_pure] at runs
    exact runs.1

open BlobStore in
/-- The store in memory tells what is not there. -/
def CandidShelf.memory (disk : Disk δ) (path : Option Path) : CandidShelf disk none path where
  toConformingShelf := ConformingShelf.memory disk path
  unfound memory given absent runs := by
    obtain ⟨objects, rfl⟩ := eq_memory memory
    obtain ⟨id, rfl⟩ := given
    have absent : objects.lookup id.toText = none := storedName_toText id ▸ absent
    have named : (id.toText == "/") = false := by
      rw [beq_eq_false_iff_ne]
      intro same
      have last := meansFolder_toText id
      rw [same] at last
      cases last
    have nobody : (objects.any fun _ => false) = false := List.any_eq_false.2 (by simp)
    simp only [BlobStore.find, storedName_toText, absent, Option.isSome_none, named,
      meansFolder_toText, Bool.false_and, nobody, Bool.false_or, Bool.false_eq_true, if_false,
      Script.runs_pure] at runs
    exact runs.1
  ungiven memory _ absent runs := by
    obtain ⟨objects, rfl⟩ := eq_memory memory
    have absent : objects.lookup (storedName _) = none := absent
    simp only [BlobStore.read, absent, Script.runs_pure] at runs
    exact runs.1

end Strongroom
