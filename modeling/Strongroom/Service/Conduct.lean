import Strongroom.Error
import Strongroom.FileRecord

/-! # Conduct of the stores

A blob store may do worse than store what it is given: it may fail after some
records, stop early, never finish or break down. A catalog may refuse a change.
The service has to live with all of it, so how the stores behind it conduct
themselves is part of its state, with a journal of the calls made to them.
-/

namespace Strongroom

/-- What a blob store does with an object it is given. -/
inductive PutConduct where
  | store
  /-- It stores the object once it is let through the gate. -/
  | gate
  /-- It fails after a number of records. -/
  | fail (after : Nat) (e : Error)
  /-- It claims success after a number of records, having stored nothing. -/
  | early (after : Nat)
  | stall (after : Nat)
  | panic (after : Nat)
  /-- It stores a number of records, and then its source breaks. -/
  | cut (after : Nat) (text : String)
  deriving Repr, DecidableEq

structure Conduct where
  put : PutConduct := .store
  remove : Option Error := none
  insert : Option Error := none
  /-- The failure of every removal of a file record. -/
  delete : Option Error := none
  /-- The age that the catalog gives to new records, in place of their own. -/
  stamp : Option Nat := none
  /-- How many may still pass the gate. -/
  permits : Nat := 0
  /-- Who waits at the gate, in the order of arrival. -/
  waiting : List FileId := []

namespace Conduct

/-- Whether an upload at the gate may pass: it is the first, and there is a
    permit. -/
def mayPass (conduct : Conduct) (id : FileId) : Bool :=
  0 < conduct.permits && conduct.waiting.head? == some id

def arrive (conduct : Conduct) (id : FileId) : Conduct :=
  { conduct with waiting := conduct.waiting ++ [id] }

def pass (conduct : Conduct) : Conduct :=
  { conduct with permits := conduct.permits - 1, waiting := conduct.waiting.drop 1 }

def leave (conduct : Conduct) (id : FileId) : Conduct :=
  { conduct with waiting := conduct.waiting.filter (· ≠ id) }

/-- Let one more through. -/
def release (conduct : Conduct) : Conduct :=
  { conduct with permits := conduct.permits + 1 }

end Conduct

/-- What was asked of a store, or what became of it. -/
inductive Verb where
  | put
  | putFailed
  | putEarly
  | putStalled
  | putPanicked
  | putCut
  | get
  | remove
  | insert
  | delete
  deriving Repr, DecidableEq

def Verb.name : Verb → String
  | .put => "put"
  | .putFailed => "put-fail"
  | .putEarly => "put-early"
  | .putStalled => "put-stall"
  | .putPanicked => "put-panic"
  | .putCut => "put-cut"
  | .get => "get"
  | .remove => "remove"
  | .insert => "insert"
  | .delete => "delete"

/-- One entry of the journal: the name is that of a blob, or the identifier of
    a file. -/
structure Event where
  verb : Verb
  name : String
  deriving Repr, DecidableEq

end Strongroom
