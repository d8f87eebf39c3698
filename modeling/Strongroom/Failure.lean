import Strongroom.Error

/-! # Failures with their causes

Where a command gives up it says what it was doing, and under that why, one
cause below the other.
-/

namespace Strongroom

/-- What failed, and the causes below it, outermost first. -/
structure Failure where
  head : String
  causes : List String
  deriving Repr, DecidableEq, Inhabited

namespace Failure

def ofError (e : Error) : Failure :=
  match e.chain with
  | head :: causes => ⟨head, causes⟩
  | [] => ⟨e.message, []⟩

/-- Say what was being done. -/
def within (doing : String) (failure : Failure) : Failure :=
  ⟨doing, failure.head :: failure.causes⟩

/-- All texts, outermost first. -/
def chain (failure : Failure) : List String :=
  failure.head :: failure.causes

/-- Indent the lines of a text after the first. -/
def indentRest (spaces : Nat) (text : String) : String :=
  String.intercalate ("\n" ++ String.ofList (List.replicate spaces ' ')) (text.splitOn "\n")

def numberField (n : Nat) : String :=
  let digits := toString n
  String.ofList (List.replicate (5 - digits.length) ' ') ++ digits

/-- The causes, each on lines of its own: a single one indented, several
    numbered from zero. -/
def causeLines : List String → String
  | [] => ""
  | [cause] => "\n\nCaused by:\n    " ++ indentRest 4 cause
  | causes =>
    "\n\nCaused by:" ++ String.join (causes.zipIdx.map fun (cause, n) =>
      "\n" ++ numberField n ++ ": " ++ indentRest 7 cause)

def report (failure : Failure) : String :=
  "Error: " ++ failure.head ++ causeLines failure.causes

end Failure

end Strongroom
