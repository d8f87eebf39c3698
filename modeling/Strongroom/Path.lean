/-! # Paths

A path is a text whose names are separated by slashes. Empty names and single
dots say nothing; two dots lead back. These functions look at the text alone.
-/

namespace Strongroom

structure Path where
  text : String
  deriving Repr, DecidableEq, Inhabited

namespace Path

def split : List Char → List (List Char)
  | [] => [[]]
  | c :: rest =>
    if c = '/' then [] :: split rest
    else
      match split rest with
      | [] => [[c]]
      | name :: names => (c :: name) :: names

/-- The names of a path, without those that say nothing. -/
def segments (path : Path) : List String :=
  ((split path.text.toList).filter fun name => name ≠ [] ∧ name ≠ ['.']).map String.ofList

def isAbsolute (path : Path) : Bool :=
  path.text.toList.head? == some '/'

/-- Whether the last name says nothing, so that the path can only mean a folder. -/
def meansFolder (path : Path) : Bool :=
  match (split path.text.toList).getLast? with
  | some name => name == [] || name == ['.']
  | none => false

/-- Drop names that say nothing from the end of a reversed path, but not the
    root. -/
def trimReversed : List Char → List Char
  | ['/'] => ['/']
  | '/' :: rest => trimReversed rest
  | '.' :: '/' :: rest => trimReversed ('/' :: rest)
  | path => path

/-- The text without names that say nothing at its end. -/
def trimmed (path : Path) : List Char :=
  (trimReversed path.text.toList.reverse).reverse

/-- The last name that says something, unless it leads back. -/
def fileName? (path : Path) : Option String :=
  match (path.trimmed.reverse.takeWhile (· ≠ '/')).reverse with
  | [] => none
  | ['.'] => none
  | ['.', '.'] => none
  | name => some (String.ofList name)

/-- The path without its last name; nothing for the root and the empty path. -/
def parent? (path : Path) : Option Path :=
  match path.trimmed with
  | [] => none
  | ['/'] => none
  | text => some ⟨String.ofList (trimReversed (text.reverse.dropWhile (· ≠ '/'))).reverse⟩

/-- The path that leads on from `base`; an absolute one starts anew. -/
def join (base next : Path) : Path :=
  if next.isAbsolute then next
  else if base.text.isEmpty || base.text.toList.getLast? == some '/' then
    ⟨base.text ++ next.text⟩
  else ⟨base.text ++ "/" ++ next.text⟩

/-- The path with another last name. -/
def withFileName (path : Path) (name : String) : Path :=
  match path.fileName? with
  | some _ => join (path.parent?.getD ⟨""⟩) ⟨name⟩
  | none => join path ⟨name⟩

/-- How many characters of a name come before the dot of its extension. A dot
    in front begins none. -/
def stemLength (name : List Char) : Nat :=
  match (name.reverse.dropWhile (· ≠ '.')).drop 1 with
  | [] => name.length
  | stem => stem.length

/-- The path whose last name has another extension. -/
def withExtension (path : Path) (extension : String) : Path :=
  match path.fileName? with
  | none => path
  | some name =>
    let text := path.trimmed
    let size := name.toList.length
    let stem := String.ofList (text.take (text.length - size + stemLength name.toList))
    ⟨stem ++ "." ++ extension⟩

/-- Replace a tilde in front by the home folder. -/
def expandTilde (home : String) (path : Path) : Path :=
  match path.text.toList with
  | '~' :: '/' :: rest => join ⟨home⟩ ⟨String.ofList rest⟩
  | _ => path

end Path

end Strongroom
