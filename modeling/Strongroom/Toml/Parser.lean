import Strongroom.Toml.Scalar
import Strongroom.Toml.Table

/-! # Reading TOML

A document is a sequence of lines: blank, a comment, a header, or a key with
its value. Headers and dotted keys build one table.
-/

namespace Strongroom.Toml

/-- Drop blanks, comments and line ends. Every line spends one unit of `fuel`. -/
def skipLines : (fuel : Nat) → List Char → List Char
  | 0, input => input
  | fuel + 1, input =>
    match newLine? (skipComment (skip input)) with
    | some rest => skipLines fuel rest
    | none => skipComment (skip input)

/-- The table in braces with the given dotted keys and values. -/
def inlineTable? (pairs : List (List String × Toml)) : Option Toml := do
  let entries ← pairs.foldlM (fun entries (key, value) =>
    match key.reverse with
    | name :: path => Entries.put path.reverse name value entries
    | [] => none) []
  return .inlineTable (finishEntries true entries)

mutual

/-- Read a value that stands inside `depth` others. Every call spends one unit
    of `fuel`. -/
def value? : (fuel : Nat) → (depth : Nat) → List Char → Option (Toml × List Char)
  | 0, _, _ => none
  | fuel + 1, depth, input =>
    match input with
    | '"' :: _ | '\'' :: _ =>
      (string? input).map fun (text, rest) => (.string (String.ofList text), rest)
    | '[' :: rest =>
      if depthLimit ≤ depth + 1 then none
      else (items? fuel (depth + 1) rest).map fun (items, rest) => (.array items, rest)
    | '\x7b' :: rest =>
      if depthLimit ≤ depth + 1 then none
      else
        match skip rest with
        | '\x7d' :: rest => some (.inlineTable [], rest)
        | rest => do
          let (pairs, rest) ← pairs? fuel (depth + 1) rest
          return (← inlineTable? pairs, rest)
    | _ =>
      let (word, rest) := word input
      (scalar? word).map fun value => (value, rest)

/-- Read the rest of an array, where an item or the end may come. -/
def items? : (fuel : Nat) → (depth : Nat) → List Char → Option (List Toml × List Char)
  | 0, _, _ => none
  | fuel + 1, depth, input =>
    match skipLines input.length input with
    | ']' :: rest => some ([], rest)
    | rest => do
      let (item, rest) ← value? fuel depth rest
      match skipLines rest.length rest with
      | ']' :: rest => some ([item], rest)
      | ',' :: rest => (items? fuel depth rest).map fun (items, rest) => (item :: items, rest)
      | _ => none

/-- Read the pairs of a table in braces, at least one, and its end. -/
def pairs? : (fuel : Nat) → (depth : Nat) → List Char →
    Option (List (List String × Toml) × List Char)
  | 0, _, _ => none
  | fuel + 1, depth, input => do
    let (key, rest) ← key? input
    let '=' :: rest := rest | none
    let (value, rest) ← value? fuel depth (skip rest)
    match skip rest with
    | '\x7d' :: rest => some ([(key, value)], rest)
    | ',' :: rest =>
      (pairs? fuel depth rest).map fun (pairs, rest) => ((key, value) :: pairs, rest)
    | _ => none

end

structure Draft where
  root : Entries
  /-- The header whose table the next keys belong to. -/
  header : List String

namespace Draft

/-- Begin the table that a header names, or one more of the tables that a
    repeated header names. -/
def begin? (draft : Draft) (repeated : Bool) (key : List String) : Option Draft :=
  match key.reverse with
  | name :: path => do
    let root ←
      if repeated then draft.root.beginItem path.reverse name
      else draft.root.beginTable path.reverse name
    return ⟨root, key⟩
  | [] => none

/-- Add a value under a dotted key. -/
def put? (draft : Draft) (key : List String) (value : Toml) : Option Draft :=
  match key.reverse with
  | name :: path => do
    let root ← draft.root.within draft.header (Entries.put path.reverse name value)
    return { draft with root }
  | [] => none

end Draft

/-- Read one line, or one pair over several lines. -/
def line? (draft : Draft) (input : List Char) : Option (Draft × List Char) :=
  match skip input with
  | '#' :: rest => (endOfLine? ('#' :: rest)).map fun rest => (draft, rest)
  | '[' :: '[' :: rest => do
    let (key, rest) ← key? rest
    let ']' :: ']' :: rest := rest | none
    return (← draft.begin? true key, ← endOfLine? rest)
  | '[' :: rest => do
    let (key, rest) ← key? rest
    let ']' :: rest := rest | none
    return (← draft.begin? false key, ← endOfLine? rest)
  | rest =>
    match newLine? rest with
    | some rest => some (draft, rest)
    | none => do
      let (key, rest) ← key? rest
      let '=' :: rest := rest | none
      let (value, rest) ← value? (2 * rest.length + 2) 0 (skip rest)
      return (← draft.put? key value, ← endOfLine? rest)

/-- Read lines until nothing is left. Every line spends one unit of `fuel`. -/
def lines? : (fuel : Nat) → Draft → List Char → Option Draft
  | 0, _, _ => none
  | fuel + 1, draft, input =>
    match skip input with
    | [] => some draft
    | rest => do
      let (draft, rest) ← line? draft rest
      lines? fuel draft rest

/-- Read a document: its table. A byte order mark in front does not count. -/
def parse? (input : String) : Option Toml := do
  let chars := match input.toList with
    | '\ufeff' :: rest => rest
    | chars => chars
  let draft ← lines? (chars.length + 1) ⟨[], []⟩ chars
  return .table (finishEntries false draft.root)

end Strongroom.Toml
