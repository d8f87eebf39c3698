import Strongroom.Toml.Value

/-! # Tables under construction

While a document is read, a table remembers how it came about, because that
decides whether more may be added to it: a header may complete a table that
deeper headers implied, and a dotted key may only extend tables that dotted
keys made.
-/

namespace Strongroom.Toml

inductive Origin where
  /-- It has a header of its own. -/
  | header
  /-- A longer header goes through it. -/
  | implied
  /-- Dotted keys made it. -/
  | dotted
  deriving Repr, DecidableEq

/-- A part of a document under construction. -/
inductive Node where
  | leaf (value : Toml)
  | table (origin : Origin) (entries : List (String × Node))
  /-- Tables under one repeated header. -/
  | tables (items : List (List (String × Node)))

/-- The entries of a table under construction, in the order written. -/
abbrev Entries := List (String × Node)

namespace Entries

/-- Replace the entry of a name in its place, or add it at the end. -/
def set (name : String) (node : Node) : Entries → Entries
  | [] => [(name, node)]
  | (key, old) :: rest =>
    if key == name then (key, node) :: rest else (key, old) :: set name node rest

/-- Add a value under a dotted key, of which `path` are all parts but the last. -/
def put (path : List String) (name : String) (value : Toml) (entries : Entries) : Option Entries :=
  match path with
  | [] => if (entries.lookup name).isSome then none else some (entries ++ [(name, .leaf value)])
  | part :: path =>
    match entries.lookup part with
    | none => do
      let inner ← put path name value []
      return entries ++ [(part, .table .dotted inner)]
    | some (.leaf _) => none
    | some (.table origin inner) =>
      if origin == .header || (origin == .implied && path.isEmpty) then none
      else do
        let inner ← put path name value inner
        return set part (.table origin inner) entries
    | some (.tables items) =>
      match items.reverse with
      | last :: before =>
        if path.isEmpty then none
        else do
          let last ← put path name value last
          return set part (.tables (last :: before).reverse) entries
      | [] => none

/-- Change the table at the end of a path of headers. Tables on the way are
    implied; of repeated tables the last one is meant. -/
def within (path : List String) (change : Entries → Option Entries) (entries : Entries) :
    Option Entries :=
  match path with
  | [] => change entries
  | part :: path =>
    match entries.lookup part with
    | none => do
      let inner ← within path change []
      return entries ++ [(part, .table .implied inner)]
    | some (.leaf _) => none
    | some (.table origin inner) => do
      let inner ← within path change inner
      return set part (.table origin inner) entries
    | some (.tables items) =>
      match items.reverse with
      | last :: before => do
        let last ← within path change last
        return set part (.tables (last :: before).reverse) entries
      | [] => none

/-- Begin the table that a header names. -/
def beginTable (path : List String) (name : String) (root : Entries) : Option Entries :=
  within path (fun entries =>
    match entries.lookup name with
    | none => some (entries ++ [(name, .table .header [])])
    | some (.table .implied inner) => some (set name (.table .header inner) entries)
    | some _ => none) root

/-- Begin one more of the tables that a repeated header names. -/
def beginItem (path : List String) (name : String) (root : Entries) : Option Entries :=
  within path (fun entries =>
    match entries.lookup name with
    | none => some (entries ++ [(name, .tables [[]])])
    | some (.tables items) => some (set name (.tables (items ++ [[]])) entries)
    | some _ => none) root

end Entries

mutual

/-- The finished value of a part; `inline` says whether it stands in braces. -/
def Node.finish (inline : Bool) : Node → Toml
  | .leaf value => value
  | .table _ entries =>
    if inline then .inlineTable (finishEntries inline entries)
    else .table (finishEntries inline entries)
  | .tables items => .array (finishItems inline items)

def finishEntries (inline : Bool) : List (String × Node) → List (String × Toml)
  | [] => []
  | (name, node) :: rest => (name, node.finish inline) :: finishEntries inline rest

/-- The finished tables under a repeated header. -/
def finishItems (inline : Bool) : List (List (String × Node)) → List Toml
  | [] => []
  | entries :: rest => .table (finishEntries inline entries) :: finishItems inline rest

end

end Strongroom.Toml
