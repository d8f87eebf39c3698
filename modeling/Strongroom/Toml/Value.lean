import Strongroom.Bytes

/-! # TOML values

The values a document is made of. A table written in braces is told from one
written with a header or dotted keys, because a choice between names may be
written either way. Floats and moments are kept as their text.
-/

namespace Strongroom

inductive Toml where
  | string (text : String)
  | integer (n : Int)
  | float (literal : String)
  | boolean (b : Bool)
  /-- A date, a time, or both. -/
  | moment (literal : String)
  | array (items : List Toml)
  /-- A table in braces. -/
  | inlineTable (entries : List (String × Toml))
  | table (entries : List (String × Toml))
  deriving Inhabited

namespace Toml

/-- The largest integer: integers have 64 bits, one of them the sign. -/
def maxInteger : Nat := 0x7FFFFFFFFFFFFFFF

def text? : Toml → Option String
  | .string text => some text
  | _ => none

/-- The value of an integer from zero to `limit`. -/
def nat? (limit : Nat) : Toml → Option Nat
  | .integer n => if 0 ≤ n ∧ n ≤ limit then some n.toNat else none
  | _ => none

def bool? : Toml → Option Bool
  | .boolean b => some b
  | _ => none

/-- The bytes of an array of integers from 0 to 255. -/
def bytes? : Toml → Option Bytes
  | .array items => items.mapM fun item => (item.nat? 255).map UInt8.ofNat
  | _ => none

/-- Look up the fields of a record, in the order of `names`. A table gives them
    by name, an array by place; whatever else they hold is passed over. A
    moment is a record without any of the fields. -/
def record? (names : List String) : Toml → Option (List (Option Toml))
  | .table entries | .inlineTable entries =>
    some (names.map fun name => (entries.find? fun entry => entry.1 == name).map Prod.snd)
  | .array items => some ((List.range names.length).map fun i => items[i]?)
  | .moment _ => some (names.map fun _ => none)
  | _ => none

def isEmpty : Toml → Bool
  | .array items => items.isEmpty
  | .table entries | .inlineTable entries => entries.isEmpty
  | _ => false

/-- The name that a choice picks: a string, a table in braces whose one entry
    is empty, or another table whose first entry is. -/
def choice? : Toml → Option String
  | .string name => some name
  | .inlineTable [(name, value)] => if value.isEmpty then some name else none
  | .table ((name, value) :: _) => if value.isEmpty then some name else none
  | _ => none

end Toml

end Strongroom
