import Strongroom.Bytes

/-! # JSON values

A value as it is written. Numbers made of digits alone have a value; the others
are kept as their text. The escapes of a string may name half of a surrogate
pair; such a string stands for no text.
-/

namespace Strongroom

inductive Json where
  | null
  | bool (b : Bool)
  /-- A number written with digits alone. -/
  | whole (n : Nat)
  /-- Any other number, as it is written. -/
  | number (literal : String)
  /-- A string, with its text if it stands for one. -/
  | string (text : Option String)
  | array (items : List Json)
  /-- The members in the order written; names may repeat. -/
  | object (members : List (Option String × Json))
  deriving Inhabited

namespace Json

def text (s : String) : Json :=
  .string (some s)

def fields (members : List (String × Json)) : Json :=
  .object (members.map fun (name, value) => (some name, value))

def bytes (data : Bytes) : Json :=
  .array (data.map fun byte => .whole byte.toNat)

def text? : Json → Option String
  | .string text => text
  | _ => none

/-- The value of a number made of digits, if it is at most `limit`. -/
def nat? (limit : Nat) : Json → Option Nat
  | .whole n => if n ≤ limit then some n else none
  | _ => none

def bool? : Json → Option Bool
  | .bool b => some b
  | _ => none

/-- The bytes of an array of numbers below 256. -/
def bytes? : Json → Option Bytes
  | .array items => items.mapM fun item => (item.nat? 255).map UInt8.ofNat
  | _ => none

/-- Look up the fields of a record, in the order of `names`. An object gives
    them by name: other names are passed over, but a name that stands for no
    text, or a field given twice, is refused. An array gives them by place and
    may end early. -/
def record? (names : List String) : Json → Option (List (Option Json))
  | .object members =>
    if members.any fun (name, _) => name.isNone then none
    else
      let found := names.map fun name => members.filter fun (n, _) => n == some name
      if found.any fun values => 1 < values.length then none
      else some (found.map fun values => values.head?.map Prod.snd)
  | .array items =>
    if names.length < items.length then none
    else some ((List.range names.length).map fun i => items[i]?)
  | _ => none

end Json

end Strongroom
