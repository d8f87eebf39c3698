import Strongroom.Hex
import Strongroom.Json.Value

/-! # Writing JSON

Two layouts: one without any blanks, and one with a line for every item or
member, indented by two spaces a level. Both escape the quote, the backslash
and the controls below the space, and nothing else.
-/

namespace Strongroom.Json

/-- How a character is written inside a string. -/
def escape (c : Char) : List Char :=
  match c with
  | '"' => ['\\', '"']
  | '\\' => ['\\', '\\']
  | '\n' => ['\\', 'n']
  | '\r' => ['\\', 'r']
  | '\t' => ['\\', 't']
  | '\x08' => ['\\', 'b']
  | '\x0c' => ['\\', 'f']
  | c =>
    if c.toNat < 0x20 then
      ['\\', 'u', '0', '0', Hex.digitChar (c.toNat / 16), Hex.digitChar (c.toNat % 16)]
    else [c]

/-- The literal of a text; half a surrogate pair stands in for a missing one. -/
def literal : Option String → List Char
  | some text => '"' :: (text.toList.flatMap escape ++ ['"'])
  | none => ['"', '\\', 'u', 'd', '8', '0', '0', '"']

mutual

/-- The layout without blanks. -/
def compactChars : Json → List Char
  | .null => ['n', 'u', 'l', 'l']
  | .bool true => ['t', 'r', 'u', 'e']
  | .bool false => ['f', 'a', 'l', 's', 'e']
  | .whole n => Nat.toDigits 10 n
  | .number literal => literal.toList
  | .string text => literal text
  | .array items => '[' :: compactItems items
  | .object members => '\x7b' :: compactMembers members

def compactItems : List Json → List Char
  | [] => [']']
  | [item] => item.compactChars ++ [']']
  | item :: rest => item.compactChars ++ ',' :: compactItems rest

def compactMembers : List (Option String × Json) → List Char
  | [] => ['\x7d']
  | [(name, value)] => literal name ++ ':' :: value.compactChars ++ ['\x7d']
  | (name, value) :: rest => literal name ++ ':' :: value.compactChars ++ ',' :: compactMembers rest

end

def newLine (level : Nat) : List Char :=
  '\n' :: List.replicate (2 * level) ' '

mutual

/-- The layout with a line for every item, for a value that stands at a level. -/
def prettyChars (level : Nat) : Json → List Char
  | .null => ['n', 'u', 'l', 'l']
  | .bool true => ['t', 'r', 'u', 'e']
  | .bool false => ['f', 'a', 'l', 's', 'e']
  | .whole n => Nat.toDigits 10 n
  | .number literal => literal.toList
  | .string text => literal text
  | .array [] => ['[', ']']
  | .array (item :: rest) => '[' :: prettyItems level (item :: rest)
  | .object [] => ['\x7b', '\x7d']
  | .object (member :: rest) => '\x7b' :: prettyMembers level (member :: rest)

/-- The items of an array that stands at a level, and its end. -/
def prettyItems (level : Nat) : List Json → List Char
  | [] => newLine level ++ [']']
  | [item] => newLine (level + 1) ++ prettyChars (level + 1) item ++ newLine level ++ [']']
  | item :: rest =>
    newLine (level + 1) ++ prettyChars (level + 1) item ++ ',' :: prettyItems level rest

/-- The members of an object that stands at a level, and its end. -/
def prettyMembers (level : Nat) : List (Option String × Json) → List Char
  | [] => newLine level ++ ['\x7d']
  | [(name, value)] =>
    newLine (level + 1) ++ literal name ++ ':' :: ' ' :: prettyChars (level + 1) value ++
      newLine level ++ ['\x7d']
  | (name, value) :: rest =>
    newLine (level + 1) ++ literal name ++ ':' :: ' ' :: prettyChars (level + 1) value ++
      ',' :: prettyMembers level rest

end

/-- The text without blanks. -/
def compact (value : Json) : String :=
  String.ofList value.compactChars

/-- The text with a line for every item and member. -/
def pretty (value : Json) : String :=
  String.ofList (value.prettyChars 0)

end Strongroom.Json
