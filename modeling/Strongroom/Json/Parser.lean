import Strongroom.Json.Value
import Strongroom.Uuid

/-! # Reading JSON

A text is one value with blanks around it. Numbers have no leading zeros,
strings no raw controls. Half a surrogate pair is no error here: the string
reads as one without a text.
-/

namespace Strongroom.Json

def isSpace (c : Char) : Bool :=
  c == ' ' || c == '\n' || c == '\t' || c == '\r'

def skip (input : List Char) : List Char :=
  input.dropWhile isSpace

/-- The 16-bit unit of four digits. -/
def unit? (a b c d : Char) : Option Nat := do
  let a ← Uuid.digit? a
  let b ← Uuid.digit? b
  let c ← Uuid.digit? c
  let d ← Uuid.digit? d
  return ((a * 16 + b) * 16 + c) * 16 + d

def isLeading (unit : Nat) : Bool :=
  0xD800 ≤ unit && unit < 0xDC00

def isTrailing (unit : Nat) : Bool :=
  0xDC00 ≤ unit && unit < 0xE000

def pairChar (leading trailing : Nat) : Char :=
  Char.ofNat (0x10000 + (leading - 0xD800) * 0x400 + (trailing - 0xDC00))

/-- One element of a string: a character, the first half of a pair, or the
    second. -/
inductive CodeUnit where
  | char (c : Char)
  | leading (unit : Nat)
  | trailing (unit : Nat)

/-- The unit that a number of 16 bits stands for. -/
def CodeUnit.ofNat (n : Nat) : CodeUnit :=
  if isLeading n then .leading n
  else if isTrailing n then .trailing n
  else .char (Char.ofNat n)

/-- The character after a backslash, where it is not `u`. -/
def escaped? : Char → Option Char
  | '"' => some '"'
  | '\\' => some '\\'
  | '/' => some '/'
  | 'b' => some '\x08'
  | 'f' => some '\x0c'
  | 'n' => some '\n'
  | 'r' => some '\r'
  | 't' => some '\t'
  | _ => none

/-- The units of a string up to the closing quote, and what follows it. -/
def units? : List Char → Option (List CodeUnit × List Char)
  | '"' :: rest => some ([], rest)
  | '\\' :: 'u' :: a :: b :: c :: d :: rest => do
    let n ← unit? a b c d
    let (units, rest) ← units? rest
    return (.ofNat n :: units, rest)
  | '\\' :: c :: rest => do
    let c ← escaped? c
    let (units, rest) ← units? rest
    return (.char c :: units, rest)
  | c :: rest =>
    if c.toNat < 0x20 || c == '\\' then none
    else do
      let (units, rest) ← units? rest
      return (.char c :: units, rest)
  | [] => none

/-- The characters of units, if every half of a pair has its other half. -/
def join? : List CodeUnit → Option (List Char)
  | [] => some []
  | .char c :: rest => (join? rest).map (c :: ·)
  | .leading n :: .trailing m :: rest => (join? rest).map (pairChar n m :: ·)
  | .leading _ :: _ => none
  | .trailing _ :: _ => none

/-- Read a string after its opening quote. -/
def string? (input : List Char) : Option (Option String × List Char) := do
  let (units, rest) ← units? input
  return ((join? units).map String.ofList, rest)

def digits (input : List Char) : List Char × List Char :=
  (input.takeWhile Char.isDigit, input.dropWhile Char.isDigit)

/-- The digits before the point: one zero, or no zero in front. -/
def integerPart? (input : List Char) : Option (List Char × List Char) :=
  match digits input with
  | ([], _) => none
  | (['0'], rest) => some (['0'], rest)
  | ('0' :: _, _) => none
  | (ds, rest) => some (ds, rest)

/-- The point and the digits behind it, if there is one. -/
def fractionPart? (input : List Char) : Option (List Char × List Char) :=
  match input with
  | '.' :: rest =>
    match digits rest with
    | ([], _) => none
    | (ds, rest) => some ('.' :: ds, rest)
  | _ => some ([], input)

def exponentSign (input : List Char) : List Char × List Char :=
  match input with
  | '+' :: rest => (['+'], rest)
  | '-' :: rest => (['-'], rest)
  | _ => ([], input)

def exponentPart? (input : List Char) : Option (List Char × List Char) :=
  match input with
  | e :: rest =>
    if e == 'e' || e == 'E' then
      let (sign, rest) := exponentSign rest
      match digits rest with
      | ([], _) => none
      | (ds, rest) => some (e :: (sign ++ ds), rest)
    else some ([], input)
  | [] => some ([], input)

def decimal (ds : List Char) : Nat :=
  ds.foldl (fun n d => 10 * n + (d.toNat - 0x30)) 0

def number? (input : List Char) : Option (Json × List Char) := do
  let (sign, rest) := match input with
    | '-' :: rest => (['-'], rest)
    | _ => ([], input)
  let (integer, rest) ← integerPart? rest
  let (fraction, rest) ← fractionPart? rest
  let (exponent, rest) ← exponentPart? rest
  if sign.isEmpty && fraction.isEmpty && exponent.isEmpty then
    return (.whole (decimal integer), rest)
  else
    return (.number (String.ofList (sign ++ integer ++ fraction ++ exponent)), rest)

mutual

/-- Read a value. Every call spends one unit of `fuel`. -/
def value? : (fuel : Nat) → List Char → Option (Json × List Char)
  | 0, _ => none
  | fuel + 1, input =>
    match skip input with
    | 'n' :: 'u' :: 'l' :: 'l' :: rest => some (.null, rest)
    | 't' :: 'r' :: 'u' :: 'e' :: rest => some (.bool true, rest)
    | 'f' :: 'a' :: 'l' :: 's' :: 'e' :: rest => some (.bool false, rest)
    | '"' :: rest => (string? rest).map fun (text, rest) => (.string text, rest)
    | '[' :: rest =>
      match skip rest with
      | ']' :: rest => some (.array [], rest)
      | rest => (items? fuel rest).map fun (items, rest) => (.array items, rest)
    | '\x7b' :: rest =>
      match skip rest with
      | '\x7d' :: rest => some (.object [], rest)
      | rest => (members? fuel rest).map fun (members, rest) => (.object members, rest)
    | rest => number? rest

/-- Read the items of an array, at least one, and its end. -/
def items? : (fuel : Nat) → List Char → Option (List Json × List Char)
  | 0, _ => none
  | fuel + 1, input => do
    let (item, rest) ← value? fuel input
    match skip rest with
    | ']' :: rest => some ([item], rest)
    | ',' :: rest => (items? fuel rest).map fun (items, rest) => (item :: items, rest)
    | _ => none

/-- Read the members of an object, at least one, and its end. -/
def members? : (fuel : Nat) → List Char → Option (List (Option String × Json) × List Char)
  | 0, _ => none
  | fuel + 1, input =>
    match skip input with
    | '"' :: rest => do
      let (name, rest) ← string? rest
      match skip rest with
      | ':' :: rest =>
        let (value, rest) ← value? fuel rest
        match skip rest with
        | '\x7d' :: rest => some ([(name, value)], rest)
        | ',' :: rest =>
          (members? fuel rest).map fun (members, rest) => ((name, value) :: members, rest)
        | _ => none
      | _ => none
    | _ => none

end

/-- Read a text that is one value. No part of it needs more fuel than twice the
    characters it has. -/
def parse? (input : String) : Option Json := do
  let chars := input.toList
  let (value, rest) ← value? (2 * chars.length + 2) chars
  match skip rest with
  | [] => some value
  | _ => none

end Strongroom.Json
