import Strongroom.Toml.Value
import Strongroom.Uuid

/-! # The words of a TOML document

Blanks, comments, strings and keys, each as a reader that gives what it found
and the rest of the input.
-/

namespace Strongroom.Toml

/-- A blank inside a line. -/
def isSpace (c : Char) : Bool :=
  c == ' ' || c == '\t'

def skip (input : List Char) : List Char :=
  input.dropWhile isSpace

def newLine? : List Char → Option (List Char)
  | '\n' :: rest => some rest
  | '\r' :: '\n' :: rest => some rest
  | _ => none

/-- A character that may stand in comments and, but for quotes and escapes, in
    strings. -/
def isPlain (c : Char) : Bool :=
  c == '\t' || (0x20 ≤ c.toNat && c.toNat ≠ 0x7F)

/-- Go to the end of a comment, if one begins here. -/
def skipComment : List Char → List Char
  | '#' :: rest => rest.dropWhile isPlain
  | input => input

/-- Go past the end of the line, where at most a comment is left on it. -/
def endOfLine? (input : List Char) : Option (List Char) :=
  match skipComment (skip input) with
  | [] => some []
  | rest => newLine? rest

/-- Whether nothing but blanks is left on the line, and the line ends. -/
def endsLine (input : List Char) : Bool :=
  (newLine? (skip input)).isSome

/-- The character with a code given in hexadecimal digits. -/
def coded? (digits : List Char) : Option Char := do
  let values ← digits.mapM Uuid.digit?
  let n := values.foldl (fun n d => 16 * n + d) 0
  if h : n.isValidChar then return Char.ofNatAux n h else none

def escaped? : Char → Option Char
  | 'b' => some '\x08'
  | 't' => some '\t'
  | 'n' => some '\n'
  | 'f' => some '\x0c'
  | 'r' => some '\r'
  | '"' => some '"'
  | '\\' => some '\\'
  | _ => none

/-- Put a character in front of what a reader found. -/
def consFound (c : Char) (found : Option (List Char × List Char)) :
    Option (List Char × List Char) :=
  found.map fun (text, rest) => (c :: text, rest)

/-- A string in double quotes, after the opening one. -/
def basic? : List Char → Option (List Char × List Char)
  | '"' :: rest => some ([], rest)
  | '\\' :: 'u' :: a :: b :: c :: d :: rest => do
    consFound (← coded? [a, b, c, d]) (basic? rest)
  | '\\' :: 'U' :: a :: b :: c :: d :: e :: f :: g :: h :: rest => do
    consFound (← coded? [a, b, c, d, e, f, g, h]) (basic? rest)
  | '\\' :: c :: rest => do consFound (← escaped? c) (basic? rest)
  | c :: rest => if isPlain c && c != '\\' then consFound c (basic? rest) else none
  | [] => none

/-- A string in single quotes, after the opening one. -/
def literal? : List Char → Option (List Char × List Char)
  | '\'' :: rest => some ([], rest)
  | c :: rest => if isPlain c then consFound c (literal? rest) else none
  | [] => none

/-- A string in three double quotes, after the opening ones. Up to two quotes
    may stand before the closing ones. In a `gap`, after a backslash at the end
    of a line, blanks and line ends do not count. -/
def blockBasic? (gap : Bool) : List Char → Option (List Char × List Char)
  | '"' :: '"' :: '"' :: '"' :: '"' :: rest => some (['"', '"'], rest)
  | '"' :: '"' :: '"' :: '"' :: rest => some (['"'], rest)
  | '"' :: '"' :: '"' :: rest => some ([], rest)
  | '\r' :: '\n' :: rest =>
    if gap then blockBasic? true rest else consFound '\n' (blockBasic? false rest)
  | '\\' :: 'u' :: a :: b :: c :: d :: rest => do
    consFound (← coded? [a, b, c, d]) (blockBasic? false rest)
  | '\\' :: 'U' :: a :: b :: c :: d :: e :: f :: g :: h :: rest => do
    consFound (← coded? [a, b, c, d, e, f, g, h]) (blockBasic? false rest)
  | '\\' :: c :: rest =>
    if endsLine (c :: rest) then blockBasic? true (c :: rest)
    else do consFound (← escaped? c) (blockBasic? false rest)
  | c :: rest =>
    if gap && (isSpace c || c == '\n') then blockBasic? true rest
    else if c == '\n' || (isPlain c && c != '\\') then consFound c (blockBasic? false rest)
    else none
  | [] => none

/-- A string in three single quotes, after the opening ones. Up to two quotes
    may stand before the closing ones. -/
def blockLiteral? : List Char → Option (List Char × List Char)
  | '\'' :: '\'' :: '\'' :: '\'' :: '\'' :: rest => some (['\'', '\''], rest)
  | '\'' :: '\'' :: '\'' :: '\'' :: rest => some (['\''], rest)
  | '\'' :: '\'' :: '\'' :: rest => some ([], rest)
  | '\r' :: '\n' :: rest => consFound '\n' (blockLiteral? rest)
  | c :: rest => if c == '\n' || isPlain c then consFound c (blockLiteral? rest) else none
  | [] => none

def dropLineEnd (input : List Char) : List Char :=
  (newLine? input).getD input

def lineString? : List Char → Option (List Char × List Char)
  | '"' :: rest => basic? rest
  | '\'' :: rest => literal? rest
  | _ => none

/-- A string of any of the four forms. A line end right after three quotes does
    not count. -/
def string? : List Char → Option (List Char × List Char)
  | '"' :: '"' :: '"' :: rest => blockBasic? false (dropLineEnd rest)
  | '\'' :: '\'' :: '\'' :: rest => blockLiteral? (dropLineEnd rest)
  | input => lineString? input

/-- A character of an unquoted key. -/
def isBare (c : Char) : Bool :=
  c.isAlphanum || c == '_' || c == '-'

def keyPart? (input : List Char) : Option (String × List Char) :=
  match lineString? input with
  | some (text, rest) => some (String.ofList text, rest)
  | none =>
    match input.takeWhile isBare with
    | [] => none
    | word => some (String.ofList word, input.dropWhile isBare)

/-- The parts of a key, with blanks around each. Every part spends one unit of
    `fuel`. -/
def keyParts? : (fuel : Nat) → List Char → Option (List String × List Char)
  | 0, _ => none
  | fuel + 1, input => do
    let (part, rest) ← keyPart? (skip input)
    match skip rest with
    | '.' :: rest => (keyParts? fuel rest).map fun (parts, rest) => (part :: parts, rest)
    | rest => some ([part], rest)

/-- How deep values may be nested, and how many parts a key may have. -/
def depthLimit : Nat := 80

def key? (input : List Char) : Option (List String × List Char) :=
  keyParts? (depthLimit - 1) input

end Strongroom.Toml
