import Strongroom.Hex
import Strongroom.Toml.Value

/-! # Writing TOML

A string is written in the plainest of its forms that can hold it: between
double quotes, single ones, three double or three single ones. Where all four
fail, escapes are used. An integer beyond 64 bits cannot be written.
-/

namespace Strongroom.Toml

def longestRun (c : Char) (text : List Char) : Nat :=
  (text.foldl (fun (best, run) d =>
    let run := if d == c then run + 1 else 0
    (max best run, run)) (0, 0)).1

/-- Whether a character can only be written as an escape, wherever it stands. -/
def needsEscape (c : Char) : Bool :=
  (c.toNat < 0x20 && c != '\t' && c != '\n') || c.toNat == 0x7F

def upperDigit (n : Nat) : Char :=
  (Hex.digitChar n).toUpper

def escape (c : Char) : List Char :=
  match c with
  | '\x08' => ['\\', 'b']
  | '\t' => ['\\', 't']
  | '\n' => ['\\', 'n']
  | '\x0c' => ['\\', 'f']
  | '\r' => ['\\', 'r']
  | '"' => ['\\', '"']
  | '\\' => ['\\', '\\']
  | c => ['\\', 'u', '0', '0', upperDigit (c.toNat / 16), upperDigit (c.toNat % 16)]

/-- Write text between double quotes, three of them if it is a `block`. In a
    block line ends stand for themselves, and so do two quotes in a row;
    `quotes` counts those right before. -/
def escapeAll (block : Bool) (quotes : Nat) : List Char → List Char
  | [] => []
  | c :: rest =>
    if c == '"' then
      if block && quotes < 2 then c :: escapeAll block (quotes + 1) rest
      else escape c ++ escapeAll block 0 rest
    else if c == '\n' && block then c :: escapeAll block 0 rest
    else if needsEscape c || c == '\t' || c == '\n' || c == '\\' then
      escape c ++ escapeAll block 0 rest
    else c :: escapeAll block 0 rest

/-- Enclose the body of a block; a text of more than one line starts on a line
    of its own. -/
def blockOf (quote : Char) (hasLines : Bool) (body : List Char) : List Char :=
  [quote, quote, quote] ++ (if hasLines then ['\n'] else []) ++ body ++ [quote, quote, quote]

def stringChars (text : List Char) : List Char :=
  let lines := text.contains '\n'
  let coded := text.any needsEscape
  let doubles := longestRun '"' text
  let singles := longestRun '\'' text
  let backslash := text.contains '\\'
  if !coded && !backslash && doubles == 0 && !lines then '"' :: escapeAll false 0 text ++ ['"']
  else if !coded && singles == 0 && !lines then '\'' :: text ++ ['\'']
  else if !coded && !backslash && doubles ≤ 2 then blockOf '"' lines (escapeAll true 0 text)
  else if !coded && singles ≤ 2 then blockOf '\'' lines text
  else if lines then blockOf '"' lines (escapeAll true 0 text)
  else '"' :: escapeAll false 0 text ++ ['"']

def integerChars? (n : Int) : Option (List Char) :=
  if n ≤ maxInteger ∧ -n ≤ maxInteger + 1 then
    some (if n < 0 then '-' :: Nat.toDigits 10 n.natAbs else Nat.toDigits 10 n.natAbs)
  else none

def joinItems : List (List Char) → List Char
  | [] => []
  | [item] => item
  | item :: rest => item ++ ',' :: ' ' :: joinItems rest

mutual

/-- The written form of a value on one line. -/
def valueChars? : Toml → Option (List Char)
  | .string text => some (stringChars text.toList)
  | .integer n => integerChars? n
  | .float literal => some literal.toList
  | .boolean b => some (if b then "true".toList else "false".toList)
  | .moment literal => some literal.toList
  | .array items => do
    let items ← itemsChars? items
    return '[' :: joinItems items ++ [']']
  | .table entries | .inlineTable entries => do
    let entries ← entriesChars? entries
    return '\x7b' :: ' ' :: joinItems entries ++ [' ', '\x7d']

def itemsChars? : List Toml → Option (List (List Char))
  | [] => some []
  | item :: rest => do return (← item.valueChars?) :: (← itemsChars? rest)

/-- The written forms of the entries of a table on one line. -/
def entriesChars? : List (String × Toml) → Option (List (List Char))
  | [] => some []
  | (name, value) :: rest => do
    return (name.toList ++ ' ' :: '=' :: ' ' :: (← value.valueChars?)) :: (← entriesChars? rest)

end

/-- A line for each pair of a name and a value. Names are written as they are. -/
def linesChars? (pairs : List (String × Toml)) : Option (List Char) := do
  let lines ← entriesChars? pairs
  return lines.flatMap fun line => line ++ ['\n']

def ofPairs? (pairs : List (String × Toml)) : Option String :=
  (linesChars? pairs).map String.ofList

/-- The lines of a section: its header and its pairs. -/
def sectionChars? (part : String × List (String × Toml)) : Option (List Char) := do
  let lines ← linesChars? part.2
  return '[' :: part.1.toList ++ ']' :: '\n' :: lines

/-- The document with the given sections, a blank line between two. -/
def ofSections? (sections : List (String × List (String × Toml))) : Option String := do
  let parts ← sections.mapM sectionChars?
  return String.ofList (List.intercalate ['\n'] parts)

end Strongroom.Toml
