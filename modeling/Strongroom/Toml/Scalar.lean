import Strongroom.Toml.Token

/-! # Numbers, truth values and moments

Each is one word without blanks, but for a date and a time with a space
between them.
-/

namespace Strongroom.Toml

/-- Digits, with single underscores between them. -/
def grouped (isDigit : Char → Bool) : List Char → Bool
  | [] => false
  | [c] => isDigit c
  | c :: '_' :: rest => isDigit c && grouped isDigit rest
  | c :: rest => isDigit c && grouped isDigit rest

/-- The number that digits of a base stand for, underscores aside. -/
def valueOf (base : Nat) (digits : List Char) : Nat :=
  digits.foldl (fun n c => match Uuid.digit? c with
    | some d => base * n + d
    | none => n) 0

/-- Split off a sign; whether it is a minus. -/
def sign (word : List Char) : Bool × List Char :=
  match word with
  | '+' :: rest => (false, rest)
  | '-' :: rest => (true, rest)
  | _ => (false, word)

/-- Whether digits are a decimal number without needless zeros. -/
def isDecimal (digits : List Char) : Bool :=
  grouped Char.isDigit digits && (digits.head? != some '0' || digits == ['0'])

/-- An integer of 64 bits: decimal with or without a sign, or unsigned in base
    sixteen, eight or two. -/
def integer? (word : List Char) : Option Int :=
  let unsigned (base : Nat) (isDigit : Char → Bool) (digits : List Char) : Option Int :=
    let n := valueOf base digits
    if grouped isDigit digits && n ≤ maxInteger then some n else none
  match word with
  | '0' :: 'x' :: digits => unsigned 16 (fun c => (Uuid.digit? c).isSome) digits
  | '0' :: 'o' :: digits => unsigned 8 (fun c => '0' ≤ c && c ≤ '7') digits
  | '0' :: 'b' :: digits => unsigned 2 (fun c => c == '0' || c == '1') digits
  | _ =>
    let (negative, digits) := sign word
    let n := valueOf 10 digits
    if !isDecimal digits then none
    else if negative then (if n ≤ maxInteger + 1 then some (-(n : Int)) else none)
    else if n ≤ maxInteger then some n else none

/-- Whether `digits`, an integer, times ten to the power of `exponent` is too
    large for a double: it would be rounded to infinity. -/
def overflows (digits : Nat) (exponent : Int) : Bool :=
  let length := (Nat.toDigits 10 digits).length
  if digits == 0 || (length : Int) + exponent < 300 then false
  else if (length : Int) + exponent > 320 then true
  else
    let bound := (1 <<< 1024) - (1 <<< 970)
    if 0 ≤ exponent then bound ≤ digits * Nat.pow 10 exponent.toNat
    else bound * Nat.pow 10 (-exponent).toNat ≤ digits

/-- Whether a word is a float. One that is too large is none, unless it is
    negative. -/
def isFloat (word : List Char) : Bool :=
  let (negative, rest) := sign word
  if rest == "inf".toList || rest == "nan".toList then true
  else
    let (mantissa, exponent) := rest.span fun c => c != 'e' && c != 'E'
    let (whole, fraction) := mantissa.span fun c => c != '.'
    let exponentDigits := (sign (exponent.drop 1)).2
    let shift := (valueOf 10 exponentDigits : Int)
    let shift := if (sign (exponent.drop 1)).1 then -shift else shift
    let places := (fraction.drop 1).filter Char.isDigit
    isDecimal whole && (fraction.isEmpty || grouped Char.isDigit (fraction.drop 1)) &&
      (exponent.isEmpty || grouped Char.isDigit exponentDigits) &&
      !(fraction.isEmpty && exponent.isEmpty) &&
      (negative || !overflows (valueOf 10 (whole ++ places)) (shift - places.length))

/-- The value of a given number of digits at the front. -/
def field? (count : Nat) (input : List Char) : Option (Nat × List Char) :=
  let digits := input.take count
  if digits.length == count && digits.all Char.isDigit then
    some (valueOf 10 digits, input.drop count)
  else none

def isLeapYear (year : Nat) : Bool :=
  year % 4 == 0 && (year % 100 != 0 || year % 400 == 0)

def daysIn (year month : Nat) : Nat :=
  if month == 2 then (if isLeapYear year then 29 else 28)
  else if month == 4 || month == 6 || month == 9 || month == 11 then 30
  else 31

def date? (input : List Char) : Option (List Char) := do
  let (year, rest) ← field? 4 input
  let '-' :: rest := rest | none
  let (month, rest) ← field? 2 rest
  let '-' :: rest := rest | none
  let (day, rest) ← field? 2 rest
  guard (1 ≤ month && month ≤ 12 && 1 ≤ day && day ≤ daysIn year month)
  return rest

def clock? (input : List Char) : Option (List Char) := do
  let (hour, rest) ← field? 2 input
  let ':' :: rest := rest | none
  let (minute, rest) ← field? 2 rest
  guard (hour ≤ 23 && minute ≤ 59)
  return rest

/-- Go past a time of day. A minute may have 61 seconds. -/
def time? (input : List Char) : Option (List Char) := do
  let ':' :: rest := (← clock? input) | none
  let (second, rest) ← field? 2 rest
  guard (second ≤ 60)
  match rest with
  | '.' :: d :: rest => if d.isDigit then return rest.dropWhile Char.isDigit else none
  | _ => return rest

/-- Go past an offset from universal time. -/
def offset? (input : List Char) : Option (List Char) :=
  match input with
  | 'Z' :: rest | 'z' :: rest => some rest
  | '+' :: rest | '-' :: rest => clock? rest
  | _ => none

/-- Whether a word is a time, a date, or a date and a time with or without an
    offset. -/
def isMoment (word : List Char) : Bool :=
  match date? word with
  | some [] => true
  | some (c :: rest) =>
    (c == 'T' || c == 't' || c == ' ') &&
      match time? rest with
      | some [] => true
      | some rest => offset? rest == some []
      | none => false
  | none => time? word == some []

def isWordChar (c : Char) : Bool :=
  c.isAlphanum || c == '_' || c == '+' || c == '-' || c == '.' || c == ':'

def scalar? (word : List Char) : Option Toml :=
  if word == "true".toList then some (.boolean true)
  else if word == "false".toList then some (.boolean false)
  else
    match integer? word with
    | some n => some (.integer n)
    | none =>
      if isFloat word then some (.float (String.ofList word))
      else if isMoment word then some (.moment (String.ofList word))
      else none

/-- Split off a word; a date followed by a space and an hour goes on. -/
def word (input : List Char) : List Char × List Char :=
  let first := input.takeWhile isWordChar
  let rest := input.dropWhile isWordChar
  match rest with
  | ' ' :: a :: b :: ':' :: _ =>
    if a.isDigit && b.isDigit && date? first == some [] then
      (first ++ ' ' :: (rest.drop 1).takeWhile isWordChar, (rest.drop 1).dropWhile isWordChar)
    else (first, rest)
  | _ => (first, rest)

end Strongroom.Toml
