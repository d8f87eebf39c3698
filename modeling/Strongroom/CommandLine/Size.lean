/-! # Sizes for people

A size below a kilobyte is told in bytes, a larger one in the largest unit that
it fills, with one decimal place. A half goes to the even neighbour. Sizes that
need more than 53 bits are first rounded to as many.
-/

namespace Strongroom.Size

/-- The whole number nearest to a quotient; a half goes to the even one. -/
def roundEven (numerator denominator : Nat) : Nat :=
  let quotient := numerator / denominator
  let twice := 2 * (numerator % denominator)
  if twice < denominator then quotient
  else if denominator < twice then quotient + 1
  else quotient + quotient % 2

/-- The nearest number that has at most 53 significant bits. -/
def significant (n : Nat) : Nat :=
  let unit := 1 <<< (n.log2 - 52)
  roundEven n unit * unit

/-- A quotient with one decimal place. -/
def tenths (n unit : Nat) : String :=
  let count := roundEven (10 * significant n) unit
  s!"{count / 10}.{count % 10}"

def kilobyte : Nat := 1024

def megabyte : Nat := 1024 * kilobyte

def gigabyte : Nat := 1024 * megabyte

def text (bytes : Nat) : String :=
  if bytes < kilobyte then s!"{bytes} B"
  else if bytes < megabyte then s!"{tenths bytes kilobyte} KB"
  else if bytes < gigabyte then s!"{tenths bytes megabyte} MB"
  else s!"{tenths bytes gigabyte} GB"

end Strongroom.Size
