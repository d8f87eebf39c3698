import Strongroom.Bytes

/-! # The Poly1305 authenticator

A message is cut into pieces of sixteen bytes, each piece with a byte one behind
it is read as a number, and the numbers are the coefficients of a polynomial
evaluated modulo the largest prime below the 130th power of two.
-/

namespace Strongroom.Poly1305

/-- The modulus, five less than the 130th power of two. -/
def prime : Nat := (1 <<< 130) - 5

/-- The bits that stay set in the point of evaluation. -/
def clampMask : Nat := 0x0ffffffc0ffffffc0ffffffc0fffffff

def accumulate (point sum : Nat) (message : Bytes) : Nat :=
  if _h : message = [] then sum
  else
    let piece : Bytes := message.take 16
    let coefficient := Bytes.toNatLE (piece ++ [1])
    accumulate point ((sum + coefficient) * point % prime) (message.drop 16)
termination_by message.length
decreasing_by
  have := List.length_pos_iff.2 _h
  simp only [List.length_drop]
  omega

/-- The tag of a message under a one-time key of 32 bytes. -/
def tag (key message : Bytes) : Bytes :=
  let point := Bytes.toNatLE (key.take 16) &&& clampMask
  let pad := Bytes.toNatLE (key.drop 16)
  Bytes.ofNatLE 16 (accumulate point 0 message + pad)

@[simp] theorem length_tag (key message : Bytes) : (tag key message).length = 16 := by
  simp [tag]

end Strongroom.Poly1305
