import Strongroom.Bytes
import Strongroom.Uuid

/-! # Random bytes and fresh identifiers

A random source is an endless tape of bytes with the number of bytes used so
far. Whatever draws from it hands the rest on, so a law that quantifies over
tapes speaks about every random source. Identifiers have a tape of their own.
-/

namespace Strongroom

/-- An endless tape of random bytes, of which the first `used` are spent. -/
structure Entropy where
  tape : Nat → UInt8
  used : Nat := 0

namespace Entropy

def peek (source : Entropy) (count : Nat) : Bytes :=
  (List.range count).map fun i => source.tape (source.used + i)

def draw (source : Entropy) (count : Nat) : Bytes × Entropy :=
  (source.peek count, { source with used := source.used + count })

@[simp] theorem length_peek (source : Entropy) (count : Nat) :
    (source.peek count).length = count := by
  simp [peek]

end Entropy

/-- An endless tape of identifiers, of which the first `used` are spent. -/
structure IdSupply where
  tape : Nat → Uuid
  used : Nat := 0

namespace IdSupply

def draw (supply : IdSupply) : Uuid × IdSupply :=
  (supply.tape supply.used, { supply with used := supply.used + 1 })

end IdSupply

end Strongroom
