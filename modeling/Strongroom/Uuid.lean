import Strongroom.Hex

/-! # Universally unique identifiers

An identifier has 128 bits. It is read in four forms and written in one: lower
case digits in groups of eight, four, four, four and twelve.
-/

namespace Strongroom

structure Uuid where
  value : BitVec 128
  deriving DecidableEq, Inhabited

namespace Uuid

/-- The identifier made of sixteen bytes, most significant first. -/
def ofBytes (bytes : Bytes) : Uuid :=
  ⟨BitVec.ofNat 128 bytes.toNatBE⟩

def toBytes (id : Uuid) : Bytes :=
  Bytes.ofNatBE 16 id.value.toNat

/-- The identifier made of sixteen random bytes: the upper half of the seventh
    tells the version, four, and the two highest bits of the ninth the variant. -/
def ofRandom (bytes : Bytes) : Uuid :=
  let version := bytes.modify 6 fun byte => byte &&& 0x0F ||| 0x40
  ofBytes (version.modify 8 fun byte => byte &&& 0x3F ||| 0x80)

/-- Cut digits into the five groups of the written form. -/
def group (digits : List Char) : List Char :=
  digits.take 8 ++ ['-'] ++ (digits.drop 8).take 4 ++ ['-'] ++ (digits.drop 12).take 4 ++ ['-'] ++
    (digits.drop 16).take 4 ++ ['-'] ++ digits.drop 20

def toText (id : Uuid) : String :=
  String.ofList (group (id.toBytes.flatMap Hex.byteDigits))

instance : ToString Uuid := ⟨toText⟩

def digit? (c : Char) : Option Nat :=
  if c.toNat < 0x80 then (Hex.digitValue (UInt8.ofNat c.toNat)).map UInt8.toNat else none

def ofDigits? (digits : List Char) : Option Uuid := do
  guard (digits.length == 32)
  let values ← digits.mapM digit?
  return ⟨BitVec.ofNat 128 (values.foldl (fun high d => 16 * high + d) 0)⟩

/-- Read the five groups joined by hyphens. -/
def ofGroups? (text : List Char) : Option Uuid := do
  guard (text.length == 36)
  let digits := text.take 8 ++ (text.drop 9).take 4 ++ (text.drop 14).take 4 ++
    (text.drop 19).take 4 ++ text.drop 24
  guard (text == group digits)
  ofDigits? digits

/-- Read an identifier: 32 digits, five groups, five groups in braces, or five
    groups after `urn:uuid:`. -/
def parse? (text : String) : Option Uuid :=
  let chars := text.toList
  match chars.length with
  | 32 => ofDigits? chars
  | 36 => ofGroups? chars
  | 38 =>
    if chars.head? == some '\x7b' && chars.getLast? == some '\x7d' then
      ofGroups? ((chars.drop 1).take 36)
    else none
  | 45 =>
    if (chars.take 9).map Char.toLower == "urn:uuid:".toList then ofGroups? (chars.drop 9)
    else none
  | _ => none

end Uuid

structure UserId where
  uuid : Uuid
  deriving DecidableEq, Inhabited

structure FileId where
  uuid : Uuid
  deriving DecidableEq, Inhabited

instance : ToString UserId := ⟨fun id => id.uuid.toText⟩
instance : ToString FileId := ⟨fun id => id.uuid.toText⟩

end Strongroom
