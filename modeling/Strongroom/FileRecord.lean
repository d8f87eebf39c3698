import Strongroom.Json.Value
import Strongroom.Toml.Printer
import Strongroom.Uuid

/-! # Records of users and files

What the catalog knows of a user and of a file, with their forms as JSON and
TOML values.
-/

namespace Strongroom

structure FileRecord where
  id : FileId
  owner : UserId
  fileName : String
  fileSize : Nat
  blobName : String
  blobSize : Nat
  /-- Seconds since 1970. -/
  createdAt : Nat
  deriving DecidableEq, Inhabited

/-- A user with the wrapped data key. -/
structure UserRecord where
  id : UserId
  login : String
  wrappedKey : Bytes
  deriving DecidableEq, Inhabited

/-- The identifier that a JSON string spells. -/
def Json.uuid? (value : Json) : Option Uuid :=
  value.text?.bind Uuid.parse?

/-- The identifier that a TOML string spells, or an array of at least sixteen
    bytes. -/
def Toml.uuid? : Toml → Option Uuid
  | .string text => Uuid.parse? text
  | .array items => do
    guard (16 ≤ items.length)
    return Uuid.ofBytes (← (Toml.array (items.take 16)).bytes?)
  | _ => none

namespace FileRecord

def fieldNames : List String :=
  ["id", "owner", "file_name", "file_size", "blob_name", "blob_size", "created_at"]

def toJson (record : FileRecord) : Json :=
  .fields [
    ("id", .text record.id.uuid.toText),
    ("owner", .text record.owner.uuid.toText),
    ("file_name", .text record.fileName),
    ("file_size", .whole record.fileSize),
    ("blob_name", .text record.blobName),
    ("blob_size", .whole record.blobSize),
    ("created_at", .whole record.createdAt)]

def ofJson? (value : Json) : Option FileRecord := do
  match ← value.record? fieldNames with
  | [some id, some owner, some fileName, some fileSize, some blobName, some blobSize,
      some createdAt] =>
    return {
      id := ⟨← id.uuid?⟩
      owner := ⟨← owner.uuid?⟩
      fileName := ← fileName.text?
      fileSize := ← fileSize.nat? maxWord64
      blobName := ← blobName.text?
      blobSize := ← blobSize.nat? maxWord64
      createdAt := ← createdAt.nat? maxWord64 }
  | _ => none

def toToml (record : FileRecord) : List (String × Toml) :=
  [ ("id", .string record.id.uuid.toText),
    ("owner", .string record.owner.uuid.toText),
    ("file_name", .string record.fileName),
    ("file_size", .integer record.fileSize),
    ("blob_name", .string record.blobName),
    ("blob_size", .integer record.blobSize),
    ("created_at", .integer record.createdAt)]

def ofToml? (value : Toml) : Option FileRecord := do
  match ← value.record? fieldNames with
  | [some id, some owner, some fileName, some fileSize, some blobName, some blobSize,
      some createdAt] =>
    return {
      id := ⟨← id.uuid?⟩
      owner := ⟨← owner.uuid?⟩
      fileName := ← fileName.text?
      fileSize := ← fileSize.nat? maxWord64
      blobName := ← blobName.text?
      blobSize := ← blobSize.nat? maxWord64
      createdAt := ← createdAt.nat? maxWord64 }
  | _ => none

end FileRecord

namespace UserRecord

def fieldNames : List String :=
  ["id", "login", "wrapped_key"]

def toJson (record : UserRecord) : Json :=
  .fields [
    ("id", .text record.id.uuid.toText),
    ("login", .text record.login),
    ("wrapped_key", .bytes record.wrappedKey)]

def ofJson? (value : Json) : Option UserRecord := do
  match ← value.record? fieldNames with
  | [some id, some login, some wrappedKey] =>
    return {
      id := ⟨← id.uuid?⟩
      login := ← login.text?
      wrappedKey := ← wrappedKey.bytes? }
  | _ => none

def toToml (record : UserRecord) : List (String × Toml) :=
  [ ("id", .string record.id.uuid.toText),
    ("login", .string record.login),
    ("wrapped_key", .array (record.wrappedKey.map fun byte => .integer byte.toNat))]

def ofToml? (value : Toml) : Option UserRecord := do
  match ← value.record? fieldNames with
  | [some id, some login, some wrappedKey] =>
    return {
      id := ⟨← id.uuid?⟩
      login := ← login.text?
      wrappedKey := ← wrappedKey.bytes? }
  | _ => none

end UserRecord

end Strongroom
