import Strongroom.Catalog.Entries
import Strongroom.Json.Parser
import Strongroom.Json.Printer

/-! # The document of a catalog

A catalog is kept as one JSON document with a version. Users are written in the
order of their logins, files in the order of their age and then of their
identifiers, so the text depends on what the catalog holds and on nothing else.
-/

namespace Strongroom.Entries

/-- The version of the documents that are written, and the only one read. -/
def documentVersion : Nat := 1

def writtenBefore (a b : FileRecord) : Bool :=
  a.createdAt < b.createdAt ||
    (a.createdAt = b.createdAt && a.id.uuid.value.toNat ≤ b.id.uuid.value.toNat)

def userWrittenBefore (a b : UserRecord) : Bool :=
  !(b.login < a.login)

def toJson (entries : Entries) : Json :=
  .fields [
    ("version", .whole documentVersion),
    ("users", .array ((entries.users.mergeSort userWrittenBefore).map UserRecord.toJson)),
    ("files", .array ((entries.files.mergeSort writtenBefore).map FileRecord.toJson))]

def toText (entries : Entries) : String :=
  entries.toJson.pretty

def list? {α : Type} (read : Json → Option α) : Option Json → Option (List α)
  | none => some []
  | some (.array items) => items.mapM read
  | some _ => none

/-- Read a document: its version, and what it holds. Of two records with one
    identifier the later one counts. -/
def ofJson? (value : Json) : Option (Nat × Entries) := do
  match ← value.record? ["version", "users", "files"] with
  | [some version, users, files] =>
    let version ← version.nat? maxWord32
    let users ← list? UserRecord.ofJson? users
    let files ← list? FileRecord.ofJson? files
    return (version, files.foldl putFile (users.foldl putUser {}))
  | _ => none

end Strongroom.Entries
