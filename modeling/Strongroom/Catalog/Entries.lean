import Strongroom.Error
import Strongroom.FileRecord
import Strongroom.Text.Quoted

/-! # What a catalog holds

Users and files as lists without a meaning of their order. A file belongs to one
owner and is never replaced; users differ in their identifiers and in their
logins.
-/

namespace Strongroom

structure Entries where
  users : List UserRecord := []
  files : List FileRecord := []
  deriving DecidableEq, Inhabited

namespace Entries

def file? (entries : Entries) (id : FileId) : Option FileRecord :=
  entries.files.find? fun file => file.id = id

def user? (entries : Entries) (id : UserId) : Option UserRecord :=
  entries.users.find? fun user => user.id = id

def wrappedKey? (entries : Entries) (id : UserId) : Option Bytes :=
  (entries.user? id).map UserRecord.wrappedKey

def dropFile (entries : Entries) (id : FileId) : Entries :=
  { entries with files := entries.files.filter fun file => file.id ≠ id }

def dropUser (entries : Entries) (id : UserId) : Entries :=
  { entries with users := entries.users.filter fun user => user.id ≠ id }

def putFile (entries : Entries) (file : FileRecord) : Entries :=
  { entries with files := (entries.dropFile file.id).files ++ [file] }

def putUser (entries : Entries) (user : UserRecord) : Entries :=
  { entries with users := (entries.dropUser user.id).users ++ [user] }

/-- Add a file; its identifier must be new. -/
def insertFile (entries : Entries) (file : FileRecord) : Except Error Entries :=
  if (entries.file? file.id).isSome then
    .error (.storage s!"file record {file.id} already exists")
  else .ok { entries with files := entries.files ++ [file] }

/-- Take out a file of an owner, and give its record. -/
def deleteFile (entries : Entries) (id : FileId) (owner : UserId) :
    Except Error (FileRecord × Entries) :=
  match entries.file? id with
  | some file =>
    if file.owner = owner then .ok (file, entries.dropFile id)
    else .error (.notFound s!"file {id}")
  | none => .error (.notFound s!"file {id}")

/-- Add a user; the identifier and the login must be new. -/
def insertUser (entries : Entries) (user : UserRecord) : Except Error Entries :=
  if (entries.user? user.id).isSome then
    .error (.invalidInput s!"user {user.id} already exists")
  else if entries.users.any fun other => other.login = user.login then
    .error (.invalidInput s!"login {Text.quote user.login} already taken")
  else .ok { entries with users := entries.users ++ [user] }

/-- Whether a file is listed before another: the older one first, then by name. -/
def listedBefore (a b : FileRecord) : Bool :=
  a.createdAt < b.createdAt || (a.createdAt = b.createdAt && !(b.fileName < a.fileName))

def filesOf (entries : Entries) (owner : UserId) : List FileRecord :=
  (entries.files.filter fun file => file.owner = owner).mergeSort listedBefore

end Entries

end Strongroom
