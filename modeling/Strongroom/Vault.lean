import Strongroom.Catalog.Basic
import Strongroom.Key

/-! # Data keys of users

The data key of a user is resolved anew for every request: its wrapped form is
looked up in the catalog and opened with the master key. Enrolling a user draws
a fresh key and stores it wrapped.
-/

namespace Strongroom.Vault

def resolve (master : MasterKey) (catalog : Catalog) (user : UserId) : Except Error DataKey :=
  match catalog.wrappedKey? user with
  | none => .error (.keyResolution s!"no key for user {user}")
  | some wrapped => DataKey.unwrap master wrapped

/-- Add a user with a fresh data key. The login is trimmed and must not be
    empty; random bytes are drawn even if the user cannot be added. -/
def enroll (master : MasterKey) (catalog : Catalog) (id : UserId) (login : String)
    (random : Entropy) : Script (Except Error UserRecord × Catalog × Entropy) := do
  let login := Text.trim login
  if login.isEmpty then
    return (.error (.invalidInput "login must not be empty"), catalog, random)
  else
    let (key, random) := DataKey.generate random
    let (wrappedKey, random) := key.wrap master random
    let user : UserRecord := { id, login, wrappedKey }
    let (result, catalog) ← catalog.insertUser user
    return (result.map fun _ => user, catalog, random)

end Strongroom.Vault
