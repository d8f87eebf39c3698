import Strongroom.Blob.Operator
import Strongroom.Failure
import Strongroom.Service.Basic

/-! # Setting up

From a configuration, the environment and the disk to a service: the master key
is loaded first, then the store and the catalog are opened, and last the
settings of the transfers are checked.
-/

namespace Strongroom

/-- The environment variables that are set. -/
abbrev Environment := String → Option String

/-- The home folder; empty if it is not known. -/
def Environment.home (env : Environment) : String :=
  (env "HOME").getD ""

/-- What is said of a variable that is not set. -/
def Environment.missing : String :=
  "environment variable not found"

/-- Read the configuration at a path. Where there is none the defaults hold;
    whether there was one is told. -/
def Config.load (path : Path) : Script (Except Failure (Config × Bool)) := do
  if ← Script.exists? path then
    match ← Script.readText path with
    | .error fault => return .error ⟨s!"reading config: {path.text}", [fault.message]⟩
    | .ok text =>
      match Config.parse? text with
      | some config => return .ok (config, true)
      | none => return .error ⟨s!"parsing config: {path.text}", ["TOML parse error"]⟩
  else return .ok ({}, false)

namespace MasterKey

/-- The text that the master key comes from: a file, or else a variable. -/
def material (env : Environment) (vault : VaultConfig) : Script (Except Failure String) := do
  match vault.masterKeyFile with
  | some file =>
    let path := Path.expandTilde env.home ⟨file⟩
    match ← Script.readText path with
    | .error fault => return .error ⟨s!"reading master key file: {path.text}", [fault.message]⟩
    | .ok text => return .ok text
  | none =>
    match env vault.masterKeyEnv with
    | some text => return .ok text
    | none =>
      return .error ⟨"master key not configured\nSet vault.master_key_file in the config, or " ++
        s!"export {vault.masterKeyEnv}.", [Environment.missing]⟩

/-- The master key that a text stands for: hexadecimal digits, or with a salt a
    passphrase, whose line ends do not count. -/
def ofMaterial (vault : VaultConfig) (text : String) : Except Failure MasterKey :=
  match vault.kdfSalt with
  | none => (ofHex text).mapError Failure.ofError
  | some salt =>
    match Hex.decode (Text.trim salt) with
    | .error fault => .error ⟨"vault.kdf_salt is not valid hex", [fault.message]⟩
    | .ok salt =>
      (ofPassphrase (Text.trimLineEnds text) salt vault.cost).mapError Failure.ofError

def load (env : Environment) (vault : VaultConfig) : Script (Except Failure MasterKey) := do
  return (← material env vault).bind (ofMaterial vault)

end MasterKey

/-- The value of the first of two variables that is set. -/
def Environment.either (env : Environment) (first second : String) : Option String :=
  (env first).or (env second)

def Credentials.ofEnvironment (env : Environment) : Except Failure Credentials :=
  match env.either "AWS_ACCESS_KEY_ID" "LOCKBOX_ACCESS_KEY_ID" with
  | none =>
    .error ⟨"S3 credentials not set\nSet AWS_ACCESS_KEY_ID and AWS_SECRET_ACCESS_KEY " ++
      "environment variables.", [Environment.missing]⟩
  | some keyId =>
    match env.either "AWS_SECRET_ACCESS_KEY" "LOCKBOX_SECRET_ACCESS_KEY" with
    | none =>
      .error ⟨"AWS_SECRET_ACCESS_KEY environment variable not set", [Environment.missing]⟩
    | some secret => .ok ⟨keyId, secret⟩

namespace Service

/-- Open the store that a configuration names. A store over the network is never
    reached. -/
def openStore (env : Environment) (config : StorageConfig) :
    Script (Except Failure BlobStore) := do
  let found : Except Failure (StorageConfig × Option Credentials) :=
    match config.backend with
    | .s3 => (Credentials.ofEnvironment env).map fun credentials => (config, some credentials)
    | .fs =>
      .ok ({ config with root := (Path.expandTilde env.home ⟨config.root⟩).text }, none)
    | .memory => .ok (config, none)
  match found with
  | .error failure => return .error failure
  | .ok (config, credentials) =>
    match ← Operator.build config credentials with
    | .error e => return .error ((Failure.ofError e).within "building storage operator")
    | .ok .memory => return .ok (.memory [])
    | .ok (.folder root) => return .ok (.folder root)
    | .ok (.bucket _ _) =>
      return .error ((Failure.ofError (.storage "storage health check failed")).within
        "storage is unreachable")

/-- Open the catalog that a configuration names. With a store in memory the
    catalog is there too. -/
def openCatalog (env : Environment) (config : Config) : Script (Except Failure Catalog) := do
  match config.storage.backend with
  | .memory => return .ok (.memory {})
  | _ =>
    let path := Path.expandTilde env.home ⟨config.vault.catalog⟩
    return (← Catalog.openFile path).mapError fun e =>
      (Failure.ofError e).within s!"opening catalog: {path.text}"

def openConfigured (env : Environment) (config : Config) (random : Entropy) (ids : IdSupply)
    (clock : Nat) : Script (Except Failure Service) := do
  match ← MasterKey.load env config.vault with
  | .error failure => return .error failure
  | .ok master =>
    match ← openStore env config.storage with
    | .error failure => return .error failure
    | .ok blobs =>
      match ← openCatalog env config with
      | .error failure => return .error failure
      | .ok catalog =>
        return (create blobs catalog master config.transfer random ids clock).mapError
          Failure.ofError

end Service

end Strongroom
