import Strongroom.Blob.Store
import Strongroom.Config
import Strongroom.Text.Quoted

/-! # Choosing a store

A store is built from its section of the configuration. An object store over
the network is described but cannot be reached from here.
-/

namespace Strongroom

structure Credentials where
  keyId : String
  secret : String

namespace Credentials

/-- How credentials show themselves in a diagnostic. -/
def redacted (credentials : Credentials) : String :=
  "S3Credentials \x7b access_key_id: " ++ Text.quote credentials.keyId ++
    ", secret_access_key: \"[REDACTED]\" \x7d"

end Credentials

inductive Operator where
  | memory
  /-- A folder, by its canonical path. -/
  | folder (root : Path)
  /-- A bucket, and the lead of all its keys, with a slash at both ends. -/
  | bucket (name root : String)

namespace Operator

def scheme : Operator → String
  | .memory => "memory"
  | .folder _ => "fs"
  | .bucket _ _ => "s3"

/-- The name of a store; memory has none, a folder an empty one. -/
def name? : Operator → Option String
  | .memory => none
  | .folder _ => some ""
  | .bucket name _ => some name

def root : Operator → String
  | .memory => "/"
  | .folder root => root.text
  | .bucket _ root => root

/-- The lead of all keys, with a slash at both ends. -/
def keyRoot (root : String) : String :=
  match BlobStore.joinNames (Path.split root.toList) with
  | "" => "/"
  | names => "/" ++ names ++ "/"

/-- Choose a bucket. An endpoint without encryption may be refused; then
    credentials are needed, then a bucket and a region. -/
def buildBucket (config : StorageConfig) (credentials : Option Credentials) :
    Except Error Operator :=
  if config.endpoint.startsWith "http://" && config.enforceTls then
    .error (.config
      (s!"S3 endpoint uses plaintext HTTP ({config.endpoint}), but enforce_tls is enabled. " ++
        "Use an HTTPS endpoint or set storage.enforce_tls = false for local development."))
  else if credentials.isNone then
    .error (.config
      "S3 backend needs credentials (AWS_ACCESS_KEY_ID / AWS_SECRET_ACCESS_KEY)")
  else if config.bucket.isEmpty || config.region.isEmpty then
    .error (.config "creating S3 operator: ConfigInvalid (permanent) at build")
  else .ok (.bucket config.bucket (keyRoot config.root))

/-- Choose a folder. It is made if nothing is there. -/
def buildFolder (root : Path) : Script (Except DiskFault Operator) := do
  unless ← Script.exists? root do
    if let .error fault ← Script.makeFolders root then return .error fault
  return (← Script.ask (.canonical root)).map .folder

def build (config : StorageConfig) (credentials : Option Credentials) :
    Script (Except Error Operator) := do
  match config.backend with
  | .memory => return .ok .memory
  | .s3 => return buildBucket config credentials
  | .fs =>
    if config.root.isEmpty then
      return .error (.config "creating fs operator at : ConfigInvalid (permanent) at build")
    else
      match ← buildFolder ⟨config.root⟩ with
      | .ok operator => return .ok operator
      | .error fault =>
        let cause := s!"{BlobStore.faultName fault} (permanent) at build"
        return .error (.config s!"creating fs operator at {config.root}: {cause}")

end Operator

end Strongroom
