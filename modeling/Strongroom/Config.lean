import Strongroom.Error
import Strongroom.Block
import Strongroom.Json.Value
import Strongroom.Toml.Parser
import Strongroom.Toml.Printer

/-! # Configuration

Four sections, each with a default for every setting. The configuration is read
from a TOML document in which anything may be missing, and written as one in
which nothing is, but for the two settings that need not be set.
-/

namespace Strongroom

inductive Backend where
  | fs
  | s3
  | memory
  deriving Repr, DecidableEq, Inhabited

namespace Backend

def name : Backend → String
  | .fs => "fs"
  | .s3 => "s3"
  | .memory => "memory"

def ofName? : String → Option Backend
  | "fs" => some .fs
  | "s3" => some .s3
  | "memory" => some .memory
  | _ => none

end Backend

structure StorageConfig where
  backend : Backend := .fs
  /-- The folder of the local backend, or a lead of all keys in an object store. -/
  root : String := "~/.local/share/lockbox/blobs"
  endpoint : String := "http://localhost:9000"
  region : String := "us-east-1"
  bucket : String := "lockbox"
  /-- Whether an endpoint without encryption is refused. -/
  enforceTls : Bool := false
  deriving Repr, DecidableEq, Inhabited

/-- Where the catalog is and where the master key comes from. -/
structure VaultConfig where
  catalog : String := "~/.local/share/lockbox/catalog.json"
  masterKeyFile : Option String := none
  /-- The environment variable to look at when there is no key file. -/
  masterKeyEnv : String := "LOCKBOX_MASTER_KEY"
  /-- Given, the master key is stretched from a passphrase with this salt. -/
  kdfSalt : Option String := none
  argon2Memory : Nat := 65536
  argon2Passes : Nat := 3
  argon2Lanes : Nat := 4
  deriving Repr, DecidableEq, Inhabited

structure TransferConfig where
  /-- Bytes of plaintext in a block. -/
  blockSize : Nat := 1024
  /-- Records between the encoder and the writer. -/
  handoffDepth : Nat := 1
  readBufferSize : Nat := 8192
  /-- The most bytes of one piece of a download. -/
  downloadChunkSize : Nat := 4096
  deriving Repr, DecidableEq, Inhabited

structure LogConfig where
  level : String := "info"
  format : String := "text"
  deriving Repr, DecidableEq, Inhabited

structure Config where
  storage : StorageConfig := {}
  vault : VaultConfig := {}
  transfer : TransferConfig := {}
  log : LogConfig := {}
  deriving Repr, DecidableEq, Inhabited

inductive TransferConfig.Fault where
  | blockSize (n : Nat)
  | handoffDepth
  | readBufferSize
  | downloadChunkSize
  deriving Repr, DecidableEq

def TransferConfig.Fault.message : TransferConfig.Fault → String
  | .blockSize n => s!"transfer.block_size must be in 1..={Block.maxSize}, got {n}"
  | .handoffDepth => "transfer.handoff_depth must be at least 1"
  | .readBufferSize => "transfer.read_buffer_size must be non-zero"
  | .downloadChunkSize => "transfer.download_chunk_size must be non-zero"

namespace TransferConfig

/-- The first fault, in the order of the settings. -/
def fault? (config : TransferConfig) : Option Fault :=
  if config.blockSize = 0 ∨ Block.maxSize < config.blockSize then
    some (.blockSize config.blockSize)
  else if config.handoffDepth = 0 then some .handoffDepth
  else if config.readBufferSize = 0 then some .readBufferSize
  else if config.downloadChunkSize = 0 then some .downloadChunkSize
  else none

def validate (config : TransferConfig) : Except Error Unit :=
  match config.fault? with
  | some fault => .error (.config fault.message)
  | none => .ok ()

end TransferConfig

/-- Read a setting; a missing one has its default. -/
def setting {α β : Type} (default : β) (read : α → Option β) : Option α → Option β
  | none => some default
  | some value => read value

namespace StorageConfig

def fieldNames : List String :=
  ["backend", "root", "endpoint", "region", "bucket", "enforce_tls"]

def ofToml? (value : Toml) : Option StorageConfig := do
  let base : StorageConfig := {}
  match ← value.record? fieldNames with
  | [backend, root, endpoint, region, bucket, enforceTls] =>
    return {
      backend := ← setting base.backend (fun v => v.choice?.bind Backend.ofName?) backend
      root := ← setting base.root Toml.text? root
      endpoint := ← setting base.endpoint Toml.text? endpoint
      region := ← setting base.region Toml.text? region
      bucket := ← setting base.bucket Toml.text? bucket
      enforceTls := ← setting base.enforceTls Toml.bool? enforceTls }
  | _ => none

/-- The backend that a JSON value names: a string, or an object whose one
    member has no value. -/
def backendOfJson? : Json → Option Backend
  | .string text => text.bind Backend.ofName?
  | .object [(name, .null)] => name.bind Backend.ofName?
  | _ => none

def ofJson? (value : Json) : Option StorageConfig := do
  let base : StorageConfig := {}
  match ← value.record? fieldNames with
  | [backend, root, endpoint, region, bucket, enforceTls] =>
    return {
      backend := ← setting base.backend backendOfJson? backend
      root := ← setting base.root Json.text? root
      endpoint := ← setting base.endpoint Json.text? endpoint
      region := ← setting base.region Json.text? region
      bucket := ← setting base.bucket Json.text? bucket
      enforceTls := ← setting base.enforceTls Json.bool? enforceTls }
  | _ => none

def values (config : StorageConfig) : List (Option Toml) :=
  [ some (.string config.backend.name),
    some (.string config.root),
    some (.string config.endpoint),
    some (.string config.region),
    some (.string config.bucket),
    some (.boolean config.enforceTls)]

end StorageConfig

namespace VaultConfig

def fieldNames : List String :=
  ["catalog", "master_key_file", "master_key_env", "kdf_salt", "argon2_mem_cost_kib",
    "argon2_time_cost", "argon2_parallelism"]

def ofToml? (value : Toml) : Option VaultConfig := do
  let base : VaultConfig := {}
  match ← value.record? fieldNames with
  | [catalog, masterKeyFile, masterKeyEnv, kdfSalt, argon2Memory, argon2Passes, argon2Lanes] =>
    return {
      catalog := ← setting base.catalog Toml.text? catalog
      masterKeyFile := ← setting base.masterKeyFile (·.text?.map some) masterKeyFile
      masterKeyEnv := ← setting base.masterKeyEnv Toml.text? masterKeyEnv
      kdfSalt := ← setting base.kdfSalt (·.text?.map some) kdfSalt
      argon2Memory := ← setting base.argon2Memory (Toml.nat? maxWord32) argon2Memory
      argon2Passes := ← setting base.argon2Passes (Toml.nat? maxWord32) argon2Passes
      argon2Lanes := ← setting base.argon2Lanes (Toml.nat? maxWord32) argon2Lanes }
  | _ => none

/-- The values of the settings, in order; two of them need not have any. -/
def values (config : VaultConfig) : List (Option Toml) :=
  [ some (.string config.catalog),
    config.masterKeyFile.map .string,
    some (.string config.masterKeyEnv),
    config.kdfSalt.map .string,
    some (.integer config.argon2Memory),
    some (.integer config.argon2Passes),
    some (.integer config.argon2Lanes)]

def cost (config : VaultConfig) : Argon2id.Cost :=
  ⟨config.argon2Memory, config.argon2Passes, config.argon2Lanes⟩

end VaultConfig

namespace TransferConfig

def fieldNames : List String :=
  ["block_size", "handoff_depth", "read_buffer_size", "download_chunk_size"]

def ofToml? (value : Toml) : Option TransferConfig := do
  let base : TransferConfig := {}
  match ← value.record? fieldNames with
  | [blockSize, handoffDepth, readBufferSize, downloadChunkSize] =>
    return {
      blockSize := ← setting base.blockSize (Toml.nat? maxWord64) blockSize
      handoffDepth := ← setting base.handoffDepth (Toml.nat? maxWord64) handoffDepth
      readBufferSize := ← setting base.readBufferSize (Toml.nat? maxWord64) readBufferSize
      downloadChunkSize :=
        ← setting base.downloadChunkSize (Toml.nat? maxWord64) downloadChunkSize }
  | _ => none

def values (config : TransferConfig) : List (Option Toml) :=
  [ some (.integer config.blockSize),
    some (.integer config.handoffDepth),
    some (.integer config.readBufferSize),
    some (.integer config.downloadChunkSize)]

end TransferConfig

namespace LogConfig

def fieldNames : List String :=
  ["level", "format"]

def ofToml? (value : Toml) : Option LogConfig := do
  let base : LogConfig := {}
  match ← value.record? fieldNames with
  | [level, format] =>
    return {
      level := ← setting base.level Toml.text? level
      format := ← setting base.format Toml.text? format }
  | _ => none

def values (config : LogConfig) : List (Option Toml) :=
  [some (.string config.level), some (.string config.format)]

end LogConfig

namespace Config

def sectionNames : List String :=
  ["storage", "vault", "transfer", "log"]

/-- Read the sections from the table of a document. -/
def ofToml? (value : Toml) : Option Config := do
  match ← value.record? sectionNames with
  | [storage, vault, transfer, log] =>
    return {
      storage := ← setting {} StorageConfig.ofToml? storage
      vault := ← setting {} VaultConfig.ofToml? vault
      transfer := ← setting {} TransferConfig.ofToml? transfer
      log := ← setting {} LogConfig.ofToml? log }
  | _ => none

def parse? (text : String) : Option Config :=
  (Toml.parse? text).bind ofToml?

/-- The sections, each with the names and values of its settings. -/
def sections (config : Config) : List (String × List (String × Option Toml)) :=
  [ ("storage", StorageConfig.fieldNames.zip config.storage.values),
    ("vault", VaultConfig.fieldNames.zip config.vault.values),
    ("transfer", TransferConfig.fieldNames.zip config.transfer.values),
    ("log", LogConfig.fieldNames.zip config.log.values)]

/-- The document that shows every setting that has a value. -/
def toText? (config : Config) : Option String :=
  Toml.ofSections? (config.sections.map fun (part, settings) =>
    (part, settings.filterMap fun (name, value) => value.map fun value => (name, value)))

end Config

end Strongroom
