import Strongroom.CommandLine.Command
import Strongroom.CommandLine.Size
import Strongroom.Download
import Strongroom.Service.Transfers

/-! # Running commands

Each command is a script that ends with what is printed and the exit status. A
file is fetched into a hidden file beside its place and moved there last.
-/

namespace Strongroom

inductive Outcome where
  | printed (text : String)
  | failed (failure : Failure)
  /-- The arguments make no sense. -/
  | misused
  /-- The program broke down. -/
  | panicked
  deriving Repr, DecidableEq

namespace Outcome

def status : Outcome → Nat
  | .printed _ => 0
  | .failed _ => 1
  | .misused => 2
  | .panicked => 101

def output : Outcome → String
  | .printed text => text
  | _ => ""

def diagnostics : Outcome → String
  | .printed _ => ""
  | .failed failure => failure.report ++ "\n"
  | .misused => "error: invalid arguments\n\nFor more information, try '--help'.\n"
  | .panicked => "error: a buffer is too large\n"

/-- The outcome of a call that gave no value. -/
def ofHalt (halt : Halt) (explain : Error → Failure) : Outcome :=
  match halt with
  | .failed e => .failed (explain e)
  | .panicked => .panicked

end Outcome

namespace Command

def alignRight (width : Nat) (text : String) : String :=
  String.ofList (List.replicate (width - text.length) ' ') ++ text

def alignLeft (width : Nat) (text : String) : String :=
  text ++ String.ofList (List.replicate (width - text.length) ' ')

def faultWhile (doing : String) (fault : DiskFault) : Failure :=
  ⟨doing, [fault.message]⟩

/-- What is said of a file that cannot be had: one that belongs to someone else
    is not there. -/
def clientFailure (file : FileId) (e : Error) : Failure :=
  match e.forClient with
  | .notFound => ⟨s!"{file}: {ClientError.notFound.message}", []⟩
  | _ => .ofError e

def runShowConfig (path : Path) (config : Config) (found : Bool) : Outcome :=
  match config.toText? with
  | none => .failed ⟨"serializing config to TOML", ["out-of-range value for u64 type"]⟩
  | some text =>
    .printed <|
      (if found then s!"# Configuration from: {path.text}\n"
        else s!"# Configuration: defaults (no file at {path.text})\n") ++ "\n" ++ text

def runAddUser (service : Service) (login : String) : Script Outcome := do
  let (id, ids) := service.ids.draw
  let (result, _) ← { service with ids }.enroll ⟨id⟩ login
  match result with
  | .error e => return .failed ((Failure.ofError e).within s!"enrolling {login}")
  | .ok user => return .printed s!"{user.id}\n"

def pieceSize : Nat := 64 * 1024

def cut (data : Bytes) : List Bytes :=
  (List.range ((data.length + pieceSize - 1) / pieceSize)).map fun i =>
    (data.drop (i * pieceSize)).take pieceSize

/-- The stream of a file: its pieces, or the fault of reading it. -/
def inboundOf (path : Path) : Script (List Inbound) := do
  match ← Script.ask (.read path) with
  | .error fault => return [{ content := .error fault.message }]
  | .ok data => return (cut data).map fun piece => { content := .ok piece }

/-- What is said of a stored file. -/
def receipt (record : FileRecord) : String :=
  s!"  id:      {record.id}\n  name:    {record.fileName}\n" ++
    s!"  bytes:   {Size.text record.fileSize}\n  stored:  {Size.text record.blobSize}\n"

/-- Store a file under its own name or another one. -/
def runPut (service : Service) (user : UserId) (path : Path) (name : Option String) :
    Script Outcome := do
  match name.or path.fileName? with
  | none => return .failed ⟨s!"cannot derive a file name from {path.text}", []⟩
  | some fileName =>
    match ← Script.ask (.openFile path) with
    | .error fault => return .failed (faultWhile s!"opening {path.text}" fault)
    | .ok () =>
      let uploading (e : Error) := (Failure.ofError e).within s!"uploading {path.text}"
      match ← Transfers.upload { service } user fileName (← inboundOf path) with
      | (.error halt, _) => return .ofHalt halt uploading
      | (.ok record, _) => return .printed (receipt record)

/-- The hidden file beside a path that a download is kept in. -/
def partPath (out : Path) : Path :=
  let name := out.fileName?.getD "download"
  out.withFileName s!".{name}.part"

/-- Write the pieces of a download to the end of a file, and bring them to the
    disk. Every piece spends one unit of `fuel`. -/
def fetch (target : Path) : (fuel : Nat) → Download → Script (Except Failure Unit)
  | 0, _ => return .error ⟨"download did not end", []⟩
  | fuel + 1, download =>
    match download.advance with
    | (.error e, _) => return .error (.ofError e)
    | (.ok none, _) => do
      match ← Script.ask (.sync target) with
      | .error fault => return .error ⟨fault.message, []⟩
      | .ok () => return .ok ()
    | (.ok (some piece), download) => do
      match ← Script.ask (.append target piece) with
      | .error fault => return .error ⟨fault.message, []⟩
      | .ok () => fetch target fuel download

/-- Fetch a download into a hidden file and move that into its place. If a piece
    cannot be had or written the hidden file is removed. -/
def receive (service : Service) (download : Download) (out : Path) : Script Outcome := do
  let part := partPath out
  match ← Script.ask (.truncate part) with
  | .error fault => return .failed (faultWhile s!"creating {part.text}" fault)
  | .ok () =>
    let download ← download.load service
    match ← fetch part download.bound download with
    | .error failure =>
      let _ ← Script.ask (.removeFile part)
      return .failed (failure.within s!"downloading {download.record.id}")
    | .ok () =>
      match ← Script.ask (.rename part out) with
      | .error fault => return .failed (faultWhile s!"moving download into {out.text}" fault)
      | .ok () =>
        return .printed s!"  wrote:   {out.text} ({Size.text download.record.fileSize})\n"

/-- Where a file is fetched to: the path asked for, or the last name of the
    stored one. -/
def target? (record : FileRecord) (out : Option Path) : Option Path :=
  out.or ((Path.mk record.fileName).fileName?.map Path.mk)

def runGet (service : Service) (user : UserId) (file : FileId) (out : Option Path) :
    Script Outcome := do
  match ← Download.start service file user with
  | (.error halt, _) => return .ofHalt halt (clientFailure file)
  | (.ok download, service) =>
    match target? download.record out with
    | none =>
      let name := Text.quote download.record.fileName
      return .failed ⟨s!"stored name {name} is not a file name", []⟩
    | some out => receive service download out

/-- One line of a list: identifier, size, age and name. -/
def row (id size created name : String) : String :=
  s!"{alignLeft 36 id}  {alignRight 10 size}  {alignRight 12 created}  {name}\n"

def runList (service : Service) (user : UserId) : Outcome :=
  match service.listFiles user with
  | [] => .printed "no files\n"
  | files =>
    .printed <| row "ID" "SIZE" "CREATED" "NAME" ++
      String.join (files.map fun file =>
        row (toString file.id) (Size.text file.fileSize) (toString file.createdAt) file.fileName)

def runRemove (service : Service) (user : UserId) (file : FileId) : Script Outcome := do
  match ← service.deleteFile file user with
  | (.error e, _) => return .failed (clientFailure file e)
  | (.ok (), _) => return .printed s!"deleted {file}\n"

end Command

namespace Invocation

/-- Load the configuration and run the command. All but showing the
    configuration open the service first. -/
def run (env : Environment) (invocation : Invocation) (random : Entropy) (ids : IdSupply)
    (clock : Nat) : Script Outcome := do
  let path := Path.expandTilde env.home invocation.config
  match ← Config.load path with
  | .error failure => return .failed failure
  | .ok (config, found) =>
    let serve (act : Service → Script Outcome) : Script Outcome := do
      match ← Service.openConfigured env config random ids clock with
      | .error failure => return .failed failure
      | .ok service => act service
    match invocation.command with
    | .showConfig => return Command.runShowConfig path config found
    | .addUser login => serve (Command.runAddUser · login)
    | .put user path name => serve (Command.runPut · user path name)
    | .get user file out => serve (Command.runGet · user file out)
    | .list user => serve fun service => return Command.runList service user
    | .remove user file => serve (Command.runRemove · user file)

end Invocation

/-- The variables that a run may look at, but for one that the configuration may
    name. -/
def Environment.names : List String :=
  [ "HOME", "LOCKBOX_CONFIG", "LOCKBOX_LOG", "LOCKBOX_LOG_FORMAT", "LOCKBOX_USER",
    "AWS_ACCESS_KEY_ID", "LOCKBOX_ACCESS_KEY_ID", "AWS_SECRET_ACCESS_KEY",
    "LOCKBOX_SECRET_ACCESS_KEY"]

/-- The variable that the configuration names for the master key. -/
def Request.keyVariable (env : Environment) : Request → Script (Option String)
  | .run invocation => do
    let loaded ← Config.load (Path.expandTilde env.home invocation.config)
    return loaded.toOption.map fun (config, _) => config.vault.masterKeyEnv
  | _ => return none

def helpText : String :=
  "Encrypted file vault\n\nUsage: lockbox [OPTIONS] <COMMAND>\n\nCommands:\n" ++
    "  config show              show the configuration\n" ++
    "  user add <LOGIN>         enroll a user\n" ++
    "  put -u <USER> <PATH>     encrypt and store a file\n" ++
    "  get -u <USER> <FILE_ID>  fetch and decrypt a file\n" ++
    "  ls -u <USER>             list stored files\n" ++
    "  rm -u <USER> <FILE_ID>   delete a file\n"

def versionText : String :=
  "lockbox 0.1.0\n"

def Request.perform (env : Environment) (request : Request) (random : Entropy) (ids : IdSupply)
    (clock : Nat) : Script Outcome :=
  match request with
  | .help => return .printed helpText
  | .version => return .printed versionText
  | .misuse => return .misused
  | .run invocation => invocation.run env random ids clock

end Strongroom
