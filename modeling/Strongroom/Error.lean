/-! # Errors

Every operation of the store fails with one of these errors. The owner of the
service reads the full message; a client is told a coarser one that does not
say whether a foreign file exists.
-/

namespace Strongroom

/-- Why an operation failed. Most kinds carry a detail for the operator. -/
inductive Error where
  /-- The data key of a user cannot be obtained. -/
  | keyResolution (detail : String)
  /-- A sealed block does not open under the key. -/
  | authentication
  /-- A record stream breaks the rules of its form. -/
  | framing (detail : String)
  /-- A store or catalog did not do its part. -/
  | storage (detail : String)
  | notFound (detail : String)
  | permissionDenied (detail : String)
  | cancelled
  | invalidInput (detail : String)
  | config (detail : String)
  | io (detail : String)
  | other (text : String)
  deriving Repr, DecidableEq, Inhabited

/-- What a client of the service learns of an error. -/
inductive ClientError where
  | notFound
  | cancelled
  | invalidArgument
  | internal
  deriving Repr, DecidableEq

def ClientError.name : ClientError → String
  | .notFound => "NotFound"
  | .cancelled => "Cancelled"
  | .invalidArgument => "InvalidArgument"
  | .internal => "Internal"

def ClientError.message : ClientError → String
  | .notFound => "file not found"
  | .cancelled => "request cancelled"
  | .invalidArgument => "invalid request"
  | .internal => "internal error"

namespace Error

def message : Error → String
  | .keyResolution detail => s!"key resolution failed: {detail}"
  | .authentication => "block authentication failed"
  | .framing detail => s!"malformed cipher stream: {detail}"
  | .storage detail => s!"storage error: {detail}"
  | .notFound detail => s!"not found: {detail}"
  | .permissionDenied detail => s!"permission denied: {detail}"
  | .cancelled => "transfer cancelled"
  | .invalidInput detail => s!"invalid input: {detail}"
  | .config detail => s!"config error: {detail}"
  | .io detail => s!"I/O error: {detail}"
  | .other text => text

def kind : Error → String
  | .keyResolution _ => "KeyResolution"
  | .authentication => "Authentication"
  | .framing _ => "Framing"
  | .storage _ => "Storage"
  | .notFound _ => "NotFound"
  | .permissionDenied _ => "PermissionDenied"
  | .cancelled => "Cancelled"
  | .invalidInput _ => "InvalidInput"
  | .config _ => "Config"
  | .io _ => "Io"
  | .other _ => "Other"

/-- The error of a kind. A kind without a detail passes over `detail`. -/
def ofKind? (kind detail : String) : Option Error :=
  [ keyResolution detail, authentication, framing detail, storage detail, notFound detail,
    permissionDenied detail, cancelled, invalidInput detail, config detail, io detail,
    other detail].find? fun e => e.kind == kind

/-- What a client is told: a file that belongs to someone else looks like one
    that does not exist. -/
def forClient : Error → ClientError
  | .notFound _ | .permissionDenied _ => .notFound
  | .cancelled => .cancelled
  | .invalidInput _ => .invalidArgument
  | _ => .internal

/-- The message with the causes under it, outermost first. -/
def chain (e : Error) : List String :=
  match e with
  | .io detail => [e.message, detail]
  | _ => [e.message]

end Error

end Strongroom
