import Strongroom.CommandLine.Arguments

/-! # Commands

What the program can be asked to do, and how that is written.
-/

namespace Strongroom

inductive Command where
  | showConfig
  | addUser (login : String)
  /-- Store a file, perhaps under another name. -/
  | put (user : UserId) (path : Path) (name : Option String)
  /-- Fetch a file, perhaps to a path of its own. -/
  | get (user : UserId) (file : FileId) (out : Option Path)
  | list (user : UserId)
  | remove (user : UserId) (file : FileId)
  deriving DecidableEq

structure Invocation where
  config : Path
  command : Command
  deriving DecidableEq

inductive Request where
  | run (invocation : Invocation)
  | help
  | version
  | misuse
  deriving DecidableEq

namespace Command

def isPath (text : String) : Bool :=
  !text.isEmpty

/-- Whether a text names a user or a file. -/
def isId (text : String) : Bool :=
  (Uuid.parse? text).isSome

def userRule : OptionRule :=
  ⟨"user", some 'u', some "LOCKBOX_USER", isId⟩

def usage : Usage :=
  .level
    [ ⟨"config", some 'c', some "LOCKBOX_CONFIG", isPath⟩,
      ⟨"log", none, some "LOCKBOX_LOG", fun _ => true⟩,
      ⟨"log-format", none, some "LOCKBOX_LOG_FORMAT",
        fun text => text == "json" || text == "text"⟩]
    [] true
    [ ("config", .level [] [] false [("show", .level [] [] false [])]),
      ("user", .level [] [] false [("add", .level [] [fun _ => true] false [])]),
      ("put", .level [userRule, ⟨"name", some 'n', none, fun _ => true⟩] [isPath] false []),
      ("get", .level [userRule] [isId, isPath] false []),
      ("ls", .level [userRule] [] false []),
      ("rm", .level [userRule] [isId] false [])]

/-- Where the configuration is if nothing else is said. -/
def defaultConfig : Path :=
  ⟨"~/.config/lockbox/lockbox.toml"⟩

def user? (given : Given) : Option UserId :=
  (given.option? "user").bind fun text => (Uuid.parse? text).map UserId.mk

def file? (text : String) : Option FileId :=
  (Uuid.parse? text).map FileId.mk

/-- The command with the given names and values, if nothing is missing. -/
def ofGiven? (names : List String) (given : Given) : Option Command :=
  match names, given.places with
  | ["config", "show"], [] => some .showConfig
  | ["user", "add"], [login] => some (.addUser login)
  | ["put"], [path] => do return .put (← user? given) ⟨path⟩ (given.option? "name")
  | ["get"], [file] => do return .get (← user? given) (← file? file) none
  | ["get"], [file, out] => do return .get (← user? given) (← file? file) (some ⟨out⟩)
  | ["ls"], [] => do return .list (← user? given)
  | ["rm"], [file] => do return .remove (← user? given) (← file? file)
  | _, _ => none

end Command

def Request.ofArguments (env : Environment) (arguments : List String) : Request :=
  match Command.usage.read env arguments with
  | .help => .help
  | .version => .version
  | .misuse => .misuse
  | .complete names levels =>
    match levels.head?, levels.getLast? with
    | some outer, some inner =>
      match Command.ofGiven? names inner with
      | some command =>
        .run ⟨((outer.option? "config").map Path.mk).getD Command.defaultConfig, command⟩
      | none => .misuse
    | _, _ => .misuse

end Strongroom
