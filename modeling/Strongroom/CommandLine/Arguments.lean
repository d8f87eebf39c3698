import Strongroom.Setup

/-! # Reading arguments

Arguments are read from left to right and level by level: the options of the
program, then a command with options and places of its own. A value is judged
when the next thing comes. So a request for help is answered if nothing before
it was wrong, and what a command asks for comes before the judgement on the
value just in front of it.
-/

namespace Strongroom

/-- An option that takes a value. -/
structure OptionRule where
  long : String
  short : Option Char
  /-- The environment variable that counts where the option is not given. -/
  standIn : Option String
  accepts : String → Bool

/-- What may be written at one level. -/
inductive Usage where
  /-- Options, values by place, whether the version can be asked for, and
      commands with what may follow them. -/
  | level (options : List OptionRule) (places : List (String → Bool)) (hasVersion : Bool)
      (commands : List (String × Usage))

structure Given where
  /-- The values of options, by their long names. -/
  options : List (String × String) := []
  places : List String := []
  deriving Repr, DecidableEq

def Given.option? (given : Given) (long : String) : Option String :=
  given.options.lookup long

inductive Reading where
  /-- The commands named, and the values at each level, outermost first. -/
  | complete (commands : List String) (levels : List Given)
  | help
  | version
  | misuse
  deriving Repr, DecidableEq

/-- How far a level has been read. -/
structure Progress where
  given : Given := {}
  awaiting : Option OptionRule := none
  /-- Whether the value taken last will do. -/
  sound : Bool := true
  /-- Whether all that follows are values by place. -/
  literal : Bool := false

namespace Progress

def ready (p : Progress) : Bool :=
  p.awaiting.isNone && p.sound

/-- Take the value of an option. It will not do if there is one already. -/
def takeOption (p : Progress) (rule : OptionRule) (value : String) : Progress :=
  { p with
    given := { p.given with options := p.given.options ++ [(rule.long, value)] }
    awaiting := none
    sound := rule.accepts value && (p.given.option? rule.long).isNone }

end Progress

inductive Word where
  | long (name : String) (value : Option String)
  | short (letter : Char) (rest : List Char)
  | plain
  deriving Repr, DecidableEq

/-- The shape of an argument. A single hyphen is plain. -/
def Word.ofArgument (argument : String) : Word :=
  match argument.toList with
  | '-' :: '-' :: name =>
    let rest := name.dropWhile (· ≠ '=')
    .long (String.ofList (name.takeWhile (· ≠ '=')))
      (if rest.isEmpty then none else some (String.ofList (rest.drop 1)))
  | '-' :: letter :: rest => .short letter rest
  | _ => .plain

namespace Usage

def options : Usage → List OptionRule
  | .level options _ _ _ => options

/-- What is accepted at each place. -/
def places : Usage → List (String → Bool)
  | .level _ places _ _ => places

def hasVersion : Usage → Bool
  | .level _ _ hasVersion _ => hasVersion

def commands : Usage → List (String × Usage)
  | .level _ _ _ commands => commands

/-- Whether help can be had on a command, named from the outside in. -/
def explains : Usage → List String → Bool
  | _, [] => true
  | usage, name :: names =>
    match usage.commands.lookup name with
    | some inner => explains inner names
    | none => name == "help" && !usage.commands.isEmpty && names.isEmpty

/-- Look to the environment for the options not given. Nothing if it holds a
    value that will not do. -/
def fillIn? (env : Environment) (usage : Usage) (given : Given) : Option Given :=
  usage.options.foldlM (fun given rule =>
    match given.option? rule.long, rule.standIn.bind env with
    | none, some value =>
      if rule.accepts value then
        some { given with options := given.options ++ [(rule.long, value)] }
      else none
    | _, _ => some given) given

def takePlace (usage : Usage) (p : Progress) (value : String) : Option Progress :=
  if p.ready then
    usage.places[p.given.places.length]?.map fun accepts =>
      { p with
        given := { p.given with places := p.given.places ++ [value] }
        sound := accepts value }
  else none

def meetOption (p : Progress) (rule : OptionRule) (attached : Option String) :
    Except Reading Progress :=
  if !p.ready then .error .misuse
  else
    match attached with
    | none => .ok { p with awaiting := some rule }
    | some value =>
      let p := p.takeOption rule value
      if p.ready then .ok p else .error .misuse

/-- Meet a word: go on, or come to an end. -/
def meet (usage : Usage) (p : Progress) (argument : String) : Word → Except Reading Progress
  | .long "help" attached => .error (if p.ready && attached.isNone then .help else .misuse)
  | .short 'h' _ => .error (if p.ready then .help else .misuse)
  | .long name attached =>
    match usage.options.find? fun rule => rule.long == name with
    | some rule => meetOption p rule attached
    | none =>
      .error (if name == "version" && usage.hasVersion && p.ready && attached.isNone then .version
        else .misuse)
  | .short letter rest =>
    match usage.options.find? fun rule => rule.short == some letter with
    | some rule =>
      meetOption p rule (match rest with
        | [] => none
        | '=' :: value => some (String.ofList value)
        | value => some (String.ofList value))
    | none => .error (if letter == 'V' && usage.hasVersion && p.ready then .version else .misuse)
  | .plain =>
    match p.awaiting with
    | some rule => .ok (p.takeOption rule argument)
    | none =>
      match usage.takePlace p argument with
      | some p => .ok p
      | none => .error .misuse

/-- A level has come to its end: nothing may be wrong, and the environment is
    asked for the rest. -/
def close (env : Environment) (usage : Usage) (p : Progress) (commands : List String)
    (levels : List Given) : Reading :=
  if p.ready then
    match usage.fillIn? env p.given with
    | some given => .complete commands (given :: levels)
    | none => .misuse
  else .misuse

def readFrom (env : Environment) : List String → Usage → Progress → Reading
  | [], usage, p => if usage.commands.isEmpty then usage.close env p [] [] else .misuse
  | argument :: rest, usage, p =>
    if p.literal then
      match usage.takePlace p argument with
      | some p => readFrom env rest usage p
      | none => .misuse
    else
      match (if p.awaiting.isNone then usage.commands.lookup argument else none) with
      | some inner =>
        match readFrom env rest inner {} with
        | .complete commands levels => usage.close env p (argument :: commands) levels
        | reading => reading
      | none =>
        if p.awaiting.isNone && argument == "help" && !usage.commands.isEmpty then
          if usage.explains rest then .help else .misuse
        else if argument == "--" then readFrom env rest usage { p with literal := true }
        else
          match usage.meet p argument (Word.ofArgument argument) with
          | .ok p => readFrom env rest usage p
          | .error reading => reading

def read (env : Environment) (usage : Usage) (arguments : List String) : Reading :=
  readFrom env arguments usage {}

end Usage

end Strongroom
