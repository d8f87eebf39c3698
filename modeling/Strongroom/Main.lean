import Std.Time.DateTime.Timestamp
import Strongroom.CommandLine.Run
import Strongroom.CommandLine.Seed

/-! # The program

Scripts are done on the real disk, with random bytes and the time of day from
the system. Nothing is decided here.
-/

namespace Strongroom

/-- The fault that an error of the system stands for. -/
def DiskFault.ofSystem (e : IO.Error) : DiskFault :=
  match e with
  | .noFileOrDirectory _ _ _ => .notFound
  | .alreadyExists _ _ _ => .exists
  | .inappropriateType _ 20 _ => .notFolder
  | .inappropriateType _ 21 _ => .isFolder
  | .unsatisfiedConstraints 39 _ => .notEmpty
  | e => .other (toString e)

/-- Do something that may fail. -/
def attempt {α : Type} (act : IO α) : BaseIO (Except DiskFault α) := do
  match ← act.toBaseIO with
  | .ok value => return .ok value
  | .error e => return .error (.ofSystem e)

def Path.kind (path : Path) : IO FileKind := do
  match (← (← IO.FS.realPath path.text).metadata).type with
  | .dir => return .folder
  | _ => return .file

/-- Write at the end of a file that is there. -/
def Path.extend (path : Path) (data : Bytes) : IO Unit := do
  let _ ← path.kind
  let handle ← IO.FS.Handle.mk path.text .append
  handle.write ⟨data.toArray⟩

/-- Do one step on the real disk. -/
def Step.perform : (s : Step) → BaseIO s.Reply
  | .look path => return (← attempt path.kind).toOption
  | .canonical path => attempt do return ⟨(← IO.FS.realPath path.text).toString⟩
  | .openFile path => attempt do
    let _ ← IO.FS.Handle.mk path.text .read
  | .read path => attempt do return (← IO.FS.readBinFile path.text).toList
  | .truncate path => attempt (IO.FS.writeBinFile path.text ByteArray.empty)
  | .append path data => attempt (path.extend data)
  | .sync path => attempt do
    (← IO.FS.Handle.mk path.text .append).flush
  | .makeFolder path => attempt (IO.FS.createDir path.text)
  | .rename source target => attempt (IO.FS.rename source.text target.text)
  | .removeFile path => attempt (IO.FS.removeFile path.text)
  | .removeFolder path => attempt (IO.FS.removeDir path.text)

/-- Do a script on the real disk. -/
def Script.perform {α : Type} : Script α → BaseIO α
  | .done value => return value
  | .step s next => do (next (← s.perform)).perform

/-- The environment, as far as the given variables go. -/
def Environment.ofSystem (names : List String) : BaseIO Environment := do
  let values ← names.mapM IO.getEnv
  return fun name => ((names.zip values).lookup name).join

end Strongroom

open Strongroom

/-- The program: reads its arguments, does what they ask for, and gives the exit
    status. -/
def main (arguments : List String) : IO UInt32 := do
  let known ← Environment.ofSystem Environment.names
  let request := Request.ofArguments known arguments
  let named ← (request.keyVariable known).perform
  let env ← Environment.ofSystem (named.toList ++ Environment.names)
  let seed := (← IO.getRandomBytes 32).toList
  let clock := (← Std.Time.Timestamp.now).toSecondsSinceUnixEpoch.val.toNat
  let outcome ← (request.perform env (.ofSeed seed) (.ofSeed seed) clock).perform
  IO.print outcome.output
  IO.eprint outcome.diagnostics
  return UInt32.ofNat outcome.status
