import Routebook.Command.Run

/-!
# The program

Reads the file that the command line asks about, runs the command and writes what it has to say.
-/
namespace Routebook.Command

/-- What went wrong by the number of the system, which may come with its sign turned. -/
def FileFault.ofNumber (number : UInt32) (reason : String) : FileFault :=
  let number := if number < 0x80000000 then number else 0 - number
  match number with
  | 2 => .notFound
  | 13 => .refused 13 "Permission denied"
  | 20 => .notDirectory
  | 21 => .isDirectory
  | 36 => .nameTooLong
  | _ => .refused number.toNat reason

def FileFault.ofError : IO.Error → FileFault
  | .noFileOrDirectory _ number reason => .ofNumber number reason
  | .permissionDenied _ number reason => .ofNumber number reason
  | .inappropriateType _ number reason => .ofNumber number reason
  | .invalidArgument _ number reason => .ofNumber number reason
  | .resourceExhausted _ number reason => .ofNumber number reason
  | .noSuchThing _ number reason => .ofNumber number reason
  | .otherError number reason => .ofNumber number reason
  | error => .refused 5 (toString error)

def readFile (path : Path) : IO (Except FileFault (List UInt8)) := do
  try
    let octets ← IO.FS.readBinFile path.text
    return .ok octets.toList
  catch error => return .error (.ofError error)

/-- What the requested file holds. -/
def readRequested (arguments : List String) : IO (Except FileFault (List UInt8)) :=
  match Request.read arguments with
  | .ok request =>
    match request.file? with
    | some path => readFile path
    | none => return .error .notFound
  | .error _ => return .error .notFound

end Routebook.Command

open Routebook in
def main (arguments : List String) : IO UInt32 := do
  let content ← Command.readRequested arguments
  let outcome := Command.run (fun _ => content) arguments
  IO.print outcome.stdout
  IO.eprint outcome.stderr
  match outcome.ending with
  | .ok status => return status.toUInt32
  | .error fault =>
    IO.eprintln fault.message
    return 1
