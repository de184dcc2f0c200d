import Routebook.Command.Path
import Routebook.Text.Quoted

/-!
# Directories

A working directory is known by the files below it; a directory below it is there if a file is
below that. A path is followed name by name: what is not a directory cannot be followed further, a
name that is too long is refused where it is looked up, and outside of the working directory
nothing is known but the way upwards.
-/
namespace Routebook.Command

/-- Why a file cannot be read, with the number and the words that the system has for it. -/
inductive FileFault where
  | notFound
  | notDirectory
  | isDirectory
  | nameTooLong
  | refused (number : Nat) (reason : String)
  deriving DecidableEq, Repr

namespace FileFault

def number : FileFault → Nat
  | .notFound => 2
  | .notDirectory => 20
  | .isDirectory => 21
  | .nameTooLong => 36
  | .refused number _ => number

def reason : FileFault → String
  | .notFound => "No such file or directory"
  | .notDirectory => "Not a directory"
  | .isDirectory => "Is a directory"
  | .nameTooLong => "File name too long"
  | .refused _ reason => reason

def message (fault : FileFault) (path : Path) : String :=
  "[Errno " ++ toString fault.number ++ "] " ++ fault.reason ++ ": " ++ Text.quoted path.text

end FileFault

structure Directory where
  files : List (List String × List UInt8)

/-- Where a path has led to. -/
inductive Place where
  | inside (names : List String)
  | outside
  deriving DecidableEq, Repr

namespace Directory

def greatestName : Nat := 255

def greatestPath : Nat := 4095

/-- Of files with one name the last one counts. -/
def ofFiles (files : List (String × List UInt8)) : Directory :=
  ⟨files.reverse.map fun file => ((Path.ofText file.1).names, file.2)⟩

def file? (directory : Directory) : Place → Option (List UInt8)
  | .inside names => directory.files.lookup names
  | .outside => none

def holds (directory : Directory) (names : List String) : Bool :=
  directory.files.any fun file => names.isPrefixOf file.1

/-- The place that a name leads to from a directory. -/
def enter (directory : Directory) (place : Place) (name : String) : Except FileFault Place :=
  if name = ".." then
    -- Upwards from the working directory itself, and from there on, is outside.
    match place with
    | .inside (first :: rest) => .ok (.inside (first :: rest).dropLast)
    | _ => .ok .outside
  else if greatestName < name.utf8ByteSize then .error .nameTooLong
  else match place with
    | .outside => .error .notFound
    | .inside names =>
      if directory.holds (names ++ [name]) then .ok (.inside (names ++ [name]))
      else .error .notFound

def follow (directory : Directory) (place : Place) : List String → Except FileFault Place
  | [] => .ok place
  | name :: rest =>
    -- A name that follows a file would have to be in it.
    if (directory.file? place).isSome then .error .notDirectory
    else do
      let next ← directory.enter place name
      directory.follow next rest

def read (directory : Directory) (path : Path) : Except FileFault (List UInt8) :=
  if greatestPath < path.text.utf8ByteSize then .error .nameTooLong
  else do
    let start := if path.root.isEmpty then Place.inside [] else .outside
    match directory.file? (← directory.follow start path.names) with
    | some octets => .ok octets
    | none => .error .isDirectory

end Directory

end Routebook.Command
