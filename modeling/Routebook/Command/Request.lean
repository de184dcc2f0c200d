import Routebook.Command.Arguments

/-!
# Requests

What a command line asks for. Reading stops early where help is asked for or the arguments are
misused; the misuse of a command is told before arguments that nothing asks for, and those of the
program and of the command are told together.
-/
namespace Routebook.Command

/-- What the events of one topic come to. -/
structure Reading where
  verbose : Bool
  json : Bool
  /-- Paths to match, one of them none if its text was lost. -/
  paths : List (Option String)
  operand : Option (String × List String)
  strays : List String
  deriving DecidableEq, Repr

/-- Why reading stops before anything is done. -/
inductive Stop where
  | help (topic : Topic)
  | misuse (topic : Topic) (cause : Misuse)
  deriving DecidableEq, Repr

namespace Reading

def empty : Reading := ⟨false, false, [], none, []⟩

def add (topic : Topic) (reading : Reading) : Event → Except Stop Reading
  | .flag .help => .error (.help topic)
  | .flag .verbose => .ok { reading with verbose := true }
  | .flag .json => .ok { reading with json := true }
  | .flag .path => .ok reading
  | .value _ value => .ok { reading with paths := reading.paths ++ [value] }
  | .operand text rest => .ok { reading with operand := some (text, rest) }
  | .stray text => .ok { reading with strays := reading.strays ++ [text] }
  | .misuse cause => .error (.misuse topic cause)

def ofArguments (topic : Topic) (arguments : List String) : Except Stop Reading :=
  match Argument.readAll topic.switches arguments with
  | .error cause => .error (.misuse topic cause)
  | .ok arguments => (Event.ofArguments topic true arguments).foldlM (add topic) empty

end Reading

inductive Request where
  | compile (verbose : Bool) (template : String) (paths : List (Option String)) (json : Bool)
  | check (verbose : Bool) (file : String)
  deriving DecidableEq, Repr

namespace Request

/-- Refuses arguments that nothing asks for. -/
def settled (strays : List String) : Except Stop Unit :=
  if strays.isEmpty then .ok () else .error (.misuse .program (.unrecognized strays))

def read (arguments : List String) : Except Stop Request := do
  let program ← Reading.ofArguments .program arguments
  match program.operand with
  | none =>
    settled program.strays
    .error (.help .program)
  | some (name, rest) =>
    match Topic.commands.lookup name with
    | none => .error (.misuse .program (.unknownCommand name))
    | some topic =>
      let command ← Reading.ofArguments topic rest
      match command.operand with
      | none => .error (.misuse topic (.missingOperand topic.operand))
      | some (operand, _) =>
        settled (program.strays ++ command.strays)
        match topic with
        | .check => return .check program.verbose operand
        | _ => return .compile program.verbose operand command.paths command.json

end Request

end Routebook.Command
