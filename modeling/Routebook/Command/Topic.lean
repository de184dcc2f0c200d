import Routebook.Text.Quoted

/-!
# Switches and topics

The switches of the command line and its topics: the program as a whole and each of its commands.
A topic has its switches, an operand, a line of usage and a help text.
-/
namespace Routebook.Command

inductive Switch where
  | help | verbose | path | json
  deriving DecidableEq, Repr

namespace Switch

/-- One letter behind one dash is a short spelling; a switch that takes a value has none. -/
def spellings : Switch → List String
  | .help => ["-h", "--help"]
  | .verbose => ["-v", "--verbose"]
  | .path => ["--match"]
  | .json => ["--json"]

def takesValue : Switch → Bool
  | .path => true
  | _ => false

def label (switch : Switch) : String := String.intercalate "/" switch.spellings

end Switch

inductive Topic where
  | program | compile | check
  deriving DecidableEq, Repr

namespace Topic

def commands : List (String × Topic) := [("compile", .compile), ("check", .check)]

def label : Topic → String
  | .program => "waypoint"
  | .compile => "waypoint compile"
  | .check => "waypoint check"

def switches : Topic → List Switch
  | .program => [.help, .verbose]
  | .compile => [.help, .path, .json]
  | .check => [.help]

def operand : Topic → String
  | .program => "command"
  | .compile => "template"
  | .check => "file"

/-- The operand of the program is a command, and all arguments after it are the command's. -/
def takesRest : Topic → Bool
  | .program => true
  | _ => false

def usage (topic : Topic) : String :=
  "usage: " ++ topic.label ++ (match topic with
    | .program => " [-h] [-v] \x7bcompile,check\x7d ..."
    | .compile => " [-h] [--match PATH] [--json] template"
    | .check => " [-h] file") ++ "\n"

def explanation : Topic → List String
  | .program =>
    ["Waypoint — route template compiler for app-shell navigation.",
     "",
     "positional arguments:",
     "  \x7bcompile,check\x7d",
     "    compile        Compile a route template",
     "    check          Validate a route table file",
     "",
     "options:",
     "  -h, --help       show this help message and exit",
     "  -v, --verbose    Log compiler activity to stderr"]
  | .compile =>
    ["positional arguments:",
     "  template      Route template (e.g. /video/:id)",
     "",
     "options:",
     "  -h, --help    show this help message and exit",
     "  --match PATH  Path to match against the compiled route (repeatable)",
     "  --json        Print the result as JSON"]
  | .check =>
    ["positional arguments:",
     "  file        Route table: one template per line, optional component name",
     "              after it",
     "",
     "options:",
     "  -h, --help  show this help message and exit"]

def help (topic : Topic) : String :=
  topic.usage ++ "\n" ++ String.join (topic.explanation.map (· ++ "\n"))

end Topic

/-- What is wrong with the arguments of a command line. -/
inductive Misuse where
  /-- An argument is short for several spellings. -/
  | ambiguous (argument : String) (spellings : List String)
  | unwantedValue (switch : Switch) (value : String)
  | missingValue (switch : Switch)
  | unknownCommand (name : String)
  | missingOperand (operand : String)
  | unrecognized (arguments : List String)
  deriving DecidableEq, Repr

def Misuse.message : Misuse → String
  | .ambiguous argument spellings =>
    "ambiguous option: " ++ argument ++ " could match " ++ String.intercalate ", " spellings
  | .unwantedValue switch value =>
    "argument " ++ switch.label ++ ": ignored explicit argument " ++ Text.quoted value
  | .missingValue switch => "argument " ++ switch.label ++ ": expected one argument"
  | .unknownCommand name =>
    "argument command: invalid choice: " ++ Text.quoted name ++ " (choose from " ++
      String.intercalate ", " (Topic.commands.map fun command => Text.quoted command.1) ++ ")"
  | .missingOperand operand => "the following arguments are required: " ++ operand
  | .unrecognized arguments => "unrecognized arguments: " ++ String.intercalate " " arguments

end Routebook.Command
