import Routebook.Command.Directory
import Routebook.Command.Report
import Routebook.Command.Request
import Routebook.Table.Check

/-!
# Running a command

A run ends with an exit status, or with a fault that nothing catches, and has written to two
outputs. The status is zero for an answer, one for a problem, two for misused arguments.
-/
namespace Routebook.Command

structure Outcome where
  ending : Except Fault Nat
  stdout : String
  stderr : String

def joinLines (lines : List String) : String := String.join (lines.map (· ++ "\n"))

namespace Outcome

def printed (text : String) : Outcome := ⟨.ok 0, text, ""⟩

def refused (text : String) : Outcome := ⟨.ok 1, "", text⟩

def crashed (fault : Fault) : Outcome := ⟨.error fault, "", ""⟩

/-- The notes come before all else if they are asked for. -/
def withNotes (verbose : Bool) (notes : List Note) (outcome : Outcome) : Outcome :=
  if verbose then
    let told := notes.map fun note => note.channel ++ ": " ++ note.text ++ "\n"
    { outcome with stderr := String.join told ++ outcome.stderr }
  else outcome

@[simp]
theorem ending_withNotes (verbose : Bool) (notes : List Note) (outcome : Outcome) :
    (outcome.withNotes verbose notes).ending = outcome.ending := by
  cases verbose <;> rfl

@[simp]
theorem stdout_withNotes (verbose : Bool) (notes : List Note) (outcome : Outcome) :
    (outcome.withNotes verbose notes).stdout = outcome.stdout := by
  cases verbose <;> rfl

/-- Reports on a route; a path without text cannot be matched. -/
def report (route : Route) (paths : List (Option String)) (json : Bool) : Outcome :=
  match paths.mapM id with
  | none => .crashed (.value (.notText .list))
  | some paths =>
    let report := Report.ofPaths route paths
    if json then
      match report.toJson with
      | .ok text => .printed (text ++ "\n")
      | .error cause => .crashed (.value cause)
    else .printed (joinLines report.lines)

def ofTemplate (template : String) (paths : List (Option String)) (json : Bool) : Outcome :=
  match Route.compile template with
  | .error cause => .refused ("Error: " ++ cause.message ++ "\n")
  | .ok route => report route paths json

/-- The verdict on the declarations of a table. -/
def verdict (path : Path) (entries : List (Table.Entry Int)) : Outcome :=
  let checked := Table.check entries
  if checked.problems.isEmpty then
    .printed (toString checked.routes.length ++ " route(s) OK.\n")
  else
    let told := (Table.problemLines checked).map fun problem => path.text ++ ": " ++ problem
    let count := toString checked.problems.length ++ " problem(s) found."
    .refused (joinLines (told ++ [count]))

def entriesOf (octets : List UInt8) : Except Text.Utf8.Malformed (List (Table.Entry Int)) := do
  let text ← Text.Utf8.decode octets
  return Table.read (String.ofList (Text.unifyNewlines text))

def ofContent (verbose : Bool) (path : Path) (content : Except FileFault (List UInt8)) : Outcome :=
  match content with
  | .error fault => .refused ("Error: " ++ fault.message path ++ "\n")
  | .ok octets =>
    match entriesOf octets with
    | .error cause => .crashed (.malformed cause)
    | .ok entries => (verdict path entries).withNotes verbose (Table.notes entries)

end Outcome

def Stop.outcome : Stop → Outcome
  | .help topic => .printed topic.help
  | .misuse topic cause =>
    ⟨.ok 2, "", topic.usage ++ topic.label ++ ": error: " ++ cause.message ++ "\n"⟩

/-- The file that a request is about. -/
def Request.file? : Request → Option Path
  | .compile _ _ _ _ => none
  | .check _ file => some (Path.ofText file)

def Request.run (read : Path → Except FileFault (List UInt8)) : Request → Outcome
  | .compile verbose template paths json =>
    (Outcome.ofTemplate template paths json).withNotes verbose (Note.ofTemplate template)
  | .check verbose file =>
    -- No system takes a name with this character in it.
    if '\x00' ∈ file.toList then .crashed .nulInName
    else
      let path := Path.ofText file
      Outcome.ofContent verbose path (read path)

def run (read : Path → Except FileFault (List UInt8)) (arguments : List String) : Outcome :=
  match Request.read arguments with
  | .error stop => stop.outcome
  | .ok request => request.run read

end Routebook.Command
