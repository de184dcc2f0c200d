import Routebook.Journal
import Routebook.Table.Entry

/-!
# Checking route tables

Each declaration either gives a route or is a problem: its template names a parameter twice, or an
earlier declaration has the same template. A problem of the second kind names the line of the first
declaration. Problems are told in words, which fails if a line that one of them names cannot be
written: numbers have a greatest count of digits.
-/
namespace Routebook.Table

inductive Problem (α : Type) where
  | repeatedParameter (line : α) (cause : RepeatedParameter)
  | alreadyDeclared (line : α) (template : String) (first : α)
  deriving DecidableEq, Repr

structure Report (α : Type) where
  routes : List Route
  problems : List (Problem α)
  deriving DecidableEq, Repr

variable {α : Type}

def Problem.message (shown : α → String) : Problem α → String
  | .repeatedParameter line cause => "line " ++ shown line ++ ": " ++ cause.message
  | .alreadyDeclared line template first =>
    "line " ++ shown line ++ ": route " ++ Text.quoted template ++
      " already declared on line " ++ shown first

namespace Report

def addRoute (route : Route) (report : Report α) : Report α :=
  { report with routes := route :: report.routes }

def addProblem (problem : Problem α) (report : Report α) : Report α :=
  { report with problems := problem :: report.problems }

end Report

/-- Checks entries, given the templates declared before them and the lines of those. -/
def checkFrom (declared : List (String × α)) : List (Entry α) → Report α
  | [] => ⟨[], []⟩
  | entry :: rest =>
    match Route.compile entry.template with
    | .error cause => (checkFrom declared rest).addProblem (.repeatedParameter entry.line cause)
    | .ok route =>
      match List.lookup entry.template declared with
      | some first =>
        (checkFrom declared rest).addProblem (.alreadyDeclared entry.line entry.template first)
      -- Only a template that gives a route counts as declared from here on.
      | none => (checkFrom ((entry.template, entry.line) :: declared) rest).addRoute route

def check (entries : List (Entry α)) : Report α := checkFrom [] entries

/-- The problem with its lines written, in the order in which it names them. -/
def Problem.writeLines {ε : Type} (write : α → Except ε String) :
    Problem α → Except ε (Problem String)
  | .repeatedParameter line cause => do return .repeatedParameter (← write line) cause
  | .alreadyDeclared line template first => do
    return .alreadyDeclared (← write line) template (← write first)

/-- A problem in words, if its lines can be written. -/
def Problem.tell {ε : Type} (write : α → Except ε String) (problem : Problem α) :
    Except ε String := do
  return (← problem.writeLines write).message id

/-- The routes of a table, and its problems in words one after the other. The first line that cannot
be written leaves the table without an answer. -/
def checkRoutes {ε : Type} (write : α → Except ε String) (entries : List (Entry α)) :
    Except ε (List Route × List String) := do
  let report := check entries
  return (report.routes, ← report.problems.mapM (·.tell write))

/-- The number of a line in words. -/
def writeNumber (limit : Option Nat) (line : Int) : Except ValueFault String :=
  (Tree.int line).text? limit

/-- The problems of a table whose lines are counted, each in words. -/
def problemLines (report : Report Int) : List String :=
  report.problems.map (·.message toString)

/-- One note for each entry whose template compiles. -/
def notes (entries : List (Entry α)) : List Note :=
  entries.flatMap fun entry => Note.ofTemplate entry.template

end Routebook.Table
