import Routebook.Json.Printer
import Routebook.Route

/-!
# Reports

What is told of a compiled template: the route, and for each path to match the parameters that it
took. A path that is given more than once is told once. A report is written in lines or as JSON.
-/
namespace Routebook.Command

structure Report where
  route : Route
  outcomes : List (String × Option (List (String × String)))
  deriving DecidableEq, Repr

namespace Report

def ofPaths (route : Route) (paths : List String) : Report :=
  ⟨route, paths.eraseDups.map fun path => (path, route.params? path)⟩

def toTree (report : Report) : Tree :=
  .record [("template", .text report.route.template), ("pattern", .text report.route.pattern),
    ("keys", .list (report.route.keys.map .text)),
    ("matches", .record (report.outcomes.map fun (path, params) =>
      (path, (params.map Tree.ofTexts).getD .null)))]

def toJson (report : Report) : Except ValueFault String := Json.write Json.indented report.toTree

def greatestRule : Nat := 80

/-- What a path came to, in words. -/
def outcome : Option (List (String × String)) → String
  | none => "no match"
  | some [] => "match"
  | some params => String.intercalate " " (params.map fun (key, value) => key ++ "=" ++ value)

/-- A path in a column of a width, and its outcome. -/
def row (width : Nat) (path : String) (params : Option (List (String × String))) : String :=
  path ++ String.ofList (List.replicate (width - path.length) ' ') ++ "  " ++ outcome params

def keysLine (keys : List String) : String :=
  if keys.isEmpty then "(none)" else String.intercalate ", " keys

def lines (report : Report) : List String :=
  let heading := ["TEMPLATE  " ++ report.route.template, "PATTERN   " ++ report.route.pattern,
    "KEYS      " ++ keysLine report.route.keys]
  if report.outcomes.isEmpty then heading
  else
    let width := report.outcomes.foldl (fun width told => max width told.1.length) 0
    let rule := String.ofList (List.replicate (min (width + 12) greatestRule) '-')
    heading ++ rule :: report.outcomes.map fun (path, params) => row width path params

end Report

end Routebook.Command
