import Routebook.Pattern

/-!
# Routes

A route is a compiled template: the pattern in notation, the keys of its parameters from left to
right, and the items that decide a match. `Route.compile` fails for a template that names a
parameter twice, and never otherwise.
-/
namespace Routebook

structure Route where
  template : String
  pattern : String
  keys : List String
  items : Pattern
  deriving DecidableEq, Repr

/-- A path that a route accepted, with the text that each parameter took. -/
structure Match where
  route : Route
  path : String
  params : List (String × String)
  deriving DecidableEq, Repr

namespace Template

/-- The items of a template, and the keys of its parameters. -/
def compile (template : String) : Except RepeatedParameter (Pattern × List String) := do
  let segments ← parse template
  return (Pattern.ofParts (segments.map Part.ofSegment), keys segments)

end Template

namespace Route

def compile (template : String) : Except RepeatedParameter Route := do
  let (items, keys) ← Template.compile template
  return ⟨template, String.ofList items.text, keys, items⟩

def groups (route : Route) : Nat := route.items.groups

def match? (route : Route) (path : String) : Option Match :=
  (route.items.match? path.toList).map fun captured =>
    ⟨route, path, route.keys.zip (captured.map String.ofList)⟩

def params? (route : Route) (path : String) : Option (List (String × String)) :=
  (route.match? path).map (·.params)

def accepts (route : Route) (path : String) : Bool := (route.match? path).isSome

end Route

end Routebook
