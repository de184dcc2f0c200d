import Routebook.Description
import Routebook.Location

/-!
# Notes

What is written to the journal: a note for each route that is compiled, and one for each location
of a shell that is brought back to a path.
-/
namespace Routebook

inductive Note where
  | compiled (route : Route)
  | located (href path : String)
  deriving DecidableEq, Repr

namespace Note

def channel : Note → String
  | .compiled _ => "waypoint.routing"
  | .located _ _ => "waypoint.bridge"

def text : Note → String
  | .compiled route =>
    "compiled " ++ Text.quoted route.template ++ " -> " ++ route.pattern ++ " keys=" ++
      shownTuple route.keys
  | .located href path => "location " ++ Text.quoted href ++ " -> " ++ Text.quoted path

def ofTemplate (template : String) : List Note :=
  match Route.compile template with
  | .ok route => [.compiled route]
  | .error _ => []

def ofLocation (config : Config Tree) (base : Option String) (href : String) : List Note :=
  match Location.resolve config base href with
  | .ok (.path path) => [.located href (String.ofList path)]
  | _ => []

end Note

end Routebook
