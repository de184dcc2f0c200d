import Routebook.Fault

/-!
# Catalogue

What the library offers by name: definitions, each with the place that holds it, and facts about
the library itself. The list of offered names is in order.
-/
namespace Routebook

structure Definition where
  name : String
  home : String
  isType : Bool
  deriving DecidableEq, Repr

inductive Offer where
  | definition (definition : Definition)
  | fact (text : String)
  | names (names : List String)
  deriving DecidableEq, Repr

namespace Catalogue

def definitions : List Definition :=
  [⟨"BridgeConfig", "waypoint.config", true⟩,
   ⟨"ConfigurationError", "waypoint.errors", true⟩,
   ⟨"DuplicateParameterError", "waypoint.errors", true⟩,
   ⟨"Page", "waypoint.bridge", true⟩,
   ⟨"RouteMatch", "waypoint.routing.route", true⟩,
   ⟨"RoutePattern", "waypoint.routing.route", true⟩,
   ⟨"WaypointError", "waypoint.errors", true⟩,
   ⟨"compile_route", "waypoint.routing.compiler", false⟩]

def facts : List (String × Offer) :=
  [("__all__", .names (definitions.map (·.name))),
   ("__name__", .fact "waypoint"),
   ("__package__", .fact "waypoint"),
   ("__version__", .fact "0.1.0-dev")]

def find? (name : String) : Option Offer :=
  match definitions.find? (·.name == name) with
  | some definition => some (.definition definition)
  | none => facts.lookup name

def find (name : String) : Except Fault Offer :=
  match find? name with
  | some offer => .ok offer
  | none => .error (.unknownName name)

end Catalogue

end Routebook
