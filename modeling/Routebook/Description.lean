import Routebook.Route
import Routebook.Template.Fields

/-!
# Descriptions

Routes, matches and segments in the text of messages.
-/
namespace Routebook

/-- Texts in quotes between round brackets; a single one keeps a comma after it. -/
def shownTuple : List String → String
  | [] => "()"
  | [only] => "(" ++ Text.quoted only ++ ",)"
  | texts => "(" ++ String.intercalate ", " (texts.map Text.quoted) ++ ")"

def Route.shown (route : Route) : String :=
  Signature.shown Kind.route.label
    [("template", Text.quoted route.template), ("pattern", Text.quoted route.pattern),
     ("keys", shownTuple route.keys)]

def Match.describe (route path params : String) : String :=
  Signature.shown Kind.found.label [("route", route), ("path", path), ("params", params)]

def Match.shown (found : Match) : String :=
  describe found.route.shown (Text.quoted found.path) (Tree.ofTexts found.params).shown

def Segment.shown (segment : Segment) : String := shownFields segment.fields

end Routebook
