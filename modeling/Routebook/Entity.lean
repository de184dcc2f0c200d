import Routebook.Description
import Routebook.Page

/-!
# Entities

What a session can hold: plain values, routes and their keys, matches, pages, configurations and
segments. Over trees an entity is seen with all its parts; over values of a store it is live.
Entities of one kind are equal by their fields, a route by its template alone.
-/
namespace Routebook

inductive Entity (α : Type) where
  | value (value : α)
  | route (route : Route)
  | keys (keys : List String)
  | found (route : Route) (path params : α)
  | page (page : Page α)
  | config (config : Config α)
  | segment (fields : List (String × α))
  deriving DecidableEq

namespace Entity

variable {α β : Type}

def map (f : α → β) : Entity α → Entity β
  | .value v => .value (f v)
  | .route r => .route r
  | .keys names => .keys names
  | .found r path params => .found r (f path) (f params)
  | .page p => .page (p.map f)
  | .config c => .config (c.map f)
  | .segment given => .segment (given.map fun field => (field.1, f field.2))

def kind (lens : Lens α) : Entity α → Kind
  | .value v => lens.kind v
  | .route _ => .route
  | .keys _ => .tuple
  | .found _ _ _ => .found
  | .page _ => .page
  | .config _ => .config
  | .segment _ => .segment

def fields (lens : Lens α) : Entity α → List (String × Entity α)
  | .value _ | .keys _ => []
  | .route r =>
    [("template", .value (lens.text r.template)), ("pattern", .value (lens.text r.pattern)),
     ("keys", .keys r.keys)]
  | .found r path params => [("route", .route r), ("path", .value path), ("params", .value params)]
  | .page p => p.fields.map fun field => (field.1, .value field.2)
  | .config c => c.fields.map fun field => (field.1, .value field.2)
  | .segment given => given.map fun field => (field.1, .value field.2)

/-- The value of a field. -/
def field (lens : Lens α) (entity : Entity α) (name : String) : Except ValueFault (Entity α) :=
  match (entity.fields lens).lookup name with
  | some part => .ok part
  | none => .error (.noField (entity.kind lens) name)

/-- The part of an entity under a key, or at a position. -/
def item (lens : Lens α) (entity : Entity α) (key : α) : Except ValueFault (Entity α) :=
  match entity with
  | .value v => (lens.item v key).map .value
  | .keys names =>
    match lens.position? names.length key with
    | none => .error (.notPosition .tuple (lens.kind key))
    | some none => .error (.outOfRange .tuple)
    | some (some index) =>
      match names[index]? with
      | some name => .ok (.value (lens.text name))
      | none => .error (.outOfRange .tuple)
  | other => .error (.notSubscriptable (other.kind lens))

/-- Equality as a comparison shows it. -/
def equal : Entity Tree → Entity Tree → Bool
  | .value a, .value b => a.equal b
  | .route a, .route b => a.template == b.template
  | .keys a, .keys b => a == b
  | .found a path params, .found b path' params' =>
    a.template == b.template && path.same path' && params.same params'
  | .page a, .page b => Tree.sameItems (a.fields.map (·.2)) (b.fields.map (·.2))
  | .config a, .config b => Tree.sameItems (a.fields.map (·.2)) (b.fields.map (·.2))
  | .segment a, .segment b => Tree.sameItems (a.map (·.2)) (b.map (·.2))
  | _, _ => false

def shown : Entity Tree → String
  | .value v => v.shown
  | .route r => r.shown
  | .keys names => shownTuple names
  | .found r path params => Match.describe r.shown path.shown params.shown
  | .page p => p.shown
  | .config c => c.shown
  | .segment given => Segment.shownFields given

end Entity

end Routebook
