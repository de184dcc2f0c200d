import Routebook.Json.Token

/-!
# Reading JSON

Tokens are taken one after the other by a machine that keeps the containers that are still open,
the innermost first. Members of an object keep the order in which their names first come.
-/
namespace Routebook.Json

/-- A container that is still open, its parts in reverse. -/
inductive Frame where
  | list (items : List Tree)
  | dict (entries : List (Atom × Tree)) (key : Atom)

/-- What may come next. -/
inductive Machine where
  /-- A value; the container that was just opened may also be closed. -/
  | value (opened : Bool) (frames : List Frame)
  /-- The name of a member, or the end of an object that was just opened. -/
  | name (opened : Bool) (entries : List (Atom × Tree)) (frames : List Frame)
  | colon (entries : List (Atom × Tree)) (key : Atom) (frames : List Frame)
  /-- What follows a value. -/
  | after (tree : Tree) (frames : List Frame)

namespace Machine

def finishDict (entries : List (Atom × Tree)) : Tree := .dict (Entries.ofPairs entries.reverse)

def step : Machine → Token → Option Machine
  | .value _ frames, .text chars => some (.after (.text (String.ofList chars)) frames)
  | .value _ frames, .atom atom => some (.after (.atom atom) frames)
  | .value _ frames, .openList => some (.value true (.list [] :: frames))
  | .value _ frames, .openDict => some (.name true [] frames)
  | .value true (.list items :: frames), .closeList => some (.after (.list items.reverse) frames)
  | .name _ entries frames, .text chars =>
    some (.colon entries (.text (String.ofList chars)) frames)
  | .name true entries frames, .closeDict => some (.after (finishDict entries) frames)
  | .colon entries key frames, .colon => some (.value false (.dict entries key :: frames))
  | .after tree (.list items :: frames), .comma =>
    some (.value false (.list (tree :: items) :: frames))
  | .after tree (.list items :: frames), .closeList =>
    some (.after (.list (tree :: items).reverse) frames)
  | .after tree (.dict entries key :: frames), .comma =>
    some (.name false ((key, tree) :: entries) frames)
  | .after tree (.dict entries key :: frames), .closeDict =>
    some (.after (finishDict ((key, tree) :: entries)) frames)
  | _, _ => none

def result? : Machine → Option Tree
  | .after tree [] => some tree
  | _ => none

end Machine

def read? (text : String) : Option Tree := do
  let tokens ← tokens? text.toList
  let last ← tokens.foldlM Machine.step (.value false [])
  last.result?

end Routebook.Json
