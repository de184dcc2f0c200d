/-!
# Route templates

In a template a colon and the name characters after it mark a parameter; all other text is
literal. `scan` cuts a template into pieces, `segments` adds where each piece stands, and `parse`
refuses a template that names a parameter twice.
-/
namespace Routebook

/-- A longest run of literal text, or one parameter by its name. -/
inductive Piece where
  | literal (text : List Char)
  | parameter (name : List Char)
  deriving DecidableEq, Repr

/-- A piece with its own text and the half-open span that it covers in the template. -/
structure Segment where
  text : String
  start : Nat
  stop : Nat
  isParam : Bool
  name : Option String
  deriving DecidableEq, Repr

/-- A template names `parameter` a second time. -/
structure RepeatedParameter where
  route : String
  parameter : String
  deriving DecidableEq, Repr

namespace Template

def isNameChar (c : Char) : Bool := c.isAlphanum || c = '-' || c = '_'

/-- Puts literal text in front of pieces, into the literal that begins them if one does. -/
def joinLiteral : List Char → List Piece → List Piece
  | [], pieces => pieces
  | text, .literal more :: pieces => .literal (text ++ more) :: pieces
  | text, pieces => .literal text :: pieces

/-- Reads from the right: the name characters in front that no colon has claimed yet, and the
pieces that follow them. -/
def scan : List Char → List Char × List Piece
  | [] => ([], [])
  | c :: rest =>
    let (run, pieces) := scan rest
    if isNameChar c then (c :: run, pieces)
    else if c = ':' ∧ run ≠ [] then ([], .parameter run :: pieces)
    -- Any other character leaves the run behind it to literal text.
    else ([], joinLiteral [c] (joinLiteral run pieces))

def pieces (template : List Char) : List Piece :=
  let (run, pieces) := scan template
  joinLiteral run pieces

/-- The text of a piece in its template. -/
def pieceText : Piece → List Char
  | .literal text => text
  | .parameter name => ':' :: name

/-- Lays pieces out one after the other from a position on. -/
def place : Nat → List Piece → List Segment
  | _, [] => []
  | start, piece :: rest =>
    let text := pieceText piece
    let stop := start + text.length
    let name := match piece with
      | .literal _ => none
      | .parameter name => some (String.ofList name)
    ⟨String.ofList text, start, stop, name.isSome, name⟩ :: place stop rest

def segments (template : String) : List Segment := place 0 (pieces template.toList)

/-- The segments that are parameters, left to right. -/
def placeholders (template : String) : List Segment := (segments template).filter (·.isParam)

def keys (segments : List Segment) : List String := segments.filterMap (·.name)

/-- The first name that an earlier one equals. -/
def firstRepeated? {α : Type} [DecidableEq α] (seen : List α) : List α → Option α
  | [] => none
  | name :: rest => if name ∈ seen then some name else firstRepeated? (name :: seen) rest

def parse (template : String) : Except RepeatedParameter (List Segment) :=
  let found := segments template
  match firstRepeated? [] (keys found) with
  | some parameter => .error ⟨template, parameter⟩
  | none => .ok found

/-- The whole text is one placeholder. -/
def isPlaceholder (text : String) : Bool :=
  match pieces text.toList with
  | [.parameter _] => true
  | _ => false

/-- A placeholder without its colon. -/
def nameOf (placeholder : String) : String := String.ofList (placeholder.toList.drop 1)

end Template

end Routebook
