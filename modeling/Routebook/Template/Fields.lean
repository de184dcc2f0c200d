import Routebook.Pattern
import Routebook.Value.Signature

/-!
# Segments by their fields

A segment can be given by its fields, with any values. For a pattern only two of them count: a
segment that is a parameter stands for any value, another for its literal text.
-/
namespace Routebook

namespace Segment

variable {α : Type}

def signature : Signature :=
  ⟨Kind.segment.label, ["value", "start", "end"], ["is_param", "param_name"]⟩

def fields (segment : Segment) : List (String × Tree) :=
  [("value", .text segment.text), ("start", .int segment.start), ("end", .int segment.stop),
   ("is_param", .bool segment.isParam),
   ("param_name", match segment.name with
    | some name => .text name
    | none => .null)]

/-- All fields in order, from those that are given. -/
def complete (lens : Lens α) (given : List (String × α)) :
    Except SignatureFault (List (String × α)) := do
  signature.check given
  return signature.fields.map fun name =>
    let absent := if name = "is_param" then Atom.bool false else Atom.null
    (name, (List.lookup name given).getD (lens.atom absent))

def shownFields (fields : List (String × Tree)) : String :=
  Signature.shown signature.record (fields.map fun field => (field.1, field.2.shown))

end Segment

namespace Part

/-- What a segment given by fields means for matching; nothing if its literal text is octets. -/
def ofFields? (fields : List (String × Tree)) : Except ValueFault (Option Part) :=
  let field (name : String) : Tree := (List.lookup name fields).getD .null
  if Tree.lens.truthy (field "is_param") then .ok (some .wildcard)
  else match field "value" with
    | .atom (.text text) => .ok (some (.literal text.toList))
    | .atom (.octets _) => .ok none
    | other => .error (.notLiteralText other.kind)

/-- Parts that all are there; the anchor before them is the first thing to be joined. -/
def allTexts (parts : List (Option Part)) : Except ValueFault (List Part) :=
  match parts.idxOf? none with
  | some index => .error (.octetsAmongTexts (index + 1))
  | none => .ok (parts.filterMap id)

def ofSegments (given : List (List (String × Tree))) : Except ValueFault (List Part) := do
  allTexts (← given.mapM ofFields?)

end Part

end Routebook
