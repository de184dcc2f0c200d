import Routebook.Value.Kind

/-!
# Faults of values

What can be wrong with a value for what is asked of it, and the message that says so.
-/
namespace Routebook

inductive ValueFault where
  /-- Text is asked for. -/
  | notText (kind : Kind)
  /-- Octets stand where text is asked for. -/
  | octetsForText
  | notIterable (kind : Kind)
  | notMapping (kind : Kind)
  | notSubscriptable (kind : Kind)
  | notCallable (kind : Kind)
  | noItemAssignment (kind : Kind)
  /-- A value of this kind is no position in a sequence of that kind. -/
  | notPosition (sequence position : Kind)
  | outOfRange (sequence : Kind)
  | assignmentOutOfRange
  | missingKey (key : Atom)
  | unhashable (kind : Kind)
  /-- An element that should be a key and a value is no sequence. -/
  | elementNotSequence (index : Nat)
  /-- An element that should be a key and a value has another count of parts. -/
  | elementLength (index length : Nat)
  | noField (kind : Kind) (field : String)
  | frozenField (field : String)
  | undeletableField (field : String)
  /-- A trailing text to drop is no text. -/
  | notTrailingText (kind : Kind)
  /-- Literal text to escape is no text. -/
  | notLiteralText (kind : Kind)
  /-- The part at an index of a text to be joined is octets. -/
  | octetsAmongTexts (index : Nat)
  | notSerializable (kind : Kind)
  | notMemberName (kind : Kind)
  /-- A name to look up is no text. -/
  | notName (kind : Kind)
  /-- A whole number has more digits than are written. -/
  | tooManyDigits (most : Nat)
  deriving DecidableEq, Repr

namespace ValueFault

/-- Positions of a sequence, as messages call them. -/
def positionsOf : Kind → String
  | .text => "string indices must be integers"
  | .octets => "byte indices must be integers or slices"
  | .tuple => "tuple indices must be integers or slices"
  | _ => "list indices must be integers or slices"

def sequenceName : Kind → String
  | .text => "string "
  | .octets => ""
  | .tuple => "tuple "
  | _ => "list "

def message : ValueFault → String
  | .notText kind => "expected string or bytes-like object, got '" ++ kind.label ++ "'"
  | .octetsForText => "cannot use a string pattern on a bytes-like object"
  | .notIterable kind => "'" ++ kind.label ++ "' object is not iterable"
  | .notMapping kind => "'" ++ kind.label ++ "' object is not a mapping"
  | .notSubscriptable kind => "'" ++ kind.label ++ "' object is not subscriptable"
  | .notCallable kind => "'" ++ kind.label ++ "' object is not callable"
  | .noItemAssignment kind => "'" ++ kind.label ++ "' object does not support item assignment"
  | .notPosition sequence position =>
    let name := if sequence = .text then "'" ++ position.label ++ "'" else position.label
    positionsOf sequence ++ ", not " ++ name
  | .outOfRange sequence => sequenceName sequence ++ "index out of range"
  | .assignmentOutOfRange => "list assignment index out of range"
  | .missingKey key => key.shown
  | .unhashable kind => "unhashable type: '" ++ kind.label ++ "'"
  | .elementNotSequence index =>
    "cannot convert dictionary update sequence element #" ++ toString index ++ " to a sequence"
  | .elementLength index length =>
    "dictionary update sequence element #" ++ toString index ++ " has length " ++
      toString length ++ "; 2 is required"
  | .noField kind field => "'" ++ kind.label ++ "' object has no attribute '" ++ field ++ "'"
  | .frozenField field => "cannot assign to field " ++ Text.quoted field
  | .undeletableField field => "cannot delete field " ++ Text.quoted field
  | .notTrailingText kind =>
    "removesuffix() argument must be str, not " ++ (if kind = .null then "None" else kind.label)
  | .notLiteralText kind => "decoding to str: need a bytes-like object, " ++ kind.label ++ " found"
  | .octetsAmongTexts index =>
    "sequence item " ++ toString index ++ ": expected " ++ Kind.text.label ++ " instance, " ++
      Kind.octets.label ++ " found"
  | .notSerializable kind => "Object of type " ++ kind.label ++ " is not JSON serializable"
  | .notMemberName kind => "keys must be str, int, float, bool or None, not " ++ kind.label
  | .notName kind => "attribute name must be string, not '" ++ kind.label ++ "'"
  | .tooManyDigits most =>
    "Exceeds the limit (" ++ toString most ++ " digits) for integer string conversion; " ++
      "use sys.set_int_max_str_digits() to increase the limit"

end ValueFault

end Routebook
