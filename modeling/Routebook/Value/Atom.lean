import Routebook.Number.Notation
import Routebook.Text.Quoted

/-!
# Atoms

The values without parts. Numbers of either format and truth values are equal if they stand for
the same number. What is not a number equals nothing, so each carries a mark of its own, and
`Atom.same` is the equality under which an atom is found again in a container.
-/
namespace Routebook

inductive Atom where
  | null
  | bool (value : Bool)
  | int (value : Int)
  | float (value : Binary64)
  /-- No number; the mark tells one from another. -/
  | nan (mark : Nat)
  | text (value : String)
  | octets (value : List UInt8)
  deriving DecidableEq, Repr

namespace Atom

/-- The whole number that an atom is, with truth values as one and zero. -/
def whole? : Atom → Option Int
  | .bool value => some value.toInt
  | .int value => some value
  | _ => none

/-- The same atom, or the same number. -/
def same (a b : Atom) : Bool :=
  match a, b with
  | .float x, .float y => x.sameNumber y
  | .float x, b => match b.whole? with
    | some n => x.isWhole n
    | none => false
  | a, .float y => match a.whole? with
    | some n => y.isWhole n
    | none => false
  | a, b => match a.whole?, b.whole? with
    | some m, some n => m == n
    | none, none => a == b
    | _, _ => false

/-- Equality as a comparison shows it. -/
def equal (a b : Atom) : Bool :=
  match a with
  | .nan _ => false
  | _ => a.same b

def truthy : Atom → Bool
  | .null => false
  | .bool value => value
  | .int value => value != 0
  | .float value => !value.isZero
  | .nan _ => true
  | .text value => value != ""
  | .octets value => !value.isEmpty

def shown : Atom → String
  | .null => "None"
  | .bool value => if value then "True" else "False"
  | .int value => toString value
  | .float value => value.text "inf"
  | .nan _ => "nan"
  | .text value => Text.quoted value
  | .octets value => Text.quotedOctets value

/-- A whole number with so many digits at most, or no number that is written in digits alone. -/
def hasDigits (most : Nat) : Atom → Bool
  | .int value => (Nat.toDigits 10 value.natAbs).length ≤ most
  | _ => true

end Atom

end Routebook
