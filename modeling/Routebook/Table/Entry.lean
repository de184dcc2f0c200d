import Routebook.Text.Blank
import Routebook.Fault

/-!
# Route tables

A table declares one template a line, and after it perhaps the name of a component. A number sign
begins a comment that takes up the rest of the line; lines without words declare nothing.
-/
namespace Routebook.Table

/-- A declaration and its line: a number in a table that is read, and any value elsewhere. -/
structure Entry (α : Type) where
  line : α
  template : String
  component : Option String
  deriving DecidableEq, Repr

def commentSign : Char := '#'

/-- The words of a line before its comment. -/
def declaredWords (line : List Char) : List (List Char) :=
  Text.words (line.takeWhile (· ≠ commentSign))

def Entry.ofLine? (number : Int) (line : List Char) : Option (Entry Int) :=
  match declaredWords line with
  | [] => none
  | template :: rest => some ⟨number, String.ofList template, rest.head?.map String.ofList⟩

/-- The declarations of lines that are counted on from a number. -/
def entriesFrom (number : Int) : List (List Char) → List (Entry Int)
  | [] => []
  | line :: rest => (Entry.ofLine? number line).toList ++ entriesFrom (number + 1) rest

def read (text : String) : List (Entry Int) := entriesFrom 1 (Text.lines text.toList)

namespace Entry

def signature : Signature := ⟨"TableEntry", ["lineno", "template"], ["component"]⟩

/-- An entry from named values. Only the template is asked to be of its kind; a component that is
no text is no component. -/
def ofFields (fields : List (String × Tree)) : Except ValueFault (Entry Tree) := do
  let template ← Tree.lens.asText ((List.lookup "template" fields).getD .null)
  let component := match List.lookup "component" fields with
    | some (.atom (.text component)) => some component
    | _ => none
  return ⟨(List.lookup "lineno" fields).getD .null, template, component⟩

end Entry

end Routebook.Table
