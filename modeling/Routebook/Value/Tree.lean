import Routebook.Value.Shape

/-!
# Trees

A value together with all its parts. Dictionaries compare by their keys, whatever the order of
their entries.
-/
namespace Routebook

inductive Tree where
  | atom (value : Atom)
  | list (items : List Tree)
  | dict (entries : List (Atom × Tree))
  deriving Repr

namespace Tree

def shape : Tree → Shape Tree
  | .atom value => .atom value
  | .list items => .list items
  | .dict entries => .dict entries

def lens : Lens Tree := ⟨shape, .atom⟩

def null : Tree := .atom .null

def bool (value : Bool) : Tree := .atom (.bool value)

def int (value : Int) : Tree := .atom (.int value)

def text (value : String) : Tree := .atom (.text value)

def kind (tree : Tree) : Kind := tree.shape.kind

/-- A dictionary whose keys are texts. -/
def record (fields : List (String × Tree)) : Tree :=
  .dict (fields.map fun field => (.text field.1, field.2))

/-- A dictionary from texts to texts. -/
def ofTexts (fields : List (String × String)) : Tree :=
  record (fields.map fun field => (field.1, .text field.2))

/-- A dictionary from keys and values one after the other; only atoms can be keys. -/
def ofPairs (pairs : List (Tree × Tree)) : Except ValueFault Tree := do
  let entries ← pairs.mapM fun (key, value) => do return (← lens.asKey key, value)
  return .dict (Entries.ofPairs entries)

/-- A part of a dictionary under a text. -/
def field? (tree : Tree) (name : String) : Option Tree :=
  match tree with
  | .dict entries => Entries.find? (.text name) entries
  | _ => none

mutual

def same : Tree → Tree → Bool
  | .atom a, .atom b => a.same b
  | .list items, .list others => sameItems items others
  | .dict entries, .dict others =>
    entries.length == others.length && sameEntries entries others
  | _, _ => false

def sameItems : List Tree → List Tree → Bool
  | [], [] => true
  | item :: rest, other :: others => same item other && sameItems rest others
  | _, _ => false

/-- Each entry is found among the others. -/
def sameEntries : List (Atom × Tree) → List (Atom × Tree) → Bool
  | [], _ => true
  | (key, value) :: rest, others =>
    (match Entries.find? key others with
      | some other => same value other
      | none => false) && sameEntries rest others

end

/-- Equality as a comparison shows it. -/
def equal : Tree → Tree → Bool
  | .atom a, .atom b => a.equal b
  | tree, other => tree.same other

mutual

/-- The text of a value as it appears in the texts of others. -/
def shown : Tree → String
  | .atom value => value.shown
  | .list items => "[" ++ String.intercalate ", " (shownItems items) ++ "]"
  | .dict entries => "\x7b" ++ String.intercalate ", " (shownEntries entries) ++ "\x7d"

def shownItems : List Tree → List String
  | [] => []
  | item :: rest => shown item :: shownItems rest

def shownEntries : List (Atom × Tree) → List String
  | [] => []
  | (key, value) :: rest => (key.shown ++ ": " ++ shown value) :: shownEntries rest

end

/-- The text of a value on its own: text stands for itself. -/
def plainText : Tree → String
  | .atom (.text value) => value
  | tree => tree.shown

mutual

/-- No whole number in a value has more digits. -/
def hasDigits (most : Nat) : Tree → Bool
  | .atom value => value.hasDigits most
  | .list items => hasDigitsItems most items
  | .dict entries => hasDigitsEntries most entries

def hasDigitsItems (most : Nat) : List Tree → Bool
  | [] => true
  | item :: rest => hasDigits most item && hasDigitsItems most rest

def hasDigitsEntries (most : Nat) : List (Atom × Tree) → Bool
  | [] => true
  | (key, value) :: rest =>
    key.hasDigits most && hasDigits most value && hasDigitsEntries most rest

end

/-- The digits that a whole number can have to be written, unless the limit has been lifted. -/
def standardDigits : Option Nat := some 4300

/-- The text of a value on its own, if its whole numbers are within the limit. -/
def text? : Option Nat → Tree → Except ValueFault String
  | none, tree => .ok tree.plainText
  | some most, tree =>
    if tree.hasDigits most then .ok tree.plainText else .error (.tooManyDigits most)

end Tree

end Routebook
