import Routebook.Json.Text
import Routebook.Value.Tree

/-!
# Writing JSON

A tree is written on one line, or with each part on a line of its own. Keys that are numbers, truth
values or null are written as strings; octets cannot be written, neither as values nor as keys.
-/
namespace Routebook.Json

/-- What stands between a key and its value, and by how many blanks parts are moved in, if each has
a line of its own. -/
structure Layout where
  afterKey : List Char
  indent : Option Nat

def compact : Layout := ⟨[':'], none⟩

def indented : Layout := ⟨[':', ' '], some 2⟩

/-- What stands before a part at a depth. -/
def Layout.lineBreak (layout : Layout) (depth : Nat) : List Char :=
  match layout.indent with
  | none => []
  | some width => '\n' :: List.replicate (depth * width) ' '

def atomText : Atom → Except ValueFault (List Char)
  | .null => .ok "null".toList
  | .bool value => .ok (if value then "true" else "false").toList
  | .int value => .ok (toString value).toList
  | .float value => .ok (value.text "Infinity").toList
  | .nan _ => .ok "NaN".toList
  | .text value => .ok (encodeText value.toList)
  | .octets value => .error (.notSerializable (Atom.octets value).kind)

/-- A key is written as a string, whatever it is. -/
def keyText : Atom → Except ValueFault (List Char)
  | .text value => .ok (encodeText value.toList)
  | .octets value => .error (.notMemberName (Atom.octets value).kind)
  | key => (atomText key).map encodeText

/-- Parts between brackets, with commas between them. -/
def enclose (layout : Layout) (depth : Nat) (opening closing : Char)
    (parts : List (List Char)) : List Char :=
  if parts.isEmpty then [opening, closing]
  else
    let separator := ',' :: layout.lineBreak (depth + 1)
    opening :: layout.lineBreak (depth + 1) ++ List.intercalate separator parts ++
      layout.lineBreak depth ++ [closing]

mutual

def render (layout : Layout) (depth : Nat) : Tree → Except ValueFault (List Char)
  | .atom value => atomText value
  | .list items => do
    return enclose layout depth '[' ']' (← renderItems layout (depth + 1) items)
  | .dict entries => do
    return enclose layout depth '\x7b' '\x7d' (← renderEntries layout (depth + 1) entries)

def renderItems (layout : Layout) (depth : Nat) :
    List Tree → Except ValueFault (List (List Char))
  | [] => .ok []
  | item :: rest => do
    let first ← render layout depth item
    return first :: (← renderItems layout depth rest)

def renderEntries (layout : Layout) (depth : Nat) :
    List (Atom × Tree) → Except ValueFault (List (List Char))
  | [] => .ok []
  | (key, value) :: rest => do
    let name ← keyText key
    let written ← render layout depth value
    return (name ++ layout.afterKey ++ written) :: (← renderEntries layout depth rest)

end

def write (layout : Layout) (tree : Tree) : Except ValueFault String :=
  (render layout 0 tree).map String.ofList

end Routebook.Json
