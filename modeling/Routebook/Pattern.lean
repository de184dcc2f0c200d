import Routebook.Template

/-!
# Route patterns

A pattern is the list of items that a route matches one after the other. `Pattern.text` writes it
in the notation of regular expressions. `Pattern.match?` answers what the captures hold when the
items take up a whole candidate: every choice is tried with the longest text first, so the answer
is the first success of a search with backtracking.
-/
namespace Routebook

namespace Pattern

inductive Item where
  /-- The place before the first character. -/
  | start
  /-- The place after the last character, or before a line feed that is last. -/
  | finish
  /-- The given character. -/
  | char (c : Char)
  /-- The given character, or nothing. -/
  | optional (c : Char)
  /-- One or more characters other than the separator, kept. -/
  | capture
  deriving DecidableEq, Repr

end Pattern

abbrev Pattern := List Pattern.Item

/-- What a segment means for matching: its text literally, or any one value. -/
inductive Part where
  | literal (text : List Char)
  | wildcard
  deriving DecidableEq, Repr

namespace Part

def ofSegment (segment : Segment) : Part :=
  if segment.isParam then .wildcard else .literal segment.text.toList

def items : Part → Pattern
  | .literal text => text.map .char
  | .wildcard => [.capture]

end Part

namespace Pattern

def separator : Char := '/'

/-- The notation of a value: one or more characters other than the separator. -/
def wildcard : List Char := "[^/]+".toList

/-- The characters that the notation gives a meaning of its own, and the blanks. -/
def specialChars : List Char := " \t\n\r\x0b\x0c()[]\x7b\x7d?*+-|^$\\.&~#".toList

def isSpecial (c : Char) : Bool := specialChars.contains c

def escape (c : Char) : List Char := if isSpecial c then ['\\', c] else [c]

def Item.text : Item → List Char
  | .start => ['^']
  | .finish => ['$']
  | .char c => escape c
  | .optional c => escape c ++ ['?']
  | .capture => '(' :: wildcard ++ [')']

def text (pattern : Pattern) : List Char := pattern.flatMap Item.text

/-- Anchored at both ends; one separator more than the parts hold is accepted at the end. -/
def ofParts (parts : List Part) : Pattern :=
  .start :: parts.flatMap Part.items ++ [.optional separator, .finish]

def groups (pattern : Pattern) : Nat := pattern.count .capture

/-- The numbers from `n` down to one. -/
def downFrom : Nat → List Nat
  | 0 => []
  | n + 1 => (n + 1) :: downFrom n

/-- Matches items against all of the text that is left; `fresh` says that nothing has been taken
yet. -/
def matchFrom : Pattern → Bool → List Char → Option (List (List Char))
  | [], _, rest => if rest.isEmpty then some [] else none
  | .start :: items, fresh, rest => if fresh then matchFrom items fresh rest else none
  | .finish :: items, fresh, rest =>
    if rest = [] ∨ rest = ['\n'] then matchFrom items fresh rest else none
  | .char c :: items, _, rest =>
    match rest with
    | d :: more => if c = d then matchFrom items false more else none
    | [] => none
  | .optional c :: items, fresh, rest =>
    -- The character is given back if what follows does not match behind it.
    let taken := match rest with
      | d :: more => if c = d then matchFrom items false more else none
      | [] => none
    taken <|> matchFrom items fresh rest
  | .capture :: items, _, rest =>
    let room := (rest.takeWhile (· ≠ separator)).length
    (downFrom room).findSome? fun n =>
      (matchFrom items false (rest.drop n)).map (rest.take n :: ·)

def match? (pattern : Pattern) (candidate : List Char) : Option (List (List Char)) :=
  matchFrom pattern true candidate

end Pattern

end Routebook
