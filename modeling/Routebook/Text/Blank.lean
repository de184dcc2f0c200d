import Routebook.Text.Printable

/-!
# Blanks and lines

Blanks are the white space characters of Unicode and the four information separators. Lines end
at any of ten boundary characters; a carriage return and the line feed after it end one line.
-/
namespace Routebook.Text

def blankRanges : List (Nat × Nat) :=
  [(0x9, 0xd), (0x1c, 0x20), (0x85, 0x85), (0xa0, 0xa0), (0x1680, 0x1680), (0x2000, 0x200a),
   (0x2028, 0x2029), (0x202f, 0x202f), (0x205f, 0x205f), (0x3000, 0x3000)]

def isBlank (c : Char) : Bool := inRanges c.toNat blankRanges

def pushWord : List Char → List (List Char) → List (List Char)
  | [], words => words
  | word, words => word :: words

/-- Reads from the right: the word that begins the text, if one does, and the words after it. -/
def scanWords : List Char → List Char × List (List Char)
  | [] => ([], [])
  | c :: rest =>
    let (word, words) := scanWords rest
    if isBlank c then ([], pushWord word words) else (c :: word, words)

/-- The longest runs without blanks. -/
def words (text : List Char) : List (List Char) :=
  let (word, rest) := scanWords text
  pushWord word rest

def trim (text : List Char) : List Char :=
  ((text.dropWhile isBlank).reverse.dropWhile isBlank).reverse

def boundaryRanges : List (Nat × Nat) :=
  [(0xa, 0xd), (0x1c, 0x1e), (0x85, 0x85), (0x2028, 0x2029)]

def isBoundary (c : Char) : Bool := inRanges c.toNat boundaryRanges

def putInLine (c : Char) : List (List Char) → List (List Char)
  | [] => [[c]]
  | line :: rest => (c :: line) :: rest

/-- The lines of a text without what ends them; what ends the last line opens no other. -/
def lines : List Char → List (List Char)
  | [] => []
  | '\r' :: '\n' :: rest => [] :: lines rest
  | c :: rest => if isBoundary c then [] :: lines rest else putInLine c (lines rest)

/-- A carriage return, with the line feed after it if there is one, becomes a line feed. -/
def unifyNewlines : List Char → List Char
  | [] => []
  | '\r' :: '\n' :: rest => '\n' :: unifyNewlines rest
  | c :: rest => (if c = '\r' then '\n' else c) :: unifyNewlines rest

end Routebook.Text
