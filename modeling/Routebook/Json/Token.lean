import Routebook.Json.Text
import Routebook.Value.Tree

/-!
# Tokens of JSON

A text of JSON is a sequence of punctuation marks, strings, numbers and three words, with blanks
between them. A number without fraction and exponent is a whole number of any size.
-/
namespace Routebook.Json

inductive Token where
  | openList | closeList | openDict | closeDict | comma | colon
  | text (value : List Char)
  | atom (value : Atom)
  deriving DecidableEq, Repr

def punctuation : List (Char × Token) :=
  [('[', .openList), (']', .closeList), ('\x7b', .openDict), ('\x7d', .closeDict), (',', .comma),
   (':', .colon)]

def isJsonBlank (c : Char) : Bool := c = ' ' || c = '\t' || c = '\n' || c = '\r'

def isNumberChar (c : Char) : Bool :=
  c.isDigit || c = '-' || c = '+' || c = '.' || c = 'e' || c = 'E'

def words : List (List Char × Atom) :=
  [("null".toList, .null), ("true".toList, .bool true), ("false".toList, .bool false)]

/-- The digits of a whole number have no zero in front. -/
def isWholeNumber (digits : List Char) : Bool :=
  !digits.isEmpty && digits.all Char.isDigit && (digits.length = 1 || digits.head? ≠ some '0')

/-- A fraction has digits after its point. -/
def hasFraction : List Char → Bool
  | '.' :: rest => match rest.head? with
    | some c => c.isDigit
    | none => false
  | _ => true

def number? (text : List Char) : Option Atom :=
  let (negative, magnitude) := match text with
    | '-' :: rest => (true, rest)
    | _ => (false, text)
  let whole := magnitude.takeWhile Char.isDigit
  let rest := magnitude.dropWhile Char.isDigit
  if !isWholeNumber whole then none
  else if rest.isEmpty then
    let value : Int := Binary64.digitsValue whole
    some (.int (if negative then -value else value))
  else if hasFraction rest then (Binary64.decimal? negative magnitude).map .float
  else none

/-- The first token of a text and what follows it. -/
def readToken? : List Char → Option (Token × List Char)
  | [] => none
  | '"' :: rest => (readText? rest).map fun (chars, after) => (.text chars, after)
  | c :: rest =>
    match punctuation.find? fun mark => mark.1 = c with
    | some mark => some (mark.2, rest)
    | none =>
      if c.isAlpha then
        let word := c :: rest.takeWhile Char.isAlpha
        (words.find? fun entry => entry.1 = word).map fun entry =>
          (.atom entry.2, rest.dropWhile Char.isAlpha)
      else (number? (c :: rest.takeWhile isNumberChar)).map fun value =>
        (.atom value, rest.dropWhile isNumberChar)

theorem readToken?_length_lt {text rest : List Char} {token : Token}
    (found : readToken? text = some (token, rest)) : rest.length < text.length := by
  unfold readToken? at found
  split at found
  · simp at found
  next inner =>
    simp at found
    obtain ⟨chars, read, _⟩ := found
    have := readText?_length_lt read
    simp only [List.length_cons]; omega
  next c inner _ =>
    split at found
    · simp at found; rw [found.2]; simp
    · split at found
      · simp at found
        obtain ⟨_, _, _, _, rfl⟩ := found
        have : (inner.dropWhile Char.isAlpha).length ≤ inner.length :=
          (List.dropWhile_suffix _).length_le
        simp only [List.length_cons]; omega
      · simp at found
        obtain ⟨_, _, _, rfl⟩ := found
        have : (inner.dropWhile isNumberChar).length ≤ inner.length :=
          (List.dropWhile_suffix _).length_le
        simp only [List.length_cons]; omega

def tokens? (text : List Char) : Option (List Token) :=
  match text.dropWhile isJsonBlank with
  | [] => some []
  | _ :: _ =>
    match _found : readToken? (text.dropWhile isJsonBlank) with
    | none => none
    | some (token, rest) => (tokens? rest).map (token :: ·)
  termination_by text.length
  decreasing_by
    have shorter := readToken?_length_lt (by assumption)
    have : (text.dropWhile isJsonBlank).length ≤ text.length :=
      (List.dropWhile_suffix _).length_le
    omega

end Routebook.Json
