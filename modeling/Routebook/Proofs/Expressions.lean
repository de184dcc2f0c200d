import Routebook.Pattern

/-!
# Regular expressions

The notation of regular expressions with all its characters in force: anchors, groups, alternatives,
sets of characters, and characters or sets that are repeated. `Expression.read?` reads a text as an
expression and refuses what is malformed, and what goes beyond this part of the notation. An
expression matches by backtracking: `Expression.stops` lists the places that it can end at, in the
order in which they are tried, and `Expression.fullMatch?` takes the first one that leaves no text.
A group that no place has passed through takes no part and has no text.
-/
namespace Routebook

/-- What one character of a text is compared with. -/
inductive Charset where
  | only (c : Char)
  /-- Every character but a line feed. -/
  | any
  | among (members : List Char)
  | except (members : List Char)
  deriving DecidableEq, Repr

def Charset.has : Charset → Char → Bool
  | .only c, d => d == c
  | .any, d => d != '\n'
  | .among members, d => members.contains d
  | .except members, d => !members.contains d

inductive Expression where
  | empty
  | start
  | finish
  /-- As many characters of a set as can be, within bounds. -/
  | chars (set : Charset) (least : Nat) (most : Option Nat)
  | group (number : Nat) (inner : Expression)
  | both (first second : Expression)
  /-- The first one, or else the second one. -/
  | either (first second : Expression)
  deriving DecidableEq, Repr

namespace Expression

/-- One expression after the other. -/
def series (expressions : List Expression) : Expression := expressions.foldr .both .empty

/-! ### Matching -/

/-- Where a search stands: whether nothing has been taken yet, what text is left, and what each
group took. -/
structure Place where
  fresh : Bool
  rest : List Char
  groups : List (Option (List Char))
  deriving DecidableEq, Repr

/-- The numbers from `high` down to `low`. -/
def countdown (low high : Nat) : List Nat :=
  (Pattern.downFrom high ++ [0]).filter (low ≤ ·)

/-- Goes on behind some characters. -/
def Place.skip (place : Place) (count : Nat) : Place :=
  { place with fresh := place.fresh && count == 0, rest := place.rest.drop count }

/-- Keeps for a group what was taken since an earlier place. -/
def Place.keep (place : Place) (number : Nat) (earlier : Place) : Place :=
  let taken := earlier.rest.take (earlier.rest.length - place.rest.length)
  { place with groups := place.groups.set number (some taken) }

/-- The places at which an expression can end, the preferred ones first. -/
def stops : Expression → Place → List Place
  | .empty, place => [place]
  | .start, place => if place.fresh then [place] else []
  | .finish, place => if place.rest = [] ∨ place.rest = ['\n'] then [place] else []
  | .chars set least most, place =>
    let run := (place.rest.takeWhile set.has).length
    (countdown least ((most.map (min run)).getD run)).map place.skip
  | .group number inner, place => (stops inner place).map (·.keep number place)
  | .both first second, place => (stops first place).flatMap (stops second)
  | .either first second, place => stops first place ++ stops second place

/-- What the groups hold at the first place that leaves no text. -/
def answer? (expression : Expression) (place : Place) : Option (List (Option (List Char))) :=
  ((stops expression place).find? (·.rest.isEmpty)).map (·.groups)

/-- What the groups hold when an expression with so many groups takes up a whole text. -/
def fullMatch? (expression : Expression) (groups : Nat) (text : List Char) :
    Option (List (Option (List Char))) :=
  answer? expression ⟨true, text, List.replicate groups none⟩

/-- The group of the alternative that was not taken has no text. -/
example : fullMatch? (.either (.group 0 (.chars (.only 'a') 1 none))
    (.group 1 (.chars .any 0 none))) 2 "ab".toList = some [none, some ['a', 'b']] := by decide

/-! ### Reading -/

inductive Token where
  | start
  | finish
  | opening
  | closing
  | bar
  | one (set : Charset)
  | times (least : Nat) (most : Option Nat)
  deriving DecidableEq, Repr

/-- What the next character of a text belongs to. -/
inductive Mode where
  | item
  /-- A character behind a backslash. -/
  | escaped
  /-- The members of a set behind its bracket, as far as they have been read. -/
  | members (excluding : Bool) (read : List Char)

/-- A character that stands for itself, or for a token of its own. Counted repetitions are not part
of this notation. -/
def token? : Char → Option Token
  | '^' => some .start
  | '$' => some .finish
  | '(' => some .opening
  | ')' => some .closing
  | '|' => some .bar
  | '.' => some (.one .any)
  | '?' => some (.times 0 (some 1))
  | '*' => some (.times 0 none)
  | '+' => some (.times 1 none)
  | '\x7b' => none
  | c => some (.one (.only c))

/-- The characters that may mean more than themselves in a set: ranges, classes and operations are
not part of this notation. -/
def isSetOperator (c : Char) : Bool := "[]\\-&~|".toList.contains c

/-- The tokens of a text. Behind a backslash every character stands for itself, but letters and
digits are refused. -/
def tokens? : Mode → List Char → Option (List Token)
  | .item, [] => some []
  | .item, '\\' :: rest => tokens? .escaped rest
  | .item, '[' :: '^' :: rest => tokens? (.members true []) rest
  | .item, '[' :: rest => tokens? (.members false []) rest
  | .item, c :: rest => do
    let token ← token? c
    return token :: (← tokens? .item rest)
  | .escaped, c :: rest =>
    if c.isAlphanum then none
    else (tokens? .item rest).map (.one (.only c) :: ·)
  | .members excluding read, c :: rest =>
    -- A set is not empty: a bracket that comes at once is not its end.
    if c = ']' ∧ read ≠ [] then
      (tokens? .item rest).map (.one (if excluding then .except read else .among read) :: ·)
    else if isSetOperator c then none
    else tokens? (.members excluding (read ++ [c])) rest
  | _, [] => none

/-- What has been read of a group, or of the whole text: the alternatives that are complete, and the
sequence that is being read with its last expression in front. -/
structure Frame where
  complete : Option Expression
  sequence : List Expression

namespace Frame

def empty : Frame := ⟨none, []⟩

def close (frame : Frame) : Expression :=
  let last := Expression.series frame.sequence.reverse
  match frame.complete with
  | none => last
  | some complete => .either complete last

def push (frame : Frame) (expression : Expression) : Frame :=
  { frame with sequence := expression :: frame.sequence }

/-- Repeats the expression that was read last. Only one character can be repeated here, and only
once. -/
def repeat? (frame : Frame) (least : Nat) (most : Option Nat) : Option Frame :=
  match frame.sequence with
  | .chars set 1 (some 1) :: rest => some { frame with sequence := .chars set least most :: rest }
  | _ => none

end Frame

/-- Builds the expression of tokens with the number of its groups. `opened` groups have begun; those
that have not ended are on the stack, each with what stood before it. -/
def build? (opened : Nat) (frame : Frame) :
    List (Nat × Frame) → List Token → Option (Expression × Nat)
  | [], [] => some (frame.close, opened)
  | _ :: _, [] => none
  | stack, .start :: rest => build? opened (frame.push .start) stack rest
  | stack, .finish :: rest => build? opened (frame.push .finish) stack rest
  | stack, .one set :: rest => build? opened (frame.push (.chars set 1 (some 1))) stack rest
  | stack, .times least most :: rest => do
    build? opened (← frame.repeat? least most) stack rest
  | stack, .bar :: rest => build? opened ⟨some frame.close, []⟩ stack rest
  | stack, .opening :: rest => build? (opened + 1) .empty ((opened, frame) :: stack) rest
  | (number, outer) :: stack, .closing :: rest =>
    build? opened (outer.push (.group number frame.close)) stack rest
  | [], .closing :: _ => none

def read? (text : List Char) : Option (Expression × Nat) := do
  build? 0 .empty [] (← tokens? .item text)

/-- A character that the notation uses reads as itself only behind a backslash. -/
example : read? "a.+|\\(\\+".toList =
    some (.either (series [.chars (.only 'a') 1 (some 1), .chars .any 1 none])
      (series [.chars (.only '(') 1 (some 1), .chars (.only '+') 1 (some 1)]), 0) := by decide

end Expression

end Routebook
