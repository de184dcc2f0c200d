import Routebook.Number.Shortest
import Routebook.Text.Blank
import Routebook.Text.Digit

/-!
# Decimal notation

Writing and reading floating-point numbers. Numbers whose point stands far from their digits are
written with an exponent; the others in full, with a fractional part always. The reader takes
either form with any number of digits of any script, underscores between digits, and the words for
infinity and for what is no number.
-/
namespace Routebook.Binary64

/-- Where notation without exponent ends, and how an exponent is written. -/
structure Style where
  lowestPoint : Int
  highestPoint : Int
  exponentMark : Char
  exponentDigits : Nat

/-- Magnitudes from 10^-4 up to 10^16 are written without an exponent; an exponent has its sign and
two digits at least. -/
def style : Style := ⟨-3, 16, 'e', 2⟩

def infinityText (negative : Bool) (word : String) : String :=
  if negative then "-" ++ word else word

/-- Digits with the point among them, zeros filled in on either side. -/
def positional (digits : List Char) (point : Int) : List Char :=
  if point ≤ 0 then '0' :: '.' :: List.replicate point.natAbs '0' ++ digits
  else
    let before := point.natAbs
    let whole := digits.take before ++ List.replicate (before - digits.length) '0'
    let fraction := digits.drop before
    whole ++ '.' :: (if fraction.isEmpty then ['0'] else fraction)

def exponential (style : Style) (digits : List Char) (point : Int) : List Char :=
  let power := point - 1
  let written := Nat.toDigits 10 power.natAbs
  let fraction := digits.drop 1
  digits.take 1 ++ (if fraction.isEmpty then [] else '.' :: fraction) ++
    style.exponentMark :: (if power < 0 then '-' else '+') ::
      List.replicate (style.exponentDigits - written.length) '0' ++ written

def magnitudeText (significand : Nat) (exponent : Int) : List Char :=
  if significand = 0 then ['0', '.', '0']
  else
    let (digits, point) := shortestDigits significand exponent
    if style.lowestPoint ≤ point ∧ point ≤ style.highestPoint then positional digits point
    else exponential style digits point

/-- The text of a number; the word stands for infinity. -/
def text (infinity : String) : Binary64 → String
  | .infinite negative => infinityText negative infinity
  | .finite negative significand exponent =>
    let magnitude := magnitudeText significand exponent
    String.ofList (if negative then '-' :: magnitude else magnitude)

/-- What a numeral stands for. -/
inductive Numeral where
  | number (value : Binary64)
  | notANumber
  deriving DecidableEq, Repr

/-- Digits of all scripts become those of ASCII. -/
def plainDigit (c : Char) : Char :=
  match Text.digitValue? c with
  | some value => Nat.digitChar value
  | none => c

/-- Removes underscores; each must stand between two digits. -/
def joinDigits? : Char → List Char → Option (List Char)
  | previous, [] => if previous = '_' then none else some []
  | previous, '_' :: rest => if previous.isDigit then joinDigits? '_' rest else none
  | previous, c :: rest =>
    if previous = '_' ∧ !c.isDigit then none else (joinDigits? c rest).map (c :: ·)

def digitsValue (digits : List Char) : Nat :=
  digits.foldl (fun value c => 10 * value + (c.toNat - '0'.toNat)) 0

def splitSign : List Char → Bool × List Char
  | '-' :: rest => (true, rest)
  | '+' :: rest => (false, rest)
  | rest => (false, rest)

/-- What may follow the digits of a decimal: nothing, or an exponent. -/
def exponent? : List Char → Option Int
  | [] => some 0
  | mark :: rest =>
    let (negative, digits) := splitSign rest
    if (mark = 'e' ∨ mark = 'E') ∧ digits ≠ [] ∧ digits.all Char.isDigit then
      some (if negative then -(digitsValue digits : Int) else digitsValue digits)
    else none

def decimal? (negative : Bool) (text : List Char) : Option Binary64 :=
  let whole := text.takeWhile Char.isDigit
  let rest := text.dropWhile Char.isDigit
  let (fraction, rest) := match rest with
    | '.' :: more => (more.takeWhile Char.isDigit, more.dropWhile Char.isDigit)
    | _ => ([], rest)
  if whole.isEmpty && fraction.isEmpty then none
  else (exponent? rest).map fun power =>
    ofDecimal negative (digitsValue (whole ++ fraction)) (power - fraction.length)

def numeral? (text : String) : Option Numeral := do
  let plain := (Text.trim text.toList).map plainDigit
  -- A blank stands for what comes before the text, which is no digit.
  let (negative, magnitude) := splitSign (← joinDigits? ' ' plain)
  let word := String.ofList (magnitude.map Char.toLower)
  if word = "inf" ∨ word = "infinity" then return .number (.infinite negative)
  else if word = "nan" then return .notANumber
  else return .number (← decimal? negative magnitude)

end Routebook.Binary64
