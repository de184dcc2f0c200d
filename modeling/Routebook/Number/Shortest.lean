import Routebook.Number.Binary64

/-!
# Shortest decimals

The decimal that stands for a finite number is the one with the fewest digits that rounds back
to it, and of those the nearest. The decimals that round back are those in the interval up to the
middles between the number and its two neighbours, ends included if the significand is even. For
each count of digits it is enough to look at the two decimals around the number.
-/
namespace Routebook.Binary64

/-- The position of the decimal point: the number is below ten to this power, and not below a tenth
of it. -/
def pointPosition (num den : Nat) : Int :=
  if den ≤ num then (Nat.toDigits 10 (num / den)).length
  else
    let zeros := (Nat.toDigits 10 (den / num)).length
    if den ≤ num * powerOfTen (zeros - 1) then 2 - (zeros : Int) else 1 - (zeros : Int)

/-- A whole number times a power of ten, as numerator and denominator. -/
def decimalRatio (digits : Nat) (power : Int) : Nat × Nat :=
  if power < 0 then (digits, powerOfTen power.natAbs) else (digits * powerOfTen power.natAbs, 1)

/-- The numbers that round to a finite number, in quarters of its last place. -/
structure Interval where
  low : Nat
  high : Nat
  exponent : Int
  closed : Bool

/-- Just above a power of two the neighbour below is only half as far away. -/
def interval (significand : Nat) (exponent : Int) : Interval :=
  let narrow := significand = powerOfTwo 52 ∧ leastExponent < exponent
  ⟨4 * significand - (if narrow then 1 else 2), 4 * significand + 2, exponent - 2,
    significand % 2 = 0⟩

def Interval.contains (range : Interval) (num den : Nat) : Bool :=
  let (ln, ld) := scaled range.low 1 range.exponent
  let (hn, hd) := scaled range.high 1 range.exponent
  if range.closed then ln * den ≤ num * ld && num * hd ≤ hn * den
  else ln * den < num * ld && num * hd < hn * den

/-- The nearer of the two decimals around a number that round back to it, the even one of two
equally near. -/
def neighbour? (range : Interval) (num den : Nat) (power : Int) : Option Nat :=
  let (un, ud) := decimalRatio 1 power
  let below := num * ud / (den * un)
  let fits (digits : Nat) : Bool :=
    let (n, d) := decimalRatio digits power
    range.contains n d
  match fits below, fits (below + 1) with
  | false, false => none
  | true, false => some below
  | false, true => some (below + 1)
  | true, true =>
    let twice := 2 * (num * ud)
    let middle := (2 * below + 1) * (den * un)
    if twice < middle then some below
    else if middle < twice then some (below + 1)
    else some (below + below % 2)

/-- Tries one digit more each time. -/
def searchDigits (range : Interval) (num den : Nat) (point : Int) : Nat → Nat → Nat × Int
  | 0, count => (num * (decimalRatio 1 (point - count)).2 / den, point - count)
  | tries + 1, count =>
    match neighbour? range num den (point - count) with
    | some digits => (digits, point - count)
    | none => searchDigits range num den point tries (count + 1)

def dropTrailingZeros (digits : List Char) : List Char :=
  (digits.reverse.dropWhile (· = '0')).reverse

/-- The digits of the shortest decimal of a magnitude that is not zero, and how many of them stand
before the point. -/
def shortestDigits (significand : Nat) (exponent : Int) : List Char × Int :=
  let (num, den) := ratio significand exponent
  let point := pointPosition num den
  let (digits, power) := searchDigits (interval significand exponent) num den point 17 1
  let written := Nat.toDigits 10 digits
  (dropTrailingZeros written, written.length + power)

end Routebook.Binary64
