/-!
# Binary floating-point numbers of 64 bits

A finite number is a sign, a significand below 2^53 and a power of two; `ofRatio` rounds a ratio
to the nearest of them, a tie to the even significand. Each magnitude has one representation:
the exponent is the least one, -1074, or the significand has all its 53 bits.
-/
namespace Routebook

inductive Binary64 where
  | finite (negative : Bool) (significand : Nat) (exponent : Int)
  | infinite (negative : Bool)
  deriving DecidableEq, Repr

namespace Binary64

def powerOfTwo (exponent : Nat) : Nat := Nat.pow 2 exponent

def powerOfTen (exponent : Nat) : Nat := Nat.pow 10 exponent

def leastExponent : Int := -1074

def greatestExponent : Int := 971

/-- A ratio times a power of two, as numerator and denominator. -/
def scaled (num den : Nat) (exponent : Int) : Nat × Nat :=
  let power := powerOfTwo exponent.natAbs
  if exponent < 0 then (num, den * power) else (num * power, den)

/-- The nearest whole number, the even one of two. -/
def roundHalfEven (num den : Nat) : Nat :=
  let whole := num / den
  let rest := 2 * (num % den)
  if rest < den then whole
  else if den < rest then whole + 1
  else whole + whole % 2

/-- The least exponent at which a ratio has a whole part below 2^53. -/
def exponentFor (num den : Nat) : Int :=
  -- The logarithms give the exponent or the next higher one.
  let guess : Int := num.log2 - den.log2 - 52
  let (n, d) := scaled num den (-guess)
  max leastExponent (if n < d * powerOfTwo 52 then guess - 1 else guess)

def ofRatio (negative : Bool) (num den : Nat) : Binary64 :=
  if num = 0 then .finite negative 0 leastExponent
  else
    let exponent := exponentFor num den
    let (n, d) := scaled num den (-exponent)
    let significand := roundHalfEven n d
    -- Rounding up may need a 54th bit, and then leaves all others zero.
    let (significand, exponent) :=
      if significand = powerOfTwo 53 then (powerOfTwo 52, exponent + 1)
      else (significand, exponent)
    if greatestExponent < exponent then .infinite negative
    else .finite negative significand exponent

/-- The number nearest to a whole number times a power of ten. -/
def ofDecimal (negative : Bool) (digits : Nat) (power : Int) : Binary64 :=
  if digits = 0 then .finite negative 0 leastExponent
  -- Powers so far out are settled without numbers of their size.
  else if 310 < power then .infinite negative
  else if 0 ≤ power then ofRatio negative (digits * powerOfTen power.natAbs) 1
  else if digits.log2 + 3 * power < -1100 then .finite negative 0 leastExponent
  else ofRatio negative digits (powerOfTen power.natAbs)

/-- The magnitude of a finite number as a ratio. -/
def ratio (significand : Nat) (exponent : Int) : Nat × Nat := scaled significand 1 exponent

def isZero : Binary64 → Bool
  | .finite _ significand _ => significand == 0
  | .infinite _ => false

/-- The two represent the same number: zero has no sign here. -/
def sameNumber (x y : Binary64) : Bool := x == y || (x.isZero && y.isZero)

def isWhole (x : Binary64) (n : Int) : Bool :=
  match x with
  | .infinite _ => false
  | .finite negative significand exponent =>
    let (num, den) := ratio significand exponent
    let signed : Int := if negative then -num else num
    signed == n * den

end Binary64

end Routebook
