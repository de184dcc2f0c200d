import Routebook.Text.Utf8

/-!
# Percent-encoding

A percent sign and two hexadecimal digits stand for an octet. Text is decoded run by run: the
octets of a run of ASCII characters are read as UTF-8, and other characters stand for themselves.
A percent sign without two digits is kept.
-/
namespace Routebook.Text.Percent

def isAscii (c : Char) : Bool := c.toNat < 0x80

def hexValue? (c : Char) : Option Nat :=
  if '0' ≤ c ∧ c ≤ '9' then some (c.toNat - '0'.toNat)
  else if 'a' ≤ c ∧ c ≤ 'f' then some (c.toNat - 'a'.toNat + 10)
  else if 'A' ≤ c ∧ c ≤ 'F' then some (c.toNat - 'A'.toNat + 10)
  else none

def octet? (high low : Char) : Option UInt8 := do
  return UInt8.ofNat (16 * (← hexValue? high) + (← hexValue? low))

/-- The octets of ASCII text with its escapes resolved. -/
def octets : List Char → List UInt8
  | [] => []
  | '%' :: high :: low :: rest =>
    match octet? high low with
    | some octet => octet :: octets rest
    | none => '%'.toUInt8 :: octets (high :: low :: rest)
  | c :: rest => c.toUInt8 :: octets rest

def decodeRun (run : List Char) : List Char :=
  if run.all isAscii then Utf8.decodeLossy (octets run) else run

def decode (text : List Char) : List Char :=
  (text.splitBy fun a b => isAscii a == isAscii b).flatMap decodeRun

end Routebook.Text.Percent
