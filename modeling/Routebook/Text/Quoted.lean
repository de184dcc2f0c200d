import Routebook.Text.Printable

/-!
# Quoted text

A text in quotes, as it appears in messages: a quote or backslash inside is escaped, a character
that is not printable is written by its code point, everything else stands for itself. Single
quotes enclose the text unless it holds a single quote and no double quote.
-/
namespace Routebook.Text

/-- The lowest `width` hexadecimal digits of a number, the highest of them first. -/
def hexDigits : Nat → Nat → List Char
  | 0, _ => []
  | width + 1, n => hexDigits width (n / 16) ++ [Nat.digitChar (n % 16)]

def singleQuote : Char := '\''

def doubleQuote : Char := '"'

def quoteFor (text : List Char) : Char :=
  if singleQuote ∈ text ∧ doubleQuote ∉ text then doubleQuote else singleQuote

/-- The names of the three controls that have one. -/
def namedControl? (c : Char) : Option Char :=
  if c = '\n' then some 'n'
  else if c = '\r' then some 'r'
  else if c = '\t' then some 't'
  else none

/-- A code point in two, four or eight hexadecimal digits, after the letter that tells how many. -/
def escapeCode (code : Nat) : List Char :=
  if code ≤ 0xff then '\\' :: 'x' :: hexDigits 2 code
  else if code ≤ 0xffff then '\\' :: 'u' :: hexDigits 4 code
  else '\\' :: 'U' :: hexDigits 8 code

def escapeChar (quote c : Char) : List Char :=
  if c = quote ∨ c = '\\' then ['\\', c]
  else match namedControl? c with
    | some name => ['\\', name]
    | none => if isPrintable c then [c] else escapeCode c.toNat

def quoteChars (text : List Char) : List Char :=
  let quote := quoteFor text
  quote :: text.flatMap (escapeChar quote) ++ [quote]

def quoted (text : String) : String := String.ofList (quoteChars text.toList)

/-- An octet among quoted octets stands for itself only if it is a visible ASCII character or the
space. -/
def escapeOctet (quote : Char) (octet : UInt8) : List Char :=
  let c := Char.ofNat octet.toNat
  if c = quote ∨ c = '\\' then ['\\', c]
  else match namedControl? c with
    | some name => ['\\', name]
    | none => if 0x20 ≤ octet ∧ octet < 0x7f then [c] else escapeCode octet.toNat

/-- Octets in quotes, after the letter that sets them apart from text. -/
def quotedOctets (octets : List UInt8) : String :=
  let quote := quoteFor (octets.map fun octet => Char.ofNat octet.toNat)
  String.ofList ('b' :: quote :: octets.flatMap (escapeOctet quote) ++ [quote])

end Routebook.Text
