import Routebook.Text.Cut
import Routebook.Text.Percent
import Routebook.Text.Quoted

/-!
# Hosts in brackets

Only an address of version six, or of a future version by its own notation, may stand in brackets
as the host of a location, with nothing before it and only text that begins with a colon after it.
-/
namespace Routebook

inductive AddressFault where
  /-- A bracket without its partner, or text around the brackets that may not be there. -/
  | misplacedBracket
  | futureVersion
  | notAddress (host : String)
  | versionFour
  /-- The authority holds a character whose compatibility form has a delimiter of locations. -/
  | hiddenDelimiter (authority : String)
  deriving DecidableEq, Repr

def AddressFault.message : AddressFault → String
  | .misplacedBracket => "Invalid IPv6 URL"
  | .futureVersion => "IPvFuture address is invalid"
  | .notAddress host => Text.quoted host ++ " does not appear to be an IPv4 or IPv6 address"
  | .versionFour => "An IPv4 address cannot be in brackets"
  | .hiddenDelimiter authority =>
    "netloc '" ++ authority ++ "' contains invalid characters under NFKC normalization"

namespace Url

def isHex (c : Char) : Bool := (Text.Percent.hexValue? c).isSome

/-- A decimal from 0 to 255 without leading zeros. -/
def isDecimalOctet (part : List Char) : Bool :=
  !part.isEmpty && part.all Char.isDigit && part.length ≤ 3 &&
    (part.length = 1 || part.head? ≠ some '0') &&
    part.foldl (fun value c => 10 * value + (c.toNat - '0'.toNat)) 0 ≤ 255

def isVersionFour (host : List Char) : Bool :=
  let parts := Text.splitAt '.' host
  parts.length = 4 && parts.all isDecimalOctet

def isGroup (part : List Char) : Bool := !part.isEmpty && part.all isHex && part.length ≤ 4

/-- How many groups of 16 bits the parts stand for; an address of version four may be the last part
of a whole and stands for two. -/
def countGroups? (tail : Bool) : List (List Char) → Option Nat
  | [] => some 0
  | [last] =>
    if isGroup last then some 1 else if tail && isVersionFour last then some 2 else none
  | part :: rest => if isGroup part then (countGroups? tail rest).map (· + 1) else none

def groups? (tail : Bool) (text : List Char) : Option Nat :=
  if text.isEmpty then some 0 else countGroups? tail (Text.splitAt ':' text)

/-- What stands before and after the first pair of colons. -/
def cutAtGap : List Char → Option (List Char × List Char)
  | ':' :: ':' :: rest => some ([], rest)
  | c :: rest => (cutAtGap rest).map fun (before, after) => (c :: before, after)
  | [] => none

/-- Eight groups, or fewer with a gap that stands for one group or more. -/
def isEightGroups (address : List Char) : Bool :=
  match cutAtGap address with
  | some (before, after) =>
    match groups? false before, groups? true after with
    | some m, some n => m + n ≤ 7
    | _, _ => false
  | none => groups? true address == some 8

/-- A percent sign sets off the name of a zone. -/
def isVersionSix (host : List Char) : Bool :=
  match Text.cutAt '%' host with
  | (address, none) => isEightGroups address
  | (address, some zone) => !zone.isEmpty && !zone.contains '%' && isEightGroups address

/-- The letter v, a version in hexadecimal digits, a point and anything more. -/
def isFutureVersion (host : List Char) : Bool :=
  let version := host.drop 1
  match version.takeWhile isHex, version.dropWhile isHex with
  | _ :: _, '.' :: _ :: _ => true
  | _, _ => false

def checkHost (host : List Char) : Except AddressFault Unit :=
  if host.head? = some 'v' then
    if isFutureVersion host then .ok () else .error .futureVersion
  else if isVersionFour host then .error .versionFour
  else if isVersionSix host then .ok ()
  else .error (.notAddress (String.ofList host))

/-- Checks the host of an authority that holds both brackets. -/
def checkBracketed (authority : List Char) : Except AddressFault Unit :=
  let host := Text.afterLast '@' authority
  match Text.cutAt '[' host with
  | (before, some bracketed) =>
    let (host, after) := Text.cutAt ']' bracketed
    let after := after.getD []
    if !before.isEmpty || !(after.isEmpty || after.head? == some ':') then .error .misplacedBracket
    else checkHost host
  | (_, none) => checkHost (Text.cutAt ':' host).1

def checkBrackets (authority : List Char) : Except AddressFault Unit :=
  match authority.contains '[', authority.contains ']' with
  | false, false => .ok ()
  | true, true => checkBracketed authority
  | _, _ => .error .misplacedBracket

end Url

end Routebook
