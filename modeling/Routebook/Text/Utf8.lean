import Routebook.Text.Quoted

/-!
# UTF-8

Octets are read one character at a time. The first octet fixes the ranges in which the octets
after it must lie; `readUnit` stops at the first that does not. `decode` refuses malformed octets
and says where and why, `decodeLossy` puts the replacement character for each malformed unit.
-/
namespace Routebook.Text.Utf8

inductive Reason where
  | invalidStart
  | invalidContinuation
  | unexpectedEnd
  deriving DecidableEq, Repr

/-- The octets from `start` up to `stop` are no character. -/
structure Malformed where
  start : Nat
  stop : Nat
  first : UInt8
  reason : Reason
  deriving DecidableEq, Repr

def Reason.message : Reason → String
  | .invalidStart => "invalid start byte"
  | .invalidContinuation => "invalid continuation byte"
  | .unexpectedEnd => "unexpected end of data"

/-- One octet is shown itself, several by their positions. -/
def Malformed.message (fault : Malformed) : String :=
  let place := if fault.stop = fault.start + 1 then
      "byte 0x" ++ String.ofList (hexDigits 2 fault.first.toNat) ++ " in position " ++
        toString fault.start
    else "bytes in position " ++ toString fault.start ++ "-" ++ toString (fault.stop - 1)
  "'utf-8' codec can't decode " ++ place ++ ": " ++ fault.reason.message

/-- The bits of a first octet that count, and the ranges of the octets that must follow it. -/
def follow? (first : UInt8) : Option (Nat × List (UInt8 × UInt8)) :=
  let tail : UInt8 × UInt8 := (0x80, 0xbf)
  let code := first.toNat
  if first < 0x80 then some (code, [])
  else if first < 0xc2 then none
  else if first < 0xe0 then some (code - 0xc0, [tail])
  else if first = 0xe0 then some (code - 0xe0, [(0xa0, 0xbf), tail])
  else if first = 0xed then some (code - 0xe0, [(0x80, 0x9f), tail])
  else if first < 0xf0 then some (code - 0xe0, [tail, tail])
  else if first = 0xf0 then some (code - 0xf0, [(0x90, 0xbf), tail, tail])
  else if first < 0xf4 then some (code - 0xf0, [tail, tail, tail])
  else if first = 0xf4 then some (code - 0xf0, [(0x80, 0x8f), tail, tail])
  else none

/-- Takes octets as long as they lie in their ranges; answers how many were taken. -/
def readTail (code : Nat) : List (UInt8 × UInt8) → List UInt8 → Except Reason Char × Nat
  | [], _ => (.ok (Char.ofNat code), 0)
  | _ :: _, [] => (.error .unexpectedEnd, 0)
  | (low, high) :: ranges, octet :: rest =>
    if low ≤ octet ∧ octet ≤ high then
      let (result, taken) := readTail (code * 64 + (octet.toNat - 0x80)) ranges rest
      (result, taken + 1)
    else (.error .invalidContinuation, 0)

/-- The character that begins with an octet, or why there is none, and how many octets after the
first belong to it. -/
def readUnit (first : UInt8) (rest : List UInt8) : Except Reason Char × Nat :=
  match follow? first with
  | none => (.error .invalidStart, 0)
  | some (code, ranges) => readTail code ranges rest

def replacement : Char := Char.ofNat 0xfffd

def decodeLossy : List UInt8 → List Char
  | [] => []
  | first :: rest =>
    let unit := readUnit first rest
    let c := match unit.1 with
      | .ok c => c
      | .error _ => replacement
    c :: decodeLossy (rest.drop unit.2)
  termination_by octets => octets.length
  decreasing_by simp only [List.length_drop, List.length_cons]; omega

/-- Decodes octets that stand at a given position. -/
def decodeFrom (position : Nat) : List UInt8 → Except Malformed (List Char)
  | [] => .ok []
  | first :: rest =>
    let unit := readUnit first rest
    let next := position + 1 + unit.2
    match unit.1 with
    | .ok c => (decodeFrom next (rest.drop unit.2)).map (c :: ·)
    | .error reason => .error ⟨position, next, first, reason⟩
  termination_by octets => octets.length
  decreasing_by simp only [List.length_drop, List.length_cons]; omega

def decode (octets : List UInt8) : Except Malformed (List Char) := decodeFrom 0 octets

end Routebook.Text.Utf8
