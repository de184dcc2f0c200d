import Routebook.Entity
import Routebook.Store

/-!
# Digests

What a hash keeps of an entity; two hashes are the same if the digests are. Numbers are kept modulo
a prime, so that equal numbers of either format have one digest, and minus one goes with minus two.
A text is kept as the octets of its characters, each as wide as the widest needs, and so goes with
octets; no octets go with zero. Entities are kept as tuples of their fields, a route as its
template alone and a match without its parameters. Lists and dictionaries have no digest. A tuple
is written in front of its parts with their number, so a digest can be read in one way only.
-/
namespace Routebook

/-- One thing in a digest. -/
inductive Digest.Mark where
  | number (value : Int)
  | null
  | nan (mark : Nat)
  | octets (octets : List UInt8)
  | tuple (length : Nat)
  deriving DecidableEq, Repr

abbrev Digest := List Digest.Mark

namespace Digest

open Binary64 (powerOfTwo)

def tuple (parts : List Digest) : Digest := .tuple parts.length :: parts.flatten

def modulus : Nat := powerOfTwo 61 - 1

def ofMagnitude (negative : Bool) (magnitude : Nat) : Digest :=
  let rest : Int := ((magnitude % modulus : Nat) : Int)
  let signed := if negative then -rest else rest
  -- Minus one is what a hash says when it fails, so it is never a hash.
  [.number (if signed = -1 then -2 else signed)]

/-- A power of two counts by its exponent modulo 61. -/
def ofBinary64 : Binary64 → Digest
  | .infinite negative => [.number (if negative then -314159 else 314159)]
  | .finite negative significand exponent =>
    ofMagnitude negative (significand * powerOfTwo (exponent % 61).toNat)

/-- The lowest `width` octets of a number, the lowest first. -/
def lowOctets : Nat → Nat → List UInt8
  | 0, _ => []
  | width + 1, n => UInt8.ofNat (n % 256) :: lowOctets width (n / 256)

def textOctets (text : String) : List UInt8 :=
  let codes := text.toList.map Char.toNat
  let greatest := codes.foldl max 0
  let width := if greatest < 0x100 then 1 else if greatest < 0x10000 then 2 else 4
  codes.flatMap (lowOctets width)

def ofOctets (octets : List UInt8) : Digest :=
  if octets.isEmpty then [.number 0] else [.octets octets]

def ofText (text : String) : Digest := ofOctets (textOctets text)

def ofAtom : Atom → Digest
  | .null => [.null]
  | .bool value => ofMagnitude false value.toNat
  | .int value => ofMagnitude (value < 0) value.natAbs
  | .float value => ofBinary64 value
  | .nan mark => [.nan mark]
  | .text value => ofText value
  | .octets value => ofOctets value

variable {α : Type}

def ofValue (lens : Lens α) (value : α) : Except ValueFault Digest := do
  return ofAtom (← lens.asKey value)

def ofValues (lens : Lens α) (values : List α) : Except ValueFault Digest := do
  return tuple (← values.mapM (ofValue lens))

def ofRoute (route : Route) : Digest := tuple [ofText route.template]

def ofEntity (lens : Lens α) : Entity α → Except ValueFault Digest
  | .value value => ofValue lens value
  | .route route => .ok (ofRoute route)
  | .keys keys => .ok (tuple (keys.map ofText))
  | .found route path _ => do return tuple [ofRoute route, ← ofValue lens path]
  | .page page => ofValues lens (page.fields.map (·.2))
  | .config config => ofValues lens (config.fields.map (·.2))
  | .segment fields => ofValues lens (fields.map (·.2))

end Digest

end Routebook
