import Routebook.Value.Entries

/-!
# Shapes

A shape is the outermost layer of a value, whatever its parts are: trees and objects of a store
are both seen through it. What a value says as a sequence, as a mapping or as pairs depends on its
shape and on the shapes of its parts alone.
-/
namespace Routebook

inductive Shape (α : Type) where
  | atom (value : Atom)
  | list (items : List α)
  | dict (entries : Entries α)

/-- How values of a type are seen, and how an atom is one of them. -/
structure Lens (α : Type) where
  shape : α → Shape α
  atom : Atom → α

namespace Shape

variable {α : Type}

def kind : Shape α → Kind
  | .atom value => value.kind
  | .list _ => .list
  | .dict _ => .dict

def truthy : Shape α → Bool
  | .atom value => value.truthy
  | .list items => !items.isEmpty
  | .dict entries => !entries.isEmpty

end Shape

namespace Lens

variable {α : Type} (lens : Lens α)

def kind (value : α) : Kind := (lens.shape value).kind

def truthy (value : α) : Bool := (lens.shape value).truthy

def text (value : String) : α := lens.atom (.text value)

/-- The text that a value must be to be matched against a pattern. -/
def asText (value : α) : Except ValueFault String :=
  match lens.shape value with
  | .atom (.text text) => .ok text
  | .atom (.octets _) => .error .octetsForText
  | shape => .error (.notText shape.kind)

/-- The atom that a value must be to be a key. -/
def asKey (value : α) : Except ValueFault Atom :=
  match lens.shape value with
  | .atom key => .ok key
  | shape => .error (.unhashable shape.kind)

/-- What a value holds when it is gone through: characters, octets, items or keys. -/
def elements? (value : α) : Option (List α) :=
  match lens.shape value with
  | .atom (.text text) => some (text.toList.map fun c => lens.text (String.singleton c))
  | .atom (.octets octets) => some (octets.map fun octet => lens.atom (.int octet.toNat))
  | .atom _ => none
  | .list items => some items
  | .dict entries => some (entries.map fun entry => lens.atom entry.1)

/-- Puts elements that are pairs, the first of them at the given index. -/
def putPairs (index : Nat) (entries : Entries α) : List α → Except ValueFault (Entries α)
  | [] => .ok entries
  | element :: rest =>
    match lens.elements? element with
    | none => .error (.elementNotSequence index)
    | some [key, value] => do
      let key ← lens.asKey key
      putPairs (index + 1) (entries.put key value) rest
    | some parts => .error (.elementLength index parts.length)

/-- The entries of a mapping, or of a sequence of pairs. -/
def toEntries (value : α) : Except ValueFault (Entries α) :=
  match lens.shape value with
  | .dict entries => .ok entries
  | shape =>
    match lens.elements? value with
    | some elements => lens.putPairs 0 [] elements
    | none => .error (.notIterable shape.kind)

/-- The entries of a mapping, which nothing but a dictionary is. -/
def asMapping (value : α) : Except ValueFault (Entries α) :=
  match lens.shape value with
  | .dict entries => .ok entries
  | shape => .error (.notMapping shape.kind)

/-- Where a value points in a sequence of a length; negative positions count from the end. -/
def position? (length : Nat) (value : α) : Option (Option Nat) :=
  match lens.shape value with
  | .atom key => key.whole?.map fun n =>
    let place : Int := if n < 0 then n + length else n
    if 0 ≤ place ∧ place < length then some place.toNat else none
  | _ => none

/-- The part of a value under a key, or at a position. -/
def item (owner key : α) : Except ValueFault α :=
  match lens.shape owner with
  | .dict entries => do
    let key ← lens.asKey key
    match entries.find? key with
    | some value => .ok value
    | none => .error (.missingKey key)
  | shape =>
    -- Keys can be gone through too, but only sequences have positions.
    match shape, lens.elements? owner with
    | .atom (.text _), some elements | .atom (.octets _), some elements
    | .list _, some elements =>
      match lens.position? elements.length key with
      | none => .error (.notPosition shape.kind (lens.kind key))
      | some none => .error (.outOfRange shape.kind)
      | some (some index) =>
        match elements[index]? with
        | some element => .ok element
        | none => .error (.outOfRange shape.kind)
    | _, _ => .error (.notSubscriptable shape.kind)

/-- The shape of a list or dictionary after a value is put under a key, or at a position. -/
def setItem (owner key value : α) : Except ValueFault (Shape α) :=
  match lens.shape owner with
  | .dict entries => do
    let key ← lens.asKey key
    return .dict (entries.put key value)
  | .list items =>
    match lens.position? items.length key with
    | none => .error (.notPosition .list (lens.kind key))
    | some none => .error .assignmentOutOfRange
    | some (some index) => .ok (.list (items.set index value))
  | .atom atom => .error (.noItemAssignment atom.kind)

end Lens

end Routebook
