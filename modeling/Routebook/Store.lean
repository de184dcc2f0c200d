import Routebook.Value.Tree

/-!
# Stores

Lists and dictionaries are objects that values refer to by their place in a store, so a change of
one shows wherever it is referred to. `Store.load` makes new objects for all parts of a tree,
`Store.snapshot` reads a value with all its parts.
-/
namespace Routebook

inductive Value where
  | atom (value : Atom)
  | ref (place : Nat)
  deriving DecidableEq, Repr

inductive Object where
  | list (items : List Value)
  | dict (entries : Entries Value)
  deriving DecidableEq, Repr

/-- Objects by their places, and the number of marks that are in use. -/
structure Store where
  objects : List Object
  marks : Nat
  deriving DecidableEq, Repr

namespace Object

def shape : Object → Shape Value
  | .list items => .list items
  | .dict entries => .dict entries

end Object

namespace Store

def empty : Store := ⟨[], 0⟩

def read? (store : Store) (place : Nat) : Option Object := store.objects[place]?

/-- A new object, at a place of its own. -/
def add (store : Store) (object : Object) : Value × Store :=
  (.ref store.objects.length, { store with objects := store.objects ++ [object] })

def write (store : Store) (place : Nat) (object : Object) : Store :=
  { store with objects := store.objects.set place object }

def shape (store : Store) : Value → Shape Value
  | .atom value => .atom value
  | .ref place =>
    match store.read? place with
    | some object => object.shape
    | none => .atom .null

def lens (store : Store) : Lens Value := ⟨store.shape, .atom⟩

/-- What is no number gets a mark of its own. -/
def loadAtom (store : Store) : Atom → Atom × Store
  | .nan _ => (.nan store.marks, { store with marks := store.marks + 1 })
  | value => (value, store)

mutual

def load (store : Store) : Tree → Value × Store
  | .atom value =>
    let (value, store) := store.loadAtom value
    (.atom value, store)
  | .list items =>
    let (items, store) := store.loadItems items
    store.add (.list items)
  | .dict entries =>
    let (entries, store) := store.loadEntries entries
    store.add (.dict entries)

def loadItems (store : Store) : List Tree → List Value × Store
  | [] => ([], store)
  | item :: rest =>
    let (item, store) := store.load item
    let (rest, store) := store.loadItems rest
    (item :: rest, store)

def loadEntries (store : Store) : List (Atom × Tree) → Entries Value × Store
  | [] => ([], store)
  | (key, value) :: rest =>
    let (key, store) := store.loadAtom key
    let (value, store) := store.load value
    let (rest, store) := store.loadEntries rest
    ((key, value) :: rest, store)

end

/-- A value with its parts down to a depth. -/
def toTree (store : Store) : (depth : Nat) → Value → Tree
  | _, .atom value => .atom value
  | 0, .ref _ => .null
  | depth + 1, .ref place =>
    match store.read? place with
    | some (.list items) => .list (items.map (store.toTree depth))
    | some (.dict entries) => .dict (entries.map fun entry => (entry.1, store.toTree depth entry.2))
    | none => .null

/-- No object is a part of itself, so no value is deeper than the number of objects. -/
def snapshot (store : Store) (value : Value) : Tree := store.toTree store.objects.length value

end Store

end Routebook
