import Routebook.Value.Fault

/-!
# Entries

The entries of a dictionary in the order in which their keys first came. To put a value under a
key that is there replaces the value and keeps place and key.
-/
namespace Routebook

abbrev Entries (α : Type) := List (Atom × α)

namespace Entries

variable {α : Type}

def find? (key : Atom) : Entries α → Option α
  | [] => none
  | (k, value) :: rest => if k.same key then some value else find? key rest

def put (key : Atom) (value : α) : Entries α → Entries α
  | [] => [(key, value)]
  | (k, old) :: rest => if k.same key then (k, value) :: rest else (k, old) :: put key value rest

/-- Puts the entries of `more` one after the other. -/
def putAll (entries more : Entries α) : Entries α :=
  more.foldl (fun done entry => done.put entry.1 entry.2) entries

def ofPairs (pairs : Entries α) : Entries α := putAll [] pairs

end Entries

end Routebook
