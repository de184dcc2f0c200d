import Routebook.Digest

/-!
# Sessions

A session holds entities, sets and tables in registers, and the objects that they refer to in a
store. A member of a set, or a key of a table, is found again if it is the same entity or an equal
one with the same digest.
-/
namespace Routebook

/-- What a register holds. -/
inductive Holding where
  | entity (entity : Entity Value)
  | set (members : List (Entity Value))
  | table (rows : List (Entity Value × Value))
  deriving DecidableEq

structure Session where
  registers : List (String × Holding)
  store : Store
  deriving DecidableEq

namespace Store

def kind (store : Store) : Holding → Kind
  | .entity e => e.kind store.lens
  | .set _ => .set
  | .table _ => .dict

def view (store : Store) (entity : Entity Value) : Entity Tree := entity.map store.snapshot

def digest? (store : Store) (entity : Entity Value) : Option Digest :=
  (Digest.ofEntity store.lens entity).toOption

def equal (store : Store) (a b : Entity Value) : Bool := (store.view a).equal (store.view b)

/-- One is found where the other is kept. -/
def agree (store : Store) (a b : Entity Value) : Bool :=
  -- An entity is found as itself even if it is not equal to itself.
  a = b || (store.digest? a = store.digest? b && store.equal a b)

def holds (store : Store) (members : List (Entity Value)) (entity : Entity Value) : Bool :=
  members.any (store.agree entity)

def addMember (store : Store) (entity : Entity Value) (members : List (Entity Value)) :
    List (Entity Value) :=
  if store.holds members entity then members else members ++ [entity]

def row? (store : Store) (key : Entity Value) : List (Entity Value × Value) → Option Value
  | [] => none
  | (kept, value) :: rest => if store.agree key kept then some value else store.row? key rest

/-- A key that is there stays, and takes the new value. -/
def putRow (store : Store) (key : Entity Value) (value : Value) :
    List (Entity Value × Value) → List (Entity Value × Value)
  | [] => [(key, value)]
  | (kept, old) :: rest =>
    if store.agree key kept then (kept, value) :: rest
    else (kept, old) :: store.putRow key value rest

def equalHoldings (store : Store) : Holding → Holding → Bool
  | .entity a, .entity b => store.equal a b
  | .set a, .set b => a.length == b.length && a.all (store.holds b)
  | .table a, .table b =>
    a.length == b.length && a.all fun row =>
      match store.row? row.1 b with
      | some value => (store.snapshot row.2).same (store.snapshot value)
      | none => false
  | _, _ => false

def enclosed (parts : List String) : String := "\x7b" ++ String.intercalate ", " parts ++ "\x7d"

def shown (store : Store) : Holding → String
  | .entity e => (store.view e).shown
  | .set [] => "set()"
  | .set members => enclosed (members.map fun member => (store.view member).shown)
  | .table rows => enclosed (rows.map fun (key, value) =>
    (store.view key).shown ++ ": " ++ (store.snapshot value).shown)

end Store

namespace Session

def empty : Session := ⟨[], .empty⟩

def find (session : Session) (register : String) : Except Fault Holding :=
  match session.registers.lookup register with
  | some holding => .ok holding
  | none => .error (.unknownRegister register)

def hold (session : Session) (register : String) (holding : Holding) : Session :=
  { session with
    registers := (register, holding) :: session.registers.filter (·.1 ≠ register) }

/-- Makes something for a register to hold if it holds nothing. -/
def ensure (session : Session) (register : String) (holding : Holding) : Session :=
  if (session.registers.lookup register).isSome then session else session.hold register holding

def lacks (session : Session) (holding : Holding) (field : String) : Fault :=
  .value (.noField (session.store.kind holding) field)

/-- The route in a register that is asked for a field. -/
def findRoute (session : Session) (register field : String) : Except Fault Route := do
  match ← session.find register with
  | .entity (.route route) => return route
  | other => .error (session.lacks other field)

def findPage (session : Session) (register field : String) : Except Fault (Page Value) := do
  match ← session.find register with
  | .entity (.page page) => return page
  | other => .error (session.lacks other field)

def findSet (session : Session) (register : String) : Except Fault (List (Entity Value)) := do
  match ← session.find register with
  | .set members => return members
  | other => .error (session.lacks other "add")

def findTable (session : Session) (register : String) :
    Except Fault (List (Entity Value × Value)) := do
  match ← session.find register with
  | .table rows => return rows
  | other => .error (session.lacks other "get")

/-- What a register holds, with its digest. -/
def findHashable (session : Session) (register : String) :
    Except Fault (Entity Value × Digest) := do
  match ← session.find register with
  | .entity entity => return (entity, ← Digest.ofEntity session.store.lens entity)
  | other => .error (.value (.unhashable (session.store.kind other)))

end Session

end Routebook
