import Routebook.Session.Making

/-!
# Steps of a session

A step makes an entity for a register, puts a value into a list or dictionary, keeps entities in a
set or table, or only answers. A step that fails leaves the session as it was, but for a set or
table that it is the first to use. `Session.run` answers one step after the other.

A value that is put is given as a tree, and what is put is a new object made from it. No step puts
what a register holds into another object. Objects come to be shared by registers for their parts,
and by dictionaries that take over the entries of others.
-/
namespace Routebook

/-- What changes neither registers nor objects. -/
inductive Question where
  | view (owner : String)
  | describe (owner : String)
  | toJson (page : String)
  | compare (a b : String)
  | sameDigest (a b : String)
  | hasMember (set item : String)
  | findRow (table key : String)
  /-- A field is to be assigned to, which is always refused. -/
  | assign (owner field : String)
  | delete (owner field : String)

inductive Step where
  | ask (question : Question)
  | make (register : String) (making : Making)
  | put (owner : String) (key value : Tree)
  | addMember (set item : String)
  | putRow (table key : String) (value : Tree)

inductive Answer where
  | entity (entity : Entity Tree)
  | text (text : String)
  | flag (flag : Bool)
  | flags (first second : Bool)
  | count (count : Nat)

namespace Session

def putItem (session : Session) (owner : String) (key value : Tree) :
    Except Fault (Session × Answer) := do
  match ← session.find owner with
  | .entity (.value owner) =>
    let (key, store) := session.store.load key
    let (value, store) := store.load value
    let store := match owner, ← store.lens.setItem owner key value with
      | .ref place, .list items => store.write place (.list items)
      | .ref place, .dict entries => store.write place (.dict entries)
      -- Nothing can be put into an atom, so this is never come to.
      | _, _ => store
    return ({ session with store }, .entity (.value (store.snapshot owner)))
  | other => .error (.value (.noItemAssignment (session.store.kind other)))

/-- What has no field of a name says so before the cause for which the field is refused. -/
def refuse (session : Session) (owner field : String) (cause : ValueFault) :
    Except Fault Answer := do
  match ← session.find owner with
  | .entity entity =>
    let _ ← entity.field session.store.lens field
    .error (.value cause)
  | other => .error (session.lacks other field)

def reply (session : Session) : Question → Except Fault Answer
  | .view owner => do
    match ← session.find owner with
    | .entity entity => return .entity (session.store.view entity)
    | other => .error (.value (.notSerializable (session.store.kind other)))
  | .describe owner => do return .text (session.store.shown (← session.find owner))
  | .toJson register => do
    let page ← session.findPage register "to_json"
    return .text (← (page.map session.store.snapshot).toJson)
  | .compare a b => do
    let same := session.store.equalHoldings (← session.find a) (← session.find b)
    return .flags same !same
  | .sameDigest a b => do
    let (_, first) ← session.findHashable a
    let (_, second) ← session.findHashable b
    return .flag (first = second)
  | .hasMember set item => do
    let (item, _) ← session.findHashable item
    return .flag (session.store.holds (← session.findSet set) item)
  | .findRow table key => do
    let (key, _) ← session.findHashable key
    match session.store.row? key (← session.findTable table) with
    | some value => return .entity (.value (session.store.snapshot value))
    | none => return .entity (.value .null)
  | .assign owner field => session.refuse owner field (.frozenField field)
  | .delete owner field => session.refuse owner field (.undeletableField field)

def act (session : Session) : Step → Except Fault (Session × Answer)
  | .ask question => do return (session, ← session.reply question)
  | .make register making => do
    let (entity, store) ← session.make making
    let next := { session with store }.hold register (.entity entity)
    return (next, .entity (store.view entity))
  | .put owner key value => session.putItem owner key value
  | .addMember set item => do
    let (item, _) ← session.findHashable item
    let members := session.store.addMember item (← session.findSet set)
    return (session.hold set (.set members), .count members.length)
  | .putRow table key value => do
    let (key, _) ← session.findHashable key
    let rows ← session.findTable table
    let (value, store) := session.store.load value
    let rows := store.putRow key value rows
    return ({ session with store }.hold table (.table rows), .count rows.length)

/-- The set or table that a step is about is there when the step begins. -/
def prepare (session : Session) : Step → Session
  | .addMember set _ | .ask (.hasMember set _) => session.ensure set (.set [])
  | .putRow table _ _ | .ask (.findRow table _) => session.ensure table (.table [])
  | _ => session

def step (session : Session) (step : Step) : Session × Except Fault Answer :=
  -- What is prepared stays, even if the step fails.
  let session := session.prepare step
  match session.act step with
  | .ok (next, answer) => (next, .ok answer)
  | .error fault => (session, .error fault)

/-- The answers of steps, and the session after them. -/
def run (session : Session) : List Step → Session × List (Except Fault Answer)
  | [] => (session, [])
  | first :: rest =>
    let (next, answer) := session.step first
    let (last, answers) := next.run rest
    (last, answer :: answers)

end Session

end Routebook
