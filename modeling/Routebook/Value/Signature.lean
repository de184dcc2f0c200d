import Routebook.Value.Tree

/-!
# Signatures

The fields that a record is made from. Fields are given by name or by position; a record is
refused for a name that it does not have, for fields that it lacks, and for more fields than it has.
-/
namespace Routebook

structure Signature where
  record : String
  required : List String
  optional : List String

inductive SignatureFault where
  | unexpected (record field : String)
  | missing (record : String) (fields : List String)
  | tooMany (record : String) (least most given : Nat)
  deriving DecidableEq, Repr

namespace SignatureFault

/-- Names in a row, the last two joined by a word. -/
def listed : List String → String
  | [] => ""
  | [only] => only
  | [first, last] => first ++ " and " ++ last
  | names => String.intercalate ", " names.dropLast ++ ", and " ++ names.getLastD ""

/-- The record itself is counted among the positions. -/
def message : SignatureFault → String
  | .unexpected record field =>
    record ++ ".__init__() got an unexpected keyword argument '" ++ field ++ "'"
  | .missing record fields =>
    record ++ ".__init__() missing " ++ toString fields.length ++ " required positional argument" ++
      (if fields.length = 1 then "" else "s") ++ ": " ++ listed (fields.map Text.quoted)
  | .tooMany record least most given =>
    record ++ ".__init__() takes from " ++ toString (least + 1) ++ " to " ++ toString (most + 1) ++
      " positional arguments but " ++ toString (given + 1) ++ " were given"

end SignatureFault

namespace Signature

variable {α : Type}

def fields (signature : Signature) : List String := signature.required ++ signature.optional

/-- Accepts values by name. -/
def check (signature : Signature) (given : List (String × α)) : Except SignatureFault Unit :=
  match given.find? fun field => field.1 ∉ signature.fields with
  | some field => .error (.unexpected signature.record field.1)
  | none =>
    match signature.required.filter fun name => (List.lookup name given).isNone with
    | [] => .ok ()
    | missing => .error (.missing signature.record missing)

/-- Values by position, with the names of their fields. -/
def inOrder (signature : Signature) (given : List α) : Except SignatureFault (List (String × α)) :=
  let fields := signature.fields
  if fields.length < given.length then
    .error (.tooMany signature.record signature.required.length fields.length given.length)
  else
    match signature.required.drop given.length with
    | [] => .ok (fields.zip given)
    | missing => .error (.missing signature.record missing)

/-- A record in text: its name, and each field with its value. -/
def shown (record : String) (fields : List (String × String)) : String :=
  let named := fields.map fun field => field.1 ++ "=" ++ field.2
  record ++ "(" ++ String.intercalate ", " named ++ ")"

end Signature

end Routebook
