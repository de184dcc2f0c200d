import Routebook.Template
import Routebook.Text.Utf8
import Routebook.Url.Address
import Routebook.Value.Signature

/-!
# Faults

Whatever can end a call without an answer, and the message that says so.
-/
namespace Routebook

def RepeatedParameter.message (fault : RepeatedParameter) : String :=
  "duplicate url param " ++ Text.quoted fault.parameter ++ " was found in " ++
    Text.quoted fault.route

inductive Fault where
  | repeated (cause : RepeatedParameter)
  | value (cause : ValueFault)
  | signature (cause : SignatureFault)
  | address (cause : AddressFault)
  | malformed (cause : Text.Utf8.Malformed)
  /-- A name of a file holds the character that ends names. -/
  | nulInName
  | unknownRegister (name : String)
  | unknownName (name : String)
  deriving DecidableEq, Repr

namespace Fault

def message : Fault → String
  | .repeated cause => cause.message
  | .value cause => cause.message
  | .signature cause => cause.message
  | .address cause => cause.message
  | .malformed cause => cause.message
  | .nulInName => "embedded null byte"
  | .unknownRegister name => Text.quoted name
  | .unknownName name => "module 'waypoint' has no attribute " ++ Text.quoted name

end Fault

instance : MonadLift (Except RepeatedParameter) (Except Fault) := ⟨fun r => r.mapError .repeated⟩

instance : MonadLift (Except ValueFault) (Except Fault) := ⟨fun r => r.mapError .value⟩

instance : MonadLift (Except SignatureFault) (Except Fault) := ⟨fun r => r.mapError .signature⟩

instance : MonadLift (Except AddressFault) (Except Fault) := ⟨fun r => r.mapError .address⟩

end Routebook
