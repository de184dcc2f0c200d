import Routebook.Value.Atom

/-!
# Kinds

The kinds of values and objects, by the names that messages call them.
-/
namespace Routebook

inductive Kind where
  | null | bool | int | float | text | octets | list | dict | tuple | set
  | route | found | page | config | segment
  | method
  deriving DecidableEq, Repr

namespace Kind

def label : Kind → String
  | .null => "NoneType"
  | .bool => "bool"
  | .int => "int"
  | .float => "float"
  | .text => "str"
  | .octets => "bytes"
  | .list => "list"
  | .dict => "dict"
  | .tuple => "tuple"
  | .set => "set"
  | .route => "RoutePattern"
  | .found => "RouteMatch"
  | .page => "Page"
  | .config => "BridgeConfig"
  | .segment => "TemplateSegment"
  | .method => "method"

end Kind

def Atom.kind : Atom → Kind
  | .null => .null
  | .bool _ => .bool
  | .int _ => .int
  | .float _ => .float
  | .nan _ => .float
  | .text _ => .text
  | .octets _ => .octets

end Routebook
