import Routebook.Text.Cut

/-!
# Paths of files

A path is a root, empty for a relative path, and the names after it. Empty names and single dots
say nothing and are left out; two dots lead upwards and stay.
-/
namespace Routebook.Command

structure Path where
  root : String
  names : List String
  deriving DecidableEq, Repr

namespace Path

/-- Exactly two slashes in front are a root of their own. -/
def rootOf (text : List Char) : String :=
  match (text.takeWhile (· = '/')).length with
  | 0 => ""
  | 2 => "//"
  | _ => "/"

def ofText (text : String) : Path :=
  let chars := text.toList
  let names := (Text.splitAt '/' chars).filter fun name => name ≠ [] ∧ name ≠ ['.']
  ⟨rootOf chars, names.map String.ofList⟩

def text (path : Path) : String :=
  let written := path.root ++ String.intercalate "/" path.names
  if written.isEmpty then "." else written

end Path

end Routebook.Command
