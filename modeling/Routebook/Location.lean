import Routebook.Config
import Routebook.Fault
import Routebook.Text.Percent
import Routebook.Url.Split

/-!
# Locations of a shell

A shell is loaded from a `file:` location. The path to match travels in a query parameter, or is
the path of the location relative to the directory of the shell's own location. The name of the
entry document is dropped at the end, and the path begins with exactly one slash. Locations with
another scheme are paths already.
-/
namespace Routebook.Location

open Text (dropLeading dropTrailing)

inductive Resolution where
  | unchanged
  | path (path : List Char)
  deriving DecidableEq, Repr

/-- What stands before the path in a query. -/
def marker (config : Config Tree) : List Char := '?' :: config.urlParam.plainText.toList ++ ['=']

/-- The name of the entry document, which has to be text once it is needed. -/
def indexFile (config : Config Tree) : Except ValueFault (List Char) :=
  match config.indexFile with
  | .atom (.text name) => .ok name.toList
  | other => .error (.notTrailingText other.kind)

/-- A decoded path without the directory of a base. -/
def relativeTo (index : List Char) (base : Option Url.Parts) (path : List Char) : List Char :=
  match base with
  | none => path
  | some parts => dropLeading (dropTrailing index (Text.Percent.decode parts.path)) path

/-- A path without the entry document at its end and with one slash in front. -/
def settle (index path : List Char) : List Char :=
  '/' :: (dropTrailing index path).dropWhile (· = '/')

def resolve (config : Config Tree) (base : Option String) (href : String) :
    Except Fault Resolution := do
  let parts ← Url.split href.toList
  if parts.scheme ≠ "file".toList then return .unchanged
  match Text.afterMarker? (marker config) href.toList with
  | some value =>
    let index ← indexFile config
    return .path (settle index (Text.Percent.decode value))
  | none =>
    -- The base is of no account where the path travels in the query.
    let base ← base.mapM fun base => Url.split base.toList
    let index ← indexFile config
    return .path (settle index (relativeTo index base (Text.Percent.decode parts.path)))

def toPath (config : Config Tree) (base : Option String) (href : String) : Except Fault String := do
  match ← resolve config base href with
  | .unchanged => return href
  | .path path => return String.ofList path

end Routebook.Location
