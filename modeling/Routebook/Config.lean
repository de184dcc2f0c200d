import Routebook.Value.Signature

/-!
# Configuration

What an application shell can set: the query parameter that carries a path, the name of the entry
document, the version that pages are stamped with, and the component of the page that is shown
first. Every setting has a default.
-/
namespace Routebook

structure Config (α : Type) where
  urlParam : α
  indexFile : α
  version : α
  defaultComponent : α
  deriving DecidableEq, Repr

namespace Config

variable {α β : Type}

def map (f : α → β) (config : Config α) : Config β :=
  ⟨f config.urlParam, f config.indexFile, f config.version, f config.defaultComponent⟩

def signature : Signature :=
  ⟨Kind.config.label, [], ["url_param", "index_file", "version", "default_component"]⟩

def ofFields (lens : Lens α) (given : List (String × α)) : Except SignatureFault (Config α) := do
  signature.check given
  let setting (name default : String) : α := (List.lookup name given).getD (lens.text default)
  return {
    urlParam := setting "url_param" "inertia-url"
    indexFile := setting "index_file" "index.html"
    version := setting "version" "current"
    defaultComponent := setting "default_component" "App" }

/-- All settings at their defaults. -/
def standard : Config Tree :=
  ⟨.text "inertia-url", .text "index.html", .text "current", .text "App"⟩

def fields (config : Config α) : List (String × α) :=
  [("url_param", config.urlParam), ("index_file", config.indexFile), ("version", config.version),
   ("default_component", config.defaultComponent)]

def shown (config : Config Tree) : String :=
  Signature.shown signature.record (config.fields.map fun field => (field.1, field.2.shown))

/-- Every setting compares equal to its default. -/
def isStandard (config : Config Tree) : Bool :=
  Tree.sameItems (config.fields.map (·.2)) (standard.fields.map (·.2))

end Config

end Routebook
