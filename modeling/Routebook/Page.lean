import Routebook.Config
import Routebook.Fault
import Routebook.Json.Printer
import Routebook.Route

/-!
# Pages

A page names a component, its props, an address and a version. It is made from a match, from a
response, or from fields by name. The props of a match or response are copied one layer deep: their
entries are taken over into a dictionary of the page's own.
-/
namespace Routebook

structure Page (α : Type) where
  component : α
  props : α
  url : α
  version : α
  deriving DecidableEq, Repr

namespace Page

variable {α β : Type}

def map (f : α → β) (page : Page α) : Page β :=
  ⟨f page.component, f page.props, f page.url, f page.version⟩

def signature : Signature := ⟨Kind.page.label, ["component"], ["props", "url", "version"]⟩

def fields (page : Page α) : List (String × α) :=
  [("component", page.component), ("props", page.props), ("url", page.url),
   ("version", page.version)]

/-- A page from fields by name; `empty` becomes the props if none are given. -/
def ofFields (lens : Lens α) (empty : α) (given : List (String × α)) :
    Except SignatureFault (Page α) := do
  signature.check given
  match List.lookup "component" given with
  | none => .error (.missing signature.record ["component"])
  | some component => return {
      component
      props := (List.lookup "props" given).getD empty
      url := (List.lookup "url" given).getD (lens.text "/")
      version := (List.lookup "version" given).getD (lens.text "") }

/-- What a response says of a page. -/
structure Response (α : Type) where
  component : α
  props : Entries α
  url : α

/-- Reads a response. Props that say nothing are no props. -/
def readResponse (lens : Lens α) (data : α) : Except ValueFault (Response α) := do
  let component ← lens.item data (lens.text "component")
  let field? (name : String) : Option α :=
    match lens.shape data with
    | .dict entries => entries.find? (.text name)
    | _ => none
  let props ← match field? "props" with
    | some props => if lens.truthy props then lens.toEntries props else .ok []
    | none => .ok []
  return ⟨component, props, (field? "url").getD (lens.text "/")⟩

/-- The parameters of a match with props put over them. -/
def mergeProps (lens : Lens α) (params : α) (props : Option α) : Except ValueFault (Entries α) := do
  let taken ← lens.asMapping params
  match props with
  | some props =>
    if lens.truthy props then return taken.putAll (← lens.asMapping props) else return taken
  | none => return taken

/-- The page that is shown before any other; `empty` becomes its props. -/
def first (lens : Lens α) (component empty : α) : Page α :=
  ⟨component, empty, lens.text "/", lens.text ""⟩

def fallback (config : Config Tree) : Page Tree :=
  first Tree.lens config.defaultComponent (.dict [])

def ofResponse (config : Config Tree) (data : Tree) : Except ValueFault (Page Tree) := do
  let response ← readResponse Tree.lens data
  return ⟨response.component, .dict response.props, response.url, config.version⟩

def ofMatch (config : Config Tree) (found : Match) (component : Tree) (props : Option Tree) :
    Except ValueFault (Page Tree) := do
  let merged ← mergeProps Tree.lens (.ofTexts found.params) props
  return ⟨component, .dict merged, .text found.path, config.version⟩

/-- The page as one dictionary, its props copied. -/
def toTree (page : Page Tree) : Except ValueFault Tree := do
  let props ← Tree.lens.toEntries page.props
  return .record { page with props := .dict props }.fields

def toJson (page : Page Tree) : Except ValueFault String := do
  Json.write Json.compact (← page.toTree)

def shown (page : Page Tree) : String :=
  Signature.shown signature.record (page.fields.map fun field => (field.1, field.2.shown))

end Page

end Routebook
