import Routebook.Session

/-!
# Making entities

What a session can make for a register. The parameters of a match, the props of a page and a page
as a dictionary are new dictionaries; what stands in them is shared with where it came from. Values
that come with a making, such as a component or the props to be merged over parameters, are trees
and become new objects.
-/
namespace Routebook

/-- What to make, from registers by name and from trees. -/
inductive Making where
  | route (template : Tree)
  /-- What a route makes of a path. -/
  | matching (route : String) (path : Tree)
  | found (route : String) (path params : Tree)
  /-- The parameters that a route takes from a path. -/
  | params (route : String) (path : Tree)
  | pageFor (found : String) (component : Tree) (props : Option Tree)
      (config : Option (List (String × Tree)))
  | page (fields : List (String × Tree))
  | pageFrom (data : String) (config : Option (List (String × Tree)))
  | fallback (config : Option (List (String × Tree)))
  | config (fields : List (String × Tree))
  | segment (fields : List (String × Tree))
  | value (value : Tree)
  | toDict (page : String)
  | field (owner name : String)
  | item (owner : String) (key : Tree)

namespace Store

def loadFields (store : Store) : List (String × Tree) → List (String × Value) × Store
  | [] => ([], store)
  | (name, value) :: rest =>
    let (value, store) := store.load value
    let (rest, store) := store.loadFields rest
    ((name, value) :: rest, store)

def loadOption (store : Store) : Option Tree → Option Value × Store
  | none => (none, store)
  | some value =>
    let (value, store) := store.load value
    (some value, store)

end Store

namespace Config

def ofGiven (given : Option (List (String × Tree))) : Except Fault (Config Tree) := do
  match given with
  | none => return standard
  | some fields => return ← ofFields Tree.lens fields

end Config

namespace Session

/-- The parameters that a path gives, in a new dictionary. -/
def matchPath (store : Store) (route : Route) (path : Tree) :
    Except Fault (Option (String × Value) × Store) := do
  let path ← Tree.lens.asText path
  match route.params? path with
  | none => return (none, store)
  | some params =>
    let (params, store) := store.load (.ofTexts params)
    return (some (path, params), store)

/-- A page that takes its props from parameters and props over them. -/
def makePage (store : Store) (path params : Value) (component : Tree) (props : Option Tree)
    (config : Config Tree) : Except Fault (Entity Value × Store) := do
  let (component, store) := store.load component
  let (props, store) := store.loadOption props
  let (version, store) := store.load config.version
  let merged ← Page.mergeProps store.lens params props
  let (props, store) := store.add (.dict merged)
  return (.page ⟨component, props, path, version⟩, store)

/-- A page from a response. -/
def readPage (store : Store) (data : Value) (config : Config Tree) :
    Except Fault (Entity Value × Store) := do
  let response ← Page.readResponse store.lens data
  let (props, store) := store.add (.dict response.props)
  let (version, store) := store.load config.version
  return (.page ⟨response.component, props, response.url, version⟩, store)

/-- A page as one dictionary. -/
def pageToDict (store : Store) (page : Page Value) : Except Fault (Entity Value × Store) := do
  let entries ← store.lens.toEntries page.props
  let (props, store) := store.add (.dict entries)
  let copied : Page Value := { page with props }
  let fields := copied.fields.map fun field => (Atom.text field.1, field.2)
  let (dict, store) := store.add (.dict fields)
  return (.value dict, store)

def make (session : Session) : Making → Except Fault (Entity Value × Store)
  | .route template => do
    let route ← Route.compile (← Tree.lens.asText template)
    return (.route route, session.store)
  | .matching register path => do
    let route ← session.findRoute register "match"
    match ← matchPath session.store route path with
    | (some (path, params), store) => return (.found route (.atom (.text path)) params, store)
    | (none, store) => return (.value (.atom .null), store)
  | .found register path params => do
    let route ← session.findRoute register "template"
    let (path, store) := session.store.load path
    let (params, store) := store.load params
    -- Only a dictionary has items to go through.
    match store.shape params with
    | .dict _ => return (.found route path params, store)
    | shape => .error (.value (.noField shape.kind "items"))
  | .params register path => do
    match ← session.find register with
    -- The parameters of a match are a field of the name that is called.
    | .entity (.found _ _ params) =>
      .error (.value (.notCallable (session.store.lens.kind params)))
    | _ =>
      let route ← session.findRoute register "params"
      match ← matchPath session.store route path with
      | (some (_, params), store) => return (.value params, store)
      | (none, store) => return (.value (.atom .null), store)
  | .pageFor register component props given => do
    let holding ← session.find register
    let config ← Config.ofGiven given
    match holding with
    | .entity (.found _ path params) => makePage session.store path params component props config
    -- A route has a method where a match has its parameters.
    | .entity (.route _) => .error (.value (.notMapping .method))
    | other => .error (session.lacks other "params")
  | .page given => do
    -- The props for a page without any are there before they are needed.
    let (props, store) := session.store.add (.dict [])
    let (fields, store) := store.loadFields given
    return (.page (← Page.ofFields store.lens props fields), store)
  | .pageFrom register given => do
    let holding ← session.find register
    let config ← Config.ofGiven given
    let lens := session.store.lens
    match holding with
    | .entity (.value data) => readPage session.store data config
    | .entity other =>
      -- The component is looked up before there is need of any other field.
      let _ ← other.item lens (lens.text "component")
      .error (session.lacks holding "get")
    | other => .error (.value (.notSubscriptable (session.store.kind other)))
  | .fallback given => do
    let config ← Config.ofGiven given
    let (props, store) := session.store.add (.dict [])
    let (component, store) := store.load config.defaultComponent
    return (.page (.first store.lens component props), store)
  | .config given => do
    let (fields, store) := session.store.loadFields given
    return (.config (← Config.ofFields store.lens fields), store)
  | .segment given => do
    let (fields, store) := session.store.loadFields given
    return (.segment (← Segment.complete store.lens fields), store)
  | .value value =>
    let (value, store) := session.store.load value
    .ok (.value value, store)
  | .toDict register => do
    pageToDict session.store (← session.findPage register "to_dict")
  | .field register name => do
    match ← session.find register with
    | .entity entity => return (← entity.field session.store.lens name, session.store)
    | other => .error (session.lacks other name)
  | .item register key => do
    match ← session.find register with
    | .entity entity =>
      let (key, store) := session.store.load key
      return (← entity.item store.lens key, store)
    | other => .error (.value (.notSubscriptable (session.store.kind other)))

end Session

end Routebook
