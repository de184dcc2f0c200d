import Routebook.Location
import Routebook.Page

/-!
# Navigation

From a location to a page: the location gives a path, and the route that accepts it gives the props.
-/
namespace Routebook

/-- Where a navigation arrived, and the page there if the route accepts the path. -/
structure Arrival where
  path : String
  page : Option (Page Tree)

def navigate (route : Route) (config : Config Tree) (base : Option String) (href : String)
    (component : Tree) (props : Option Tree) : Except Fault Arrival := do
  let path ← Location.toPath config base href
  match route.match? path with
  | none => return ⟨path, none⟩
  | some found =>
    let page ← Page.ofMatch config found component props
    return ⟨path, some page⟩

end Routebook
