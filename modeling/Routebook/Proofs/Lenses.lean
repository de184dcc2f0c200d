import Routebook.Page
import Routebook.Template.Fields

/-!
# What a lens shows

Whatever is computed from values through a lens is put together from atoms and from parts of these
values. So a property that atoms have, and all parts that the lens shows, is had by every part of a
result: of an item that is found, of entries that are merged, of a record made from fields.
-/
namespace Routebook

theorem bind_eq_ok {ε α β : Type} {x : Except ε α} {f : α → Except ε β} {b : β} :
    x >>= f = .ok b ↔ ∃ a, x = .ok a ∧ f a = .ok b := by
  cases x with
  | error => exact ⟨nofun, nofun⟩
  | ok a => exact ⟨fun same => ⟨a, rfl, same⟩, fun ⟨_, rfl, same⟩ => same⟩

theorem bind_of_ok {ε α β : Type} {x : Except ε α} {f : α → Except ε β} {a : α}
    (done : x = .ok a) : x >>= f = f a := by
  rw [done]
  rfl

theorem bind_of_error {ε α β : Type} {x : Except ε α} {f : α → Except ε β} {cause : ε}
    (failed : x = .error cause) : x >>= f = .error cause := by
  rw [failed]
  rfl

theorem mapError_eq_ok {ε ε' α : Type} {x : Except ε α} {f : ε → ε'} {a : α} :
    x.mapError f = .ok a ↔ x = .ok a := by
  cases x with
  | error => exact ⟨nofun, nofun⟩
  | ok a => exact ⟨fun same => by cases same; rfl, fun same => by cases same; rfl⟩

/-- The values that a shape is made of. -/
def Shape.parts {α : Type} : Shape α → List α
  | .atom _ => []
  | .list items => items
  | .dict entries => entries.map Prod.snd

theorem Page.forall_fields {α : Type} {P : α → Prop} {page : Page α} :
    (∀ field ∈ page.fields, P field.2) ↔
      P page.component ∧ P page.props ∧ P page.url ∧ P page.version := by
  simp [Page.fields]

/-- Atoms have a property, and the parts of whatever is seen. -/
structure Lens.Shows {α : Type} (lens : Lens α) (P : α → Prop) : Prop where
  atom : ∀ value, P (lens.atom value)
  parts : ∀ value, ∀ part ∈ (lens.shape value).parts, P part

section Shows

variable {α : Type} {lens : Lens α} {P : α → Prop}

namespace Entries

theorem forall_put {key : Atom} {value : α} {entries : Entries α} (new : P value)
    (old : ∀ entry ∈ entries, P entry.2) : ∀ entry ∈ entries.put key value, P entry.2 := by
  induction entries with
  | nil => simpa [put] using new
  | cons first rest ih =>
    obtain ⟨here, later⟩ := List.forall_mem_cons.mp old
    rw [put]
    split
    · exact List.forall_mem_cons.mpr ⟨new, later⟩
    · exact List.forall_mem_cons.mpr ⟨here, ih later⟩

theorem forall_putAll {entries more : Entries α} (old : ∀ entry ∈ entries, P entry.2)
    (new : ∀ entry ∈ more, P entry.2) : ∀ entry ∈ entries.putAll more, P entry.2 := by
  induction more generalizing entries with
  | nil => exact old
  | cons first more ih =>
    obtain ⟨here, later⟩ := List.forall_mem_cons.mp new
    exact ih (forall_put here old) later

theorem of_find? {key : Atom} {value : α} {entries : Entries α}
    (found : entries.find? key = some value) (all : ∀ entry ∈ entries, P entry.2) : P value := by
  induction entries with
  | nil => cases found
  | cons first rest ih =>
    obtain ⟨here, later⟩ := List.forall_mem_cons.mp all
    rw [find?] at found
    split at found
    · cases found
      exact here
    · exact ih found later

end Entries

section Given

variable {given : List (String × α)} {name : String}

theorem of_lookup {value : α} (found : List.lookup name given = some value)
    (values : ∀ field ∈ given, P field.2) : P value := by
  obtain ⟨before, after, rfl, -⟩ := List.lookup_eq_some_iff.mp found
  exact values (name, value) (by simp)

/-- A value that is given under a name, or a default. -/
theorem getD_lookup {default : α} (values : ∀ field ∈ given, P field.2) (otherwise : P default) :
    P ((List.lookup name given).getD default) := by
  cases found : List.lookup name given with
  | none => exact otherwise
  | some value => exact of_lookup found values

end Given

namespace Lens.Shows

theorem items {value : α} {items : List α} (shows : lens.Shows P)
    (seen : lens.shape value = .list items) : ∀ item ∈ items, P item := by
  have parts := shows.parts value
  rwa [seen] at parts

theorem entries {value : α} {entries : Entries α} (shows : lens.Shows P)
    (seen : lens.shape value = .dict entries) : ∀ entry ∈ entries, P entry.2 := by
  have parts := shows.parts value
  rw [seen] at parts
  exact List.forall_mem_map.mp parts

theorem elements {value : α} {elements : List α} (shows : lens.Shows P)
    (seen : lens.elements? value = some elements) : ∀ element ∈ elements, P element := by
  rw [elements?] at seen
  split at seen
  -- Characters, octets and keys are atoms; items are parts.
  all_goals cases seen
  · exact List.forall_mem_map.mpr fun c _ => shows.atom _
  · exact List.forall_mem_map.mpr fun octet _ => shows.atom _
  next list => exact shows.items list
  · exact List.forall_mem_map.mpr fun entry _ => shows.atom _

theorem putPairs {index : Nat} {entries paired : Entries α} {elements : List α}
    (shows : lens.Shows P) (old : ∀ entry ∈ entries, P entry.2)
    (put : lens.putPairs index entries elements = .ok paired) : ∀ entry ∈ paired, P entry.2 := by
  induction elements generalizing index entries with
  | nil =>
    cases put
    exact old
  | cons element rest ih =>
    rw [Lens.putPairs] at put
    split at put
    · cases put
    next key value pair =>
      obtain ⟨atom, -, put⟩ := bind_eq_ok.mp put
      -- A pair is gone through in its turn, so its second element is a part of a part.
      have new := shows.elements pair value (by simp)
      exact ih (Entries.forall_put new old) put
    · cases put

theorem toEntries {value : α} {entries : Entries α} (shows : lens.Shows P)
    (read : lens.toEntries value = .ok entries) : ∀ entry ∈ entries, P entry.2 := by
  rw [Lens.toEntries] at read
  split at read
  next own =>
    cases read
    exact shows.entries own
  · split at read
    · exact shows.putPairs (List.forall_mem_nil _) read
    · cases read

theorem asMapping {value : α} {entries : Entries α} (shows : lens.Shows P)
    (read : lens.asMapping value = .ok entries) : ∀ entry ∈ entries, P entry.2 := by
  rw [Lens.asMapping] at read
  split at read
  next own =>
    cases read
    exact shows.entries own
  · cases read

theorem item {owner key part : α} (shows : lens.Shows P) (found : lens.item owner key = .ok part) :
    P part := by
  rw [Lens.item] at found
  split at found
  next own =>
    obtain ⟨atom, -, found⟩ := bind_eq_ok.mp found
    split at found
    next here =>
      cases found
      exact Entries.of_find? here (shows.entries own)
    · cases found
  · -- Text, octets and lists are gone through alike.
    split at found
    case h_4 => cases found
    all_goals
      next elements seen =>
      split at found
      · cases found
      · cases found
      · split at found
        next element here =>
          cases found
          exact shows.elements seen _ (List.mem_of_getElem? here)
        · cases found

theorem mergeProps {params : α} {props : Option α} {merged : Entries α} (shows : lens.Shows P)
    (made : Page.mergeProps lens params props = .ok merged) : ∀ entry ∈ merged, P entry.2 := by
  rw [Page.mergeProps] at made
  obtain ⟨taken, read, made⟩ := bind_eq_ok.mp made
  have own := shows.asMapping read
  split at made
  · split at made
    · obtain ⟨more, given, made⟩ := bind_eq_ok.mp made
      cases made
      exact Entries.forall_putAll own (shows.asMapping given)
    · cases made
      exact own
  · cases made
    exact own

theorem readResponse {data : α} {response : Page.Response α} (shows : lens.Shows P)
    (read : Page.readResponse lens data = .ok response) :
    P response.component ∧ (∀ entry ∈ response.props, P entry.2) ∧ P response.url := by
  rw [Page.readResponse] at read
  obtain ⟨component, named, read⟩ := bind_eq_ok.mp read
  cases own : lens.shape data with
  | dict entries =>
    -- Whether there are props or not, the address is an entry or else an atom.
    have url : P ((Entries.find? (.text "url") entries).getD (lens.text "/")) := by
      cases found : Entries.find? (.text "url") entries with
      | none => exact shows.atom _
      | some url => exact Entries.of_find? found (shows.entries own)
    simp only [own] at read
    split at read
    · split at read
      · obtain ⟨props, given, read⟩ := bind_eq_ok.mp read
        cases read
        exact ⟨shows.item named, shows.toEntries given, url⟩
      · cases read
        exact ⟨shows.item named, List.forall_mem_nil _, url⟩
    · cases read
      exact ⟨shows.item named, List.forall_mem_nil _, url⟩
  | _ =>
    simp only [own] at read
    cases read
    exact ⟨shows.item named, List.forall_mem_nil _, shows.atom _⟩

variable {given : List (String × α)}

theorem ofPage {empty : α} {page : Page α} (shows : lens.Shows P) (new : P empty)
    (values : ∀ field ∈ given, P field.2) (made : Page.ofFields lens empty given = .ok page) :
    ∀ field ∈ page.fields, P field.2 := by
  rw [Page.ofFields] at made
  obtain ⟨-, -, made⟩ := bind_eq_ok.mp made
  split at made
  · cases made
  next component named =>
    cases made
    exact Page.forall_fields.mpr ⟨of_lookup named values, getD_lookup values new,
      getD_lookup values (shows.atom _), getD_lookup values (shows.atom _)⟩

theorem ofConfig {config : Config α} (shows : lens.Shows P) (values : ∀ field ∈ given, P field.2)
    (made : Config.ofFields lens given = .ok config) : ∀ field ∈ config.fields, P field.2 := by
  rw [Config.ofFields] at made
  obtain ⟨-, -, made⟩ := bind_eq_ok.mp made
  cases made
  simp only [Config.fields, List.forall_mem_cons]
  exact ⟨getD_lookup values (shows.atom _), getD_lookup values (shows.atom _),
    getD_lookup values (shows.atom _), getD_lookup values (shows.atom _), nofun⟩

theorem ofSegment {fields : List (String × α)} (shows : lens.Shows P)
    (values : ∀ field ∈ given, P field.2) (made : Segment.complete lens given = .ok fields) :
    ∀ field ∈ fields, P field.2 := by
  rw [Segment.complete] at made
  obtain ⟨-, -, made⟩ := bind_eq_ok.mp made
  cases made
  exact List.forall_mem_map.mpr fun name _ => getD_lookup values (shows.atom _)

end Lens.Shows

end Shows

end Routebook
