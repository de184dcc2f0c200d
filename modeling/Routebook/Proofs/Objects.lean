import Routebook.Proofs.Lenses
import Routebook.Session.Making

/-!
# Objects

A store is closed if what its objects refer to is there, at places of its own. To load a tree adds
objects at new places behind all others and changes none that is there, and what is loaded refers
only to them.
-/
namespace Routebook

/-- A value refers to an object below a bound, at a place of its own. -/
def Value.Within (own : Nat → Prop) (bound : Nat) : Value → Prop
  | .atom _ => True
  | .ref place => place < bound ∧ own place

theorem Value.Within.imp {own other : Nat → Prop} {bound more : Nat} {value : Value}
    (within : value.Within own bound)
    (all : ∀ place, place < bound → own place → other place) (le : bound ≤ more) :
    value.Within other more := by
  cases value with
  | atom => trivial
  | ref place =>
    obtain ⟨below, inside⟩ := within
    exact ⟨Nat.lt_of_lt_of_le below le, all place below inside⟩

theorem Value.Within.mono {own : Nat → Prop} {bound more : Nat} {value : Value}
    (within : value.Within own bound) (le : bound ≤ more) : value.Within own more :=
  within.imp (fun _ _ inside => inside) le

namespace Store

variable {own : Nat → Prop} {store next last : Store} {values more : List Value}

/-- All parts of objects refer to places of its own; all places that are not in use are. -/
structure Closed (own : Nat → Prop) (store : Store) : Prop where
  fresh : ∀ place, store.objects.length ≤ place → own place
  parts : ∀ object ∈ store.objects, ∀ part ∈ object.shape.parts,
    part.Within own store.objects.length

theorem closed_empty (own : Nat → Prop) (all : ∀ place, own place) : empty.Closed own :=
  ⟨fun place _ => all place, List.forall_mem_nil _⟩

theorem Closed.shows (closed : store.Closed own) :
    store.lens.Shows (·.Within own store.objects.length) := by
  refine ⟨fun _ => trivial, fun value part member => ?_⟩
  change part ∈ (store.shape value).parts at member
  cases value with
  | atom => cases member
  | ref place =>
    rw [shape] at member
    cases found : store.read? place with
    | none =>
      -- A place without an object is seen as an atom, which has no parts.
      rw [found] at member
      cases member
    | some object =>
      rw [found] at member
      exact closed.parts object (List.mem_of_getElem? found) part member

/-- Values are made: objects are added, none of which refers to itself or to later ones, and the
values refer to places of the store that is then. -/
structure Makes (own : Nat → Prop) (store : Store) (values : List Value) (next : Store) :
    Prop where
  grows : store.objects <+: next.objects
  closed : next.Closed own
  earlier : ∀ place object, store.objects.length ≤ place → next.read? place = some object →
    ∀ part ∈ object.shape.parts, part.Within own place
  within : ∀ value ∈ values, value.Within own next.objects.length

theorem earlier_of_objects_eq (same : next.objects = store.objects) (place : Nat) (object : Object)
    (above : store.objects.length ≤ place) (found : next.read? place = some object) :
    ∀ part ∈ object.shape.parts, part.Within own place := by
  have inside : place < next.objects.length := (List.getElem?_eq_some_iff.mp found).1
  rw [same] at inside
  omega

theorem Makes.of_within (closed : store.Closed own)
    (within : ∀ value ∈ values, value.Within own store.objects.length) :
    Makes own store values store :=
  ⟨List.prefix_rfl, closed, earlier_of_objects_eq rfl, within⟩

/-- An object that was there is there unchanged. -/
theorem Makes.read?_eq {place : Nat} (made : Makes own store values next)
    (inside : place < store.objects.length) : next.read? place = store.read? place := by
  obtain ⟨added, same⟩ := made.grows
  rw [read?, ← same, List.getElem?_append_left inside, read?]

theorem Makes.trans (first : Makes own store values next) (second : Makes own next more last) :
    Makes own store (values ++ more) last := by
  refine ⟨first.grows.trans second.grows, second.closed, fun place object above found => ?_, ?_⟩
  · by_cases inside : place < next.objects.length
    · rw [second.read?_eq inside] at found
      exact first.earlier place object above found
    · exact second.earlier place object (by omega) found
  · rw [List.forall_mem_append]
    exact ⟨fun value member => (first.within value member).mono second.grows.length_le,
      second.within⟩

/-- What was within the store is so with what is made. -/
theorem Makes.mono {value : Value} (made : Makes own store values next)
    (within : value.Within own store.objects.length) : value.Within own next.objects.length :=
  within.mono made.grows.length_le

theorem Makes.others (made : Makes own store values next)
    (within : ∀ value ∈ more, value.Within own next.objects.length) : Makes own store more next :=
  ⟨made.grows, made.closed, made.earlier, within⟩

theorem Makes.subset (made : Makes own store values next)
    (subset : ∀ value ∈ more, value ∈ values) : Makes own store more next :=
  made.others fun value member => made.within value (subset value member)

theorem makes_add (object : Object) (closed : store.Closed own)
    (parts : ∀ part ∈ object.shape.parts, part.Within own store.objects.length) :
    Makes own store [(store.add object).1] (store.add object).2 := by
  have size : (store.add object).2.objects.length = store.objects.length + 1 := by simp [add]
  have more {value : Value} (within : value.Within own store.objects.length) :
      value.Within own (store.add object).2.objects.length :=
    within.mono (by omega)
  refine ⟨List.prefix_append _ _, ⟨fun place above => closed.fresh place (by omega), ?_⟩, ?_, ?_⟩
  · intro other member part inside
    rcases List.mem_append.mp member with old | new
    · exact more (closed.parts other old part inside)
    · cases List.mem_singleton.mp new
      exact more (parts part inside)
  · -- The one place that is new is the number of the objects that were there.
    intro place other above found
    have inside : place < (store.add object).2.objects.length :=
      (List.getElem?_eq_some_iff.mp found).1
    have same : place = store.objects.length := by omega
    subst same
    cases List.getElem?_concat_length.symm.trans found
    exact parts
  · intro value member
    cases List.mem_singleton.mp member
    exact ⟨by omega, closed.fresh _ (Nat.le_refl _)⟩

theorem makes_of_add_dict {entries : Entries Value} {value : Value} (closed : store.Closed own)
    (added : store.add (.dict entries) = (value, next))
    (parts : ∀ entry ∈ entries, entry.2.Within own store.objects.length) :
    Makes own store [value] next := by
  have made := makes_add (.dict entries) closed (List.forall_mem_map.mpr parts)
  rwa [added] at made

theorem loadAtom_objects (store : Store) (value : Atom) :
    (store.loadAtom value).2.objects = store.objects := by
  cases value <;> rfl

theorem makes_loadAtom (closed : store.Closed own) (value : Atom) :
    Makes own store [] (store.loadAtom value).2 := by
  -- A mark may be counted, but no object is added.
  have same := loadAtom_objects store value
  refine ⟨same ▸ List.prefix_rfl, ⟨?_, ?_⟩, earlier_of_objects_eq same, List.forall_mem_nil _⟩
  · rw [same]
    exact closed.fresh
  · rw [same]
    exact closed.parts

-- Parts are loaded one after the other, each into the store that the ones before it left.
mutual

theorem makes_load {store : Store} (closed : store.Closed own) (tree : Tree) :
    Makes own store [(store.load tree).1] (store.load tree).2 := by
  match tree with
  | .atom value =>
    have made := makes_loadAtom closed value
    exact made.others (by simp [load, Value.Within])
  | .list items =>
    -- The parts are there before the object that they are parts of.
    have made := makes_loadItems closed items
    have added := makes_add (.list _) made.closed made.within
    exact (made.trans added).subset (by simp [load])
  | .dict entries =>
    have made := makes_loadEntries closed entries
    have added := makes_add (.dict _) made.closed made.within
    exact (made.trans added).subset (by simp [load])

theorem makes_loadItems {store : Store} (closed : store.Closed own) (items : List Tree) :
    Makes own store (store.loadItems items).1 (store.loadItems items).2 := by
  match items with
  | [] => exact .of_within closed (List.forall_mem_nil _)
  | item :: rest =>
    have made := makes_load closed item
    exact made.trans (makes_loadItems made.closed rest)

theorem makes_loadEntries {store : Store} (closed : store.Closed own)
    (entries : List (Atom × Tree)) :
    Makes own store ((store.loadEntries entries).1.map Prod.snd) (store.loadEntries entries).2 := by
  match entries with
  | [] => exact .of_within closed (List.forall_mem_nil _)
  | (key, value) :: rest =>
    have named := makes_loadAtom closed key
    have made := makes_load named.closed value
    exact named.trans (made.trans (makes_loadEntries made.closed rest))

end

theorem makes_of_load {tree : Tree} {value : Value} (closed : store.Closed own)
    (loaded : store.load tree = (value, next)) : Makes own store [value] next := by
  have made := makes_load closed tree
  rwa [loaded] at made

theorem makes_of_loadFields {given : List (String × Tree)} {fields : List (String × Value)}
    (closed : store.Closed own) (loaded : store.loadFields given = (fields, next)) :
    Makes own store (fields.map Prod.snd) next := by
  induction given generalizing store fields with
  | nil =>
    cases loaded
    exact .of_within closed (List.forall_mem_nil _)
  | cons field rest ih =>
    rcases first : store.load field.2 with ⟨value, one⟩
    rcases others : one.loadFields rest with ⟨values, two⟩
    simp only [loadFields, first, others, Prod.mk.injEq] at loaded
    obtain ⟨rfl, rfl⟩ := loaded
    have made := makes_of_load closed first
    exact made.trans (ih made.closed others)

theorem makes_of_loadOption {given : Option Tree} {value : Option Value}
    (closed : store.Closed own) (loaded : store.loadOption given = (value, next)) :
    Makes own store value.toList next := by
  cases given with
  | none =>
    cases loaded
    exact .of_within closed (List.forall_mem_nil _)
  | some tree =>
    cases loaded
    exact makes_load closed tree

/-- An object is replaced by one whose parts are within the store. -/
theorem Closed.write {object : Object} (closed : store.Closed own) (place : Nat)
    (parts : ∀ part ∈ object.shape.parts, part.Within own store.objects.length) :
    (store.write place object).Closed own := by
  have size : (store.write place object).objects.length = store.objects.length :=
    List.length_set
  refine ⟨?_, ?_⟩
  · rw [size]
    exact closed.fresh
  · rw [size]
    intro other member part inside
    rcases List.mem_or_eq_of_mem_set member with old | rfl
    · exact closed.parts other old part inside
    · exact parts part inside

end Store

/-! ### Texts under texts -/

/-- A dictionary from texts to texts, as an object. -/
def Object.ofTexts (fields : List (String × String)) : Object :=
  .dict (fields.map fun field => (.text field.1, .atom (.text field.2)))

/-- There are no objects in a dictionary of texts. -/
theorem Object.within_ofTexts {own : Nat → Prop} {bound : Nat} {fields : List (String × String)} :
    ∀ part ∈ (Object.ofTexts fields).shape.parts, part.Within own bound := by
  intro part member
  obtain ⟨entry, inside, rfl⟩ := List.mem_map.mp member
  obtain ⟨field, -, rfl⟩ := List.mem_map.mp inside
  trivial

namespace Store

theorem load_ofTexts (store : Store) (fields : List (String × String)) :
    store.load (.ofTexts fields) = store.add (.ofTexts fields) := by
  have entries : store.loadEntries ((fields.map fun field => (field.1, Tree.text field.2)).map
      fun field => (Atom.text field.1, field.2)) =
      (fields.map fun field => (.text field.1, .atom (.text field.2)), store) := by
    induction fields with
    | nil => rfl
    | cons field fields ih =>
      simp only [List.map_cons, loadEntries, Tree.text, load, loadAtom] at ih ⊢
      rw [ih]
  rw [Tree.ofTexts, Tree.record, load, entries]
  rfl

theorem snapshot_atom (store : Store) (value : Atom) :
    store.snapshot (.atom value) = .atom value := by
  rw [snapshot]
  cases store.objects.length <;> rfl

theorem snapshot_of_read? {store : Store} {place : Nat} {fields : List (String × String)}
    (found : store.read? place = some (.ofTexts fields)) :
    store.snapshot (.ref place) = .ofTexts fields := by
  have inside : place < store.objects.length := (List.getElem?_eq_some_iff.mp found).1
  obtain ⟨depth, size⟩ : ∃ depth, store.objects.length = depth + 1 :=
    ⟨store.objects.length - 1, by omega⟩
  rw [snapshot, size, toTree, found]
  -- Texts are seen whole at any depth.
  simp only [Object.ofTexts, Tree.ofTexts, Tree.record, List.map_map]
  congr 1
  apply List.map_congr_left
  intro field _
  cases depth <;> rfl

end Store

end Routebook
