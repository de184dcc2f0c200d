import Routebook.Proofs.Independence
import Routebook.Proofs.Writes

/-!
# Copies of props

The outer dictionaries of a page: the parameters of the match that it was made from, or the response
with the props in it, its own props, and the page as a dictionary with the props in that. They are
objects apart at every point of a history, since whatever is copied, loaded or put anywhere is new
where it comes to stand. So what is written to one of them never shows in another; the objects that
stand in them are shared.
-/
namespace Routebook

/-- The object that a value refers to. -/
def Value.place? : Value → Option Nat
  | .atom _ => none
  | .ref place => some place

namespace Entries

variable {α : Type}

/-- After a put an entry is what it was, or what was put. -/
theorem find?_put_cases (key other : Atom) (value : α) (entries : Entries α) :
    (entries.put key value).find? other = some value ∨
      (entries.put key value).find? other = entries.find? other := by
  induction entries with
  | nil =>
    simp only [put, find?]
    split
    · exact Or.inl rfl
    · exact Or.inr rfl
  | cons first rest ih =>
    rw [put]
    split
    · -- The key stays where it is, and is found there or not.
      rw [find?, find?]
      split
      · exact Or.inl rfl
      · exact Or.inr rfl
    · rw [find?, find?]
      split
      · exact Or.inr rfl
      · exact ih

end Entries

namespace Store

variable {own : Nat → Prop} {store next : Store} {values : List Value} {value : Value}

/-- What stands under the name of the props in a dictionary. -/
def propsOf? (store : Store) (owner : Value) : Option Value :=
  match store.shape owner with
  | .dict entries => entries.find? (.text "props")
  | _ => none

theorem shape_of_read? {place : Nat} {object : Object} (found : store.read? place = some object) :
    store.shape (.ref place) = object.shape := by
  rw [shape, found]

/-- What is made leaves all as it is that was there. -/
theorem Makes.shape_eq (made : store.Makes own values next)
    (within : value.Within own store.objects.length) : next.shape value = store.shape value := by
  cases value with
  | atom => rfl
  | ref place => rw [shape, shape, made.read?_eq within.1]

theorem Closed.propsOf?_within {owner : Value} (closed : store.Closed own)
    (found : store.propsOf? owner = some value) : value.Within own store.objects.length := by
  rw [propsOf?] at found
  split at found
  next entries seen => exact Entries.of_find? found (closed.shows.entries seen)
  · cases found

end Store

/-! ### Spots -/

/-- Where an outer dictionary is: it is an object in its own right, or whatever stands under the
name of the props in one. -/
inductive Spot where
  | object (value : Value)
  | props (owner : Value)

namespace Spot

variable {own : Nat → Prop} {store next : Store} {values : List Value} {spot : Spot}
  {spots : List Spot} {place : Nat}

def value : Spot → Value
  | .object value => value
  | .props owner => owner

def place? (store : Store) : Spot → Option Nat
  | .object value => value.place?
  | .props owner => (store.propsOf? owner).bind Value.place?

/-- The objects at spots are different ones. -/
def Distinct (store : Store) (spots : List Spot) : Prop :=
  (spots.filterMap (·.place? store)).Nodup

/-- A spot is at an object of the store. -/
def Within (store : Store) (spot : Spot) : Prop :=
  spot.value.Within (fun _ => True) store.objects.length

theorem lt_of_place? (closed : store.Closed fun _ => True) (within : spot.Within store)
    (found : spot.place? store = some place) : place < store.objects.length := by
  have below {value : Value} (within : value.Within (fun _ => True) store.objects.length)
      (found : value.place? = some place) : place < store.objects.length := by
    cases value with
    | atom => cases found
    | ref =>
      cases found
      exact within.1
  cases spot with
  | object value => exact below within found
  | props owner =>
    obtain ⟨value, inner, found⟩ := Option.bind_eq_some_iff.mp found
    exact below (closed.propsOf?_within inner) found

theorem place?_of_makes (made : store.Makes (fun _ => True) values next)
    (within : spot.Within store) : spot.place? next = spot.place? store := by
  cases spot with
  | object => rfl
  | props owner =>
    have seen : next.shape owner = store.shape owner := made.shape_eq within
    rw [place?, place?, Store.propsOf?, Store.propsOf?, seen]

theorem Within.makes (within : spot.Within store)
    (made : store.Makes (fun _ => True) values next) : spot.Within next :=
  Value.Within.mono within made.grows.length_le

/-- Spots of a store, all different and with different objects at them. -/
structure Apart (store : Store) (spots : List Spot) : Prop where
  different : spots.Nodup
  within : ∀ spot ∈ spots, spot.Within store
  distinct : Distinct store spots

/-- Spots are added at new objects, and with new objects at them. -/
theorem Apart.append_new {added : List Spot} (apart : Apart store spots)
    (closed : store.Closed fun _ => True) (made : store.Makes (fun _ => True) values next)
    (more : Apart next added) (owners : ∀ spot ∈ added, ¬spot.Within store)
    (new : ∀ spot ∈ added, ∀ place, spot.place? next = some place →
      store.objects.length ≤ place) : Apart next (spots ++ added) := by
  refine ⟨List.nodup_append.mpr ⟨apart.different, more.different, ?_⟩,
    List.forall_mem_append.mpr ⟨fun spot member => (apart.within spot member).makes made,
      more.within⟩, ?_⟩
  · rintro spot before _ after rfl
    exact owners spot after (apart.within spot before)
  · have same : spots.filterMap (·.place? next) = spots.filterMap (·.place? store) :=
      List.filterMap_congr fun spot member => place?_of_makes made (apart.within spot member)
    rw [Distinct, List.filterMap_append, same]
    refine List.nodup_append.mpr ⟨apart.distinct, more.distinct, ?_⟩
    rintro old before _ after rfl
    obtain ⟨spot, member, found⟩ := List.mem_filterMap.mp before
    obtain ⟨fresh, inside, placed⟩ := List.mem_filterMap.mp after
    have below := lt_of_place? closed (apart.within spot member) found
    have above := new fresh inside old placed
    omega

/-- A dictionary and the props in it, which are another object. -/
theorem apart_of_propsOf? {owner : Nat} (inside : owner < store.objects.length)
    (props : store.propsOf? (.ref owner) = some (.ref place)) (other : place ≠ owner) :
    Apart store [.object (.ref owner), .props (.ref owner)] := by
  have within : Value.Within (fun _ => True) store.objects.length (.ref owner) := ⟨inside, trivial⟩
  refine ⟨by simp, List.forall_mem_cons.mpr ⟨within, List.forall_mem_singleton.mpr within⟩, ?_⟩
  simp [Distinct, place?, Value.place?, props, Ne.symm other]

end Spot

namespace Session

open Spot (Apart Distinct)

variable {session : Session} {step : Step} {spot : Spot} {spots : List Spot}

/-- A step leaves a spot as it is, or writes to it what is new. -/
theorem Whole.place?_step (whole : session.Whole) (step : Step)
    (within : spot.Within session.store) :
    spot.place? (session.step step).1.store = spot.place? session.store ∨
      ∃ owner, spot = .props (.ref owner) ∧ session.Writes owner step ∧
        ∀ place, spot.place? (session.step step).1.store = some place →
          session.store.objects.length ≤ place := by
  cases spot with
  | object => exact Or.inl rfl
  | props value =>
    cases value with
    | atom => exact Or.inl rfl
    | ref owner =>
      obtain ⟨object, after, comes⟩ := whole.comes step within.1
      rw [Spot.place?, Spot.place?, Store.propsOf?, Store.propsOf?, Store.shape_of_read? after]
      cases comes with
      | stays before => exact Or.inl (by rw [Store.shape_of_read? before])
      | added above => exact absurd within.1 (Nat.not_lt_of_le above)
      | @written old value writes before takes new =>
        rw [Store.shape_of_read? before]
        cases takes with
        | list => exact Or.inl rfl
        | dict entries key =>
          rcases Entries.find?_put_cases key (.text "props") value entries with put | same
          · refine Or.inr ⟨owner, rfl, writes, fun place found => ?_⟩
            dsimp only [Object.shape] at found
            rw [put] at found
            cases value with
            | atom => cases found
            | ref =>
              cases found
              exact new
          · exact Or.inl (congrArg (·.bind Value.place?) same)

theorem writes_unique {one other : Nat} (first : session.Writes one step)
    (second : session.Writes other step) : one = other := by
  cases step with
  | put owner key value =>
    cases Eq.trans (Eq.symm first) second
    rfl
  | _ => cases first

/-- Spots that are apart stay so: what is put anywhere is new, and a step puts it in one place. -/
theorem Whole.apart_step (whole : session.Whole) (step : Step) (apart : Apart session.store spots) :
    Apart (session.step step).1.store spots := by
  have distinct := apart.distinct
  refine ⟨apart.different, fun spot member => ?_, ?_⟩
  · exact Value.Within.mono (apart.within spot member) (whole.advances_step step).grows
  rw [Distinct, List.Nodup, List.pairwise_filterMap] at distinct ⊢
  refine (List.Pairwise.and apart.different distinct).imp_of_mem ?_
  rintro one other member member' ⟨unlike, differ⟩ place found place' found' rfl
  have low {spot : Spot} (member : spot ∈ spots) (found : spot.place? session.store = some place) :
      place < session.store.objects.length :=
    Spot.lt_of_place? whole.closed (apart.within spot member) found
  rcases whole.place?_step step (apart.within one member) with same | ⟨owner, rfl, writes, new⟩
  · rw [same] at found
    rcases whole.place?_step step (apart.within other member') with same' | ⟨owner', -, -, new'⟩
    · rw [same'] at found'
      exact differ place found place found' rfl
    · exact absurd (low member found) (Nat.not_lt_of_le (new' place found'))
  · rcases whole.place?_step step (apart.within other member') with
      same' | ⟨owner', rfl, writes', -⟩
    · rw [same'] at found'
      exact absurd (low member' found') (Nat.not_lt_of_le (new place found))
    · cases writes_unique writes writes'
      exact unlike rfl

theorem Whole.apart_run (whole : session.Whole) (steps : List Step)
    (apart : Apart session.store spots) : Apart (session.run steps).1.store spots := by
  induction steps generalizing session with
  | nil => exact apart
  | cons step steps ih => exact ih (whole.step step) (whole.apart_step step apart)

/-- At every later point the objects at spots are different ones, and each stays as it is then for
as long as nothing is written to it. -/
def Isolated (session : Session) (spots : List Spot) : Prop :=
  ∀ steps, let later := (session.run steps).1
    Distinct later.store spots ∧
      ∀ spot ∈ spots, ∀ place, spot.place? later.store = some place →
        ∃ object, later.store.read? place = some object ∧
          ∀ more, later.Spares place more → (later.run more).1.store.read? place = some object

theorem Whole.isolated (whole : session.Whole) (apart : Apart session.store spots) :
    session.Isolated spots := by
  intro steps later
  have after : later.Whole := whole.run steps
  have remains : Apart later.store spots := whole.apart_run steps apart
  refine ⟨remains.distinct, fun spot member place found => ?_⟩
  have below := Spot.lt_of_place? after.closed (remains.within spot member) found
  have there := List.getElem?_eq_getElem below
  exact ⟨_, there, fun more spared => (after.read?_run below spared).trans there⟩

theorem Isolated.read?_run {steps : List Step} {place : Nat} (isolated : session.Isolated spots)
    (spot : Spot) (member : spot ∈ spots) (found : spot.place? session.store = some place)
    (spared : session.Spares place steps) :
    (session.run steps).1.store.read? place = session.store.read? place := by
  obtain ⟨object, there, stays⟩ := (isolated []).2 spot member place found
  exact (stays steps spared).trans there.symm

/-! ### Pages and their copies -/

/-- A page is made from a match or a response; the spots are where its outer dictionaries are. -/
inductive Packs (session : Session) : Making → List Spot → Prop
  | pageFor {register : String} {component : Tree} {props : Option Tree}
    {config : Option (List (String × Tree))} {route : Route} {path params : Value}
    (held : session.find register = .ok (.entity (.found route path params))) :
    Packs session (.pageFor register component props config) [.object params]
  | pageFrom {register : String} {config : Option (List (String × Tree))} {data : Value}
    (held : session.find register = .ok (.entity (.value data))) :
    Packs session (.pageFrom register config) [.object data, .props data]

/-- A value refers to a dictionary of the store. -/
def IsDict (store : Store) (value : Value) : Prop :=
  ∃ place entries, value = .ref place ∧ store.read? place = some (.dict entries)

theorem isDict_of_shape {store : Store} {value : Value} {entries : Entries Value}
    (seen : store.shape value = .dict entries) : IsDict store value := by
  cases value with
  | atom => cases seen
  | ref place =>
    rw [Store.shape] at seen
    cases found : store.read? place with
    | none =>
      rw [found] at seen
      cases seen
    | some object =>
      cases object with
      | list =>
        rw [found] at seen
        cases seen
      | dict entries => exact ⟨place, entries, rfl, found⟩

theorem IsDict.of_makes {store next : Store} {values : List Value} {value : Value}
    (made : store.Makes (fun _ => True) values next) (dict : IsDict next value)
    (within : value.Within (fun _ => True) store.objects.length) : IsDict store value := by
  obtain ⟨place, entries, rfl, found⟩ := dict
  rw [made.read?_eq within.1] at found
  exact ⟨place, entries, rfl, found⟩

/-- Only what is in a dictionary is found under a text. -/
theorem isDict_of_item {store : Store} {owner part : Value} {name : String}
    (found : store.lens.item owner (store.lens.text name) = .ok part) : IsDict store owner := by
  rw [Lens.item] at found
  split at found
  next seen => exact isDict_of_shape seen
  · -- A text is no position in a sequence.
    split at found <;> cases found

theorem isDict_of_mergeProps {store : Store} {params : Value} {props : Option Value}
    {merged : Entries Value} (made : Page.mergeProps store.lens params props = .ok merged) :
    IsDict store params := by
  obtain ⟨taken, read, -⟩ := bind_eq_ok.mp made
  rw [Lens.asMapping] at read
  split at read
  next seen => exact isDict_of_shape seen
  · cases read

/-- An entity is a page whose props are a dictionary that is new. -/
def HasNewProps (store : Store) (entity : Entity Value) (next : Store) : Prop :=
  ∃ page place entries, entity = .page page ∧ page.props = .ref place ∧
    store.objects.length ≤ place ∧ next.read? place = some (.dict entries)

theorem makePage_props {store next : Store} {path params : Value} {component : Tree}
    {props : Option Tree} {config : Config Tree} {entity : Entity Value}
    (closed : store.Closed fun _ => True)
    (within : params.Within (fun _ => True) store.objects.length)
    (made : makePage store path params component props config = .ok (entity, next)) :
    HasNewProps store entity next ∧ IsDict store params := by
  rcases loaded : store.load component with ⟨shown, one⟩
  rcases given : one.loadOption props with ⟨more, two⟩
  rcases stamped : two.load config.version with ⟨version, three⟩
  simp only [makePage, loaded, given, stamped] at made
  obtain ⟨merged, merging, made⟩ := bind_eq_ok.mp made
  cases made
  have first := Store.makes_of_load closed loaded
  have second := Store.makes_of_loadOption first.closed given
  have third := Store.makes_of_load second.closed stamped
  have whole := (first.trans second).trans third
  refine ⟨⟨_, three.objects.length, merged, rfl, rfl, whole.grows.length_le, ?_⟩, ?_⟩
  · exact List.getElem?_concat_length
  · exact (isDict_of_mergeProps (mapError_eq_ok.mp merging)).of_makes whole within

theorem readPage_props {store next : Store} {data : Value} {config : Config Tree}
    {entity : Entity Value} (closed : store.Closed fun _ => True)
    (made : readPage store data config = .ok (entity, next)) :
    HasNewProps store entity next ∧ IsDict store data := by
  obtain ⟨response, read, made⟩ := bind_eq_ok.mp made
  rcases added : store.add (.dict response.props) with ⟨props, one⟩
  rcases stamped : one.load config.version with ⟨version, two⟩
  simp only [added, stamped] at made
  cases made
  have read := mapError_eq_ok.mp read
  obtain ⟨-, entries, -⟩ := closed.shows.readResponse read
  have first := Store.makes_of_add_dict closed added entries
  have second := Store.makes_of_load first.closed stamped
  obtain ⟨_, named, -⟩ := bind_eq_ok.mp read
  cases added
  have there : (store.add (.dict response.props)).2.read? store.objects.length =
      some (.dict response.props) := List.getElem?_concat_length
  refine ⟨⟨_, store.objects.length, response.props, rfl, rfl, Nat.le_refl _, ?_⟩,
    isDict_of_item named⟩
  rw [second.read?_eq (List.getElem?_eq_some_iff.mp there).1]
  exact there

/-- What a page is made from are dictionaries, and its own props are a new one. -/
theorem Packs.props {making : Making} {entity : Entity Value} {store : Store}
    (packs : session.Packs making spots) (whole : session.Whole)
    (made : session.make making = .ok (entity, store)) :
    HasNewProps session.store entity store ∧
      ∀ spot ∈ spots, IsDict session.store spot.value := by
  cases packs with
  | pageFor held =>
    obtain ⟨holding, found, made⟩ := bind_eq_ok.mp made
    obtain ⟨config, -, made⟩ := bind_eq_ok.mp made
    cases held.symm.trans found
    have within := ((whole.kept _ id).entity held).parts _
      (List.mem_cons_of_mem _ List.mem_cons_self)
    obtain ⟨new, dict⟩ := makePage_props whole.closed within made
    exact ⟨new, List.forall_mem_singleton.mpr dict⟩
  | pageFrom held =>
    obtain ⟨holding, found, made⟩ := bind_eq_ok.mp made
    obtain ⟨config, -, made⟩ := bind_eq_ok.mp made
    cases held.symm.trans found
    obtain ⟨new, dict⟩ := readPage_props whole.closed made
    exact ⟨new, List.forall_mem_cons.mpr ⟨dict, List.forall_mem_singleton.mpr dict⟩⟩

/-- No dictionary is its own props. -/
theorem Loopless.propsOf?_ne (loopless : session.Loopless) (place : Nat) :
    session.store.propsOf? (.ref place) ≠ some (.ref place) := by
  intro looked
  rw [Store.propsOf?, Store.shape] at looked
  cases there : session.store.read? place with
  | none =>
    rw [there] at looked
    cases looked
  | some object =>
    rw [there] at looked
    cases object with
    | list => cases looked
    | dict entries =>
      refine loopless place _ there ?_
      have inside : ∀ entry ∈ entries, entry.2 ∈ entries.map Prod.snd :=
        fun entry member => List.mem_map_of_mem member
      exact Entries.of_find? looked inside

/-- What a page is made from are different objects, the props of a response apart from itself. -/
theorem Packs.apart {making : Making} (packs : session.Packs making spots)
    (whole : session.Whole) (loopless : session.Loopless) : Apart session.store spots := by
  cases packs with
  | @pageFor _ _ _ _ route path params held =>
    have within := ((whole.kept _ id).entity held).parts params
      (List.mem_cons_of_mem _ List.mem_cons_self)
    refine ⟨List.nodup_singleton _, List.forall_mem_singleton.mpr within, ?_⟩
    cases params with
    | atom => exact List.nodup_nil
    | ref place => exact List.nodup_singleton place
  | @pageFrom _ _ data held =>
    have within := ((whole.kept _ id).entity held).parts data List.mem_cons_self
    refine ⟨by simp, List.forall_mem_cons.mpr ⟨within, List.forall_mem_singleton.mpr within⟩, ?_⟩
    rw [Distinct, List.Nodup, List.pairwise_filterMap, List.pairwise_pair]
    rintro place found _ inner rfl
    obtain ⟨part, looked, placed⟩ := Option.bind_eq_some_iff.mp inner
    cases data with
    | atom => cases found
    | ref =>
      cases found
      cases part with
      | atom => cases placed
      | ref =>
        cases placed
        exact loopless.propsOf?_ne place looked

theorem make_toDict {owner : String} {page : Page Value} {place : Nat} {entries : Entries Value}
    (held : session.find owner = .ok (.entity (.page page))) (own : page.props = .ref place)
    (found : session.store.read? place = some (.dict entries)) :
    ∃ store, session.make (.toDict owner) =
        .ok (.value (.ref (session.store.objects.length + 1)), store) ∧
      store.read? session.store.objects.length = some (.dict entries) ∧
      store.propsOf? (.ref (session.store.objects.length + 1)) =
        some (.ref session.store.objects.length) := by
  have read : session.store.lens.toEntries page.props = .ok entries := by
    have seen : session.store.lens.shape page.props = .dict entries := by
      rw [own]
      exact Store.shape_of_read? found
    rw [Lens.toEntries, seen]
  let one := (session.store.add (.dict entries)).2
  let fields := ({ page with props := .ref session.store.objects.length } : Page Value).fields.map
    fun field => (Atom.text field.1, field.2)
  have copied : pageToDict session.store page =
      .ok (.value (.ref one.objects.length), (one.add (.dict fields)).2) :=
    bind_of_ok (mapError_eq_ok.mpr read)
  have size : one.objects.length = session.store.objects.length + 1 := by simp [one, Store.add]
  have first : one.read? session.store.objects.length = some (.dict entries) :=
    List.getElem?_concat_length
  have second : (one.add (.dict fields)).2.read? one.objects.length = some (.dict fields) :=
    List.getElem?_concat_length
  rw [size] at copied second
  refine ⟨_, (bind_of_ok (findPage_eq_ok.mpr held)).trans copied, ?_, ?_⟩
  · rw [← first]
    exact List.getElem?_append_left (by omega)
  · rw [Store.propsOf?, Store.shape_of_read? second]
    rfl

theorem store_step_make {making : Making} {entity : Entity Value} {store : Store}
    (made : session.make making = .ok (entity, store)) (register : String) :
    (session.step (.make register making)).1.store = store ∧
      (session.step (.make register making)).1.find register = .ok (.entity entity) := by
  rw [step_make made register]
  exact ⟨rfl, by rw [find_hold, if_pos rfl]⟩

/-- The outer dictionaries of a page are isolated, whatever the history is before and after. A page
from a match or a response gets props of its own, and as a dictionary it is a new one with a copy of
the props in it. From then on the parameters of the match, or the response and the props in it, the
props of the page, its dictionary and the props in that are different objects at every point, and
each is changed by nothing but steps that write to itself. -/
theorem props_isolated (before : List Step) (making : Making) (spots : List Spot)
    (entity : Entity Value) (store : Store) (register : String) :
    let session := (empty.run before).1
    let start := (session.step (.make register making)).1
    session.Packs making spots → session.make making = .ok (entity, store) →
    (∀ spot ∈ spots, IsDict session.store spot.value) ∧
    ∃ page place entries, entity = .page page ∧ page.props = .ref place ∧
      start.find register = .ok (.entity (.page page)) ∧
      session.store.read? place = none ∧ start.store.read? place = some (.dict entries) ∧
      start.Isolated (spots ++ [.object (.ref place)]) ∧
      ∀ between owner holder,
        let middle := (start.run between).1
        let last := (middle.step (.make holder (.toDict owner))).1
        middle.find owner = .ok (.entity (.page page)) →
        ∃ dict copy, last.find holder = .ok (.entity (.value (.ref dict))) ∧
          last.store.propsOf? (.ref dict) = some (.ref copy) ∧
          middle.store.read? dict = none ∧ middle.store.read? copy = none ∧
          last.store.read? copy = middle.store.read? place ∧
          last.Isolated
            (spots ++ [.object (.ref place), .object (.ref dict), .props (.ref dict)]) := by
  intro session start packs made
  have whole : session.Whole := whole_empty.run before
  obtain ⟨⟨page, place, entries, rfl, own, above, found⟩, given⟩ := packs.props whole made
  have sources := packs.apart whole (loopless_run before)
  obtain ⟨stored, holds⟩ := store_step_make made register
  have began : start.store = store := stored
  have ready : start.Whole := whole.step _
  have inside : place < store.objects.length := (List.getElem?_eq_some_iff.mp found).1
  have apart : Apart start.store (spots ++ [.object (.ref place)]) := by
    rw [began]
    refine sources.append_new whole.closed (whole.makes made) ?_ ?_ ?_
    · exact ⟨List.nodup_singleton _, List.forall_mem_singleton.mpr ⟨inside, trivial⟩,
        List.nodup_singleton place⟩
    · exact List.forall_mem_singleton.mpr fun within => Nat.not_lt_of_le above within.1
    · refine List.forall_mem_singleton.mpr ?_
      rintro _ ⟨⟩
      exact above
  refine ⟨given, page, place, entries, rfl, own, holds, List.getElem?_eq_none above,
    began ▸ found, ready.isolated apart, ?_⟩
  intro between owner holder middle last held
  have settled : middle.Whole := ready.run between
  obtain ⟨current, there⟩ := ready.exists_dict_run between (began ▸ found)
  obtain ⟨copied, made, first, second⟩ := make_toDict held own there
  obtain ⟨stored, holds⟩ := store_step_make made holder
  have ended : last.store = copied := stored
  have makes : middle.store.Makes (fun _ => True) _ last.store := ended ▸ settled.makes made
  have inside := (makes.within _ List.mem_cons_self).1
  rw [← ended] at first second
  refine ⟨_, _, holds, second, List.getElem?_eq_none (Nat.le_succ _),
    List.getElem?_eq_none (Nat.le_refl _), first.trans there.symm, ?_⟩
  have more := Spot.apart_of_propsOf? inside second (Nat.succ_ne_self _).symm
  have all := (ready.apart_run between apart).append_new settled.closed makes more ?_ ?_
  · rw [List.append_assoc] at all
    exact (settled.step _).isolated all
  · have above : ¬middle.store.objects.length + 1 < middle.store.objects.length := by omega
    exact List.forall_mem_cons.mpr ⟨fun within => above within.1,
      List.forall_mem_singleton.mpr fun within => above within.1⟩
  · refine List.forall_mem_cons.mpr ⟨?_, List.forall_mem_singleton.mpr ?_⟩
    · rintro _ ⟨⟩
      exact Nat.le_succ _
    · intro _ placed
      rw [Spot.place?, second] at placed
      cases placed
      exact Nat.le_refl _

/-- The props in a response are written to, and those in the dictionary of the page are replaced:
the props of the page and their copy stay as they were, and share the dictionary that stands in
them. -/
theorem props_isolated_response :
    let data : Tree := .dict [(.text "component", .text "V"),
      (.text "props", .dict [(.text "a", .dict [])])]
    let before : List Step := [.make "data" (.value data)]
    let between : List Step := [.make "props" (.item "data" (.text "props"))]
    let writes : List Step := [.put "props" (.text "b") (.int 1),
      .put "dict" (.text "props") (.dict [])]
    let start := ((empty.run before).1.step (.make "page" (.pageFrom "data" none))).1
    let last := ((start.run between).1.step (.make "dict" (.toDict "page"))).1
    last.Isolated [.object (.ref 2), .props (.ref 2), .object (.ref 3), .object (.ref 5),
        .props (.ref 5)] ∧
      (last.run writes).1.store.read? 1 =
        some (.dict [(.text "a", .ref 0), (.text "b", .atom (.int 1))]) ∧
      (last.run writes).1.store.read? 3 = some (.dict [(.text "a", .ref 0)]) ∧
      (last.run writes).1.store.read? 4 = some (.dict [(.text "a", .ref 0)]) := by
  intro data before between writes start last
  have found : (empty.run before).1.find "data" = .ok (.entity (.value (.ref 2))) := by
    decide +kernel
  obtain ⟨store, made⟩ : ∃ store, (empty.run before).1.make (.pageFrom "data" none) =
      .ok (.page ⟨.atom (.text "V"), .ref 3, .atom (.text "/"), .atom (.text "current")⟩, store) :=
    ⟨_, rfl⟩
  obtain ⟨-, page, place, entries, same, own, -, -, -, -, copied⟩ :=
    props_isolated before _ _ _ _ "page" (.pageFrom found) made
  cases same
  cases own
  have held : (start.run between).1.find "page" = .ok (.entity (.page
      ⟨.atom (.text "V"), .ref 3, .atom (.text "/"), .atom (.text "current")⟩)) := by
    decide +kernel
  obtain ⟨dict, copy, holds, -, -, -, -, isolated⟩ := copied between "page" "dict" held
  have placed : last.find "dict" = .ok (.entity (.value (.ref 5))) := by decide +kernel
  cases placed.symm.trans holds
  have isolated : last.Isolated _ := isolated
  have first : last.find "props" = .ok (.entity (.value (.ref 1))) := by decide +kernel
  have second : (last.step (.put "props" (.text "b") (.int 1))).1.find "dict" =
      .ok (.entity (.value (.ref 5))) := by decide +kernel
  have spared (place : Nat) (other : 1 ≠ place) (another : 5 ≠ place) : last.Spares place writes :=
    ⟨not_writes_of_find first other, not_writes_of_find second another, trivial⟩
  refine ⟨isolated, by decide +kernel, ?_, ?_⟩
  · rw [isolated.read?_run (.object (.ref 3)) (by simp) rfl (spared 3 (by decide) (by decide))]
    decide +kernel
  · rw [isolated.read?_run (.props (.ref 5)) (by simp) (by decide +kernel)
      (spared 4 (by decide) (by decide))]
    decide +kernel

end Session

end Routebook
