import Routebook.Proofs.Origins
import Routebook.Session.Step

/-!
# Histories

What a step does to a session, by cases, and what every step keeps up, one that fails included, and
so every history: registers and objects refer to what is there, and routes come from templates that
were compiled. A register can be set aside with objects that nothing else refers to. Steps that do
not use the register spare both: what they load is new, what they write is at places of the others,
and what they make has parts of the others alone.
-/
namespace Routebook

/-- The registers that a step stores in or takes something from; questions only look. -/
def Step.uses : Step → List String
  | .ask _ => []
  | .make register making => register :: making.uses
  | .put owner _ _ => [owner]
  | .addMember set item => [set, item]
  | .putRow table key _ => [table, key]

/-- An object takes up a value, under a key or at a position. -/
inductive Object.Takes (value : Value) : Object → Object → Prop
  | dict (entries : Entries Value) (key : Atom) :
    Takes value (.dict entries) (.dict (entries.put key value))
  | list (items : List Value) (index : Nat) :
    Takes value (.list items) (.list (items.set index value))

theorem Object.Takes.parts {value part : Value} {old object : Object}
    (takes : old.Takes value object) (member : part ∈ object.shape.parts) :
    part ∈ old.shape.parts ∨ part = value := by
  cases takes with
  | dict entries key =>
    obtain ⟨entry, inside, rfl⟩ := List.mem_map.mp member
    exact Entries.forall_put (P := fun part => part ∈ entries.map Prod.snd ∨ part = value)
      (Or.inr rfl) (fun old before => Or.inl (List.mem_map_of_mem before)) entry inside
  | list items index => exact List.mem_or_eq_of_mem_set member

namespace Store

variable {store : Store}

/-- Only an object takes up anything. -/
theorem takes_of_setItem {owner key value : Value} {shape : Shape Value}
    (put : store.lens.setItem owner key value = .ok shape) :
    ∃ place old object, owner = .ref place ∧ store.read? place = some old ∧
      object.shape = shape ∧ old.Takes value object := by
  rw [Lens.setItem] at put
  cases owner with
  | atom => cases put
  | ref place =>
    cases found : store.read? place with
    | none =>
      have seen : store.lens.shape (.ref place) = .atom .null := by
        change store.shape (.ref place) = _
        rw [Store.shape, found]
      rw [seen] at put
      cases put
    | some old =>
      have seen : store.lens.shape (.ref place) = old.shape := by
        change store.shape (.ref place) = _
        rw [Store.shape, found]
      rw [seen] at put
      refine ⟨place, old, ?_⟩
      cases old with
      | dict entries =>
        obtain ⟨atom, -, put⟩ := bind_eq_ok.mp put
        cases put
        exact ⟨.dict (entries.put atom value), rfl, found, rfl, .dict entries atom⟩
      | list items =>
        dsimp only [Object.shape] at put
        split at put
        · cases put
        · cases put
        next index _ =>
          cases put
          exact ⟨.list (items.set index value), rfl, found, rfl, .list items index⟩

theorem forall_addMember {K : Entity Value → Prop} {entity : Entity Value}
    {members : List (Entity Value)} (new : K entity) (old : ∀ member ∈ members, K member) :
    ∀ member ∈ store.addMember entity members, K member := by
  rw [addMember]
  split
  · exact old
  · exact List.forall_mem_append.mpr ⟨old, List.forall_mem_singleton.mpr new⟩

theorem forall_putRow {K : Entity Value → Prop} {key : Entity Value} {value : Value}
    {rows : List (Entity Value × Value)} (new : K key) (given : K (.value value))
    (old : ∀ entity ∈ (Holding.table rows).entities, K entity) :
    ∀ entity ∈ (Holding.table (store.putRow key value rows)).entities, K entity := by
  rw [Holding.forall_entities_table] at old ⊢
  induction rows with
  | nil => exact List.forall_mem_singleton.mpr ⟨new, given⟩
  | cons row rest ih =>
    obtain ⟨here, later⟩ := List.forall_mem_cons.mp old
    rw [putRow]
    split
    · exact List.forall_mem_cons.mpr ⟨⟨here.1, given⟩, later⟩
    · exact List.forall_mem_cons.mpr ⟨here, ih later⟩

end Store

namespace Session

variable {session next : Session} {register : String} {aside : String → Prop} {own : Nat → Prop}
  {source : Route → Prop}

/-! ### Registers -/

theorem lookup_filter_ne {β : Type} {register other : String} (entries : List (String × β))
    (different : other ≠ register) :
    (entries.filter (·.1 ≠ register)).lookup other = entries.lookup other := by
  induction entries with
  | nil => rfl
  | cons entry rest ih =>
    by_cases here : entry.1 = register
    · have skipped : (other == entry.1) = false := by simpa [here] using different
      rw [List.filter_cons_of_neg (by simpa using here), ih, List.lookup_cons, skipped]
    · rw [List.filter_cons_of_pos (by simpa using here), List.lookup_cons, List.lookup_cons, ih]

theorem find_hold (session : Session) (register other : String) (holding : Holding) :
    (session.hold register holding).find other =
      if other = register then .ok holding else session.find other := by
  by_cases here : other = register
  · subst here
    simp [find, hold]
  · have different : (other == register) = false := by simpa using here
    rw [if_neg here, find, find, hold, List.lookup_cons, different, lookup_filter_ne _ here]

theorem find_of_findHashable {entity : Entity Value} {digest : Digest}
    (hashed : session.findHashable register = .ok (entity, digest)) :
    session.find register = .ok (.entity entity) := by
  obtain ⟨holding, found, hashed⟩ := bind_eq_ok.mp hashed
  rw [found]
  split at hashed
  · obtain ⟨_, -, hashed⟩ := bind_eq_ok.mp hashed
    cases hashed
    rfl
  · cases hashed

/-! ### What a step does -/

/-- What is prepared for a step is at most a set or table in which there is nothing. -/
theorem prepare_cases (session : Session) (step : Step) :
    session.prepare step = session ∨ ∃ register holding, holding.entities = [] ∧
      session.prepare step = session.ensure register holding := by
  unfold prepare
  split
  · exact Or.inr ⟨_, _, rfl, rfl⟩
  · exact Or.inr ⟨_, _, rfl, rfl⟩
  · exact Or.inr ⟨_, _, rfl, rfl⟩
  · exact Or.inr ⟨_, _, rfl, rfl⟩
  · exact Or.inl rfl

/-- The session after a step that has been prepared and does not fail. -/
inductive Acts (session : Session) : Step → Session → Prop
  | ask (question : Question) : Acts session (.ask question) session
  | make {register : String} {making : Making} {entity : Entity Value} {store : Store}
    (made : session.make making = .ok (entity, store)) :
    Acts session (.make register making) ({ session with store }.hold register (.entity entity))
  /-- The object in the register is replaced by what it is with the value in it. -/
  | put {owner : String} {key value : Tree} {place : Nat} {old object : Object}
    {atom given : Value} {keyed store : Store}
    (named : session.find owner = .ok (.entity (.value (.ref place))))
    (loadedKey : session.store.load key = (atom, keyed))
    (loaded : keyed.load value = (given, store))
    (found : store.read? place = some old) (takes : old.Takes given object) :
    Acts session (.put owner key value) { session with store := store.write place object }
  | addMember {set item : String} {entity : Entity Value} {members : List (Entity Value)}
    (named : session.find item = .ok (.entity entity))
    (found : session.find set = .ok (.set members)) :
    Acts session (.addMember set item)
      (session.hold set (.set (session.store.addMember entity members)))
  /-- The value is loaded before the row is put, so the rows are looked at in the grown store. -/
  | putRow {table key : String} {value : Tree} {entity : Entity Value}
    {rows : List (Entity Value × Value)} {given : Value} {store : Store}
    (named : session.find key = .ok (.entity entity))
    (found : session.find table = .ok (.table rows))
    (loaded : session.store.load value = (given, store)) :
    Acts session (.putRow table key value)
      ({ session with store }.hold table (.table (store.putRow entity given rows)))

theorem acts_of_act {step : Step} {answer : Answer}
    (acted : session.act step = .ok (next, answer)) : session.Acts step next := by
  cases step with
  | ask question =>
    obtain ⟨_, -, acted⟩ := bind_eq_ok.mp acted
    cases acted
    exact .ask question
  | make register making =>
    obtain ⟨⟨entity, store⟩, made, acted⟩ := bind_eq_ok.mp acted
    cases acted
    exact .make made
  | put owner key value =>
    obtain ⟨holding, named, acted⟩ := bind_eq_ok.mp acted
    split at acted
    case h_2 => cases acted
    next target =>
    rcases loadedKey : session.store.load key with ⟨atom, keyed⟩
    rcases loaded : keyed.load value with ⟨given, store⟩
    simp only [loadedKey, loaded] at acted
    obtain ⟨shape, set, acted⟩ := bind_eq_ok.mp acted
    cases acted
    obtain ⟨place, old, object, rfl, found, rfl, takes⟩ :=
      Store.takes_of_setItem (mapError_eq_ok.mp set)
    cases takes with
    | dict entries key => exact .put named loadedKey loaded found (.dict entries key)
    | list items index => exact .put named loadedKey loaded found (.list items index)
  | addMember set item =>
    obtain ⟨⟨entity, digest⟩, hashed, acted⟩ := bind_eq_ok.mp acted
    obtain ⟨members, found, acted⟩ := bind_eq_ok.mp acted
    cases acted
    exact .addMember (find_of_findHashable hashed) (findSet_eq_ok.mp found)
  | putRow table key value =>
    obtain ⟨⟨entity, digest⟩, hashed, acted⟩ := bind_eq_ok.mp acted
    obtain ⟨rows, found, acted⟩ := bind_eq_ok.mp acted
    rcases loaded : session.store.load value with ⟨given, store⟩
    simp only [loaded] at acted
    cases acted
    exact .putRow (find_of_findHashable hashed) (findTable_eq_ok.mp found) loaded

theorem acts_of_step {step : Step} {answer : Answer} (done : (session.step step).2 = .ok answer) :
    (session.prepare step).Acts step (session.step step).1 := by
  rw [Session.step] at done ⊢
  split at done
  next acted => exact acts_of_act acted
  · cases done

/-- After a failure there is only what was prepared before it. -/
theorem step_cases (session : Session) (step : Step) :
    (session.step step).1 = session.prepare step ∨
      (session.prepare step).Acts step (session.step step).1 := by
  cases done : (session.step step).2 with
  | ok => exact Or.inr (acts_of_step done)
  | error =>
    rw [Session.step] at done ⊢
    split at done
    · cases done
    · exact Or.inl rfl

/-! ### What every step keeps up -/

/-- All registers, but for some that are aside, and all objects refer to places of their own, and
the routes in the registers come from a source. -/
structure Sealed (aside : String → Prop) (own : Nat → Prop) (source : Route → Prop)
    (session : Session) : Prop where
  closed : session.store.Closed own
  kept : ∀ register, ¬aside register → session.Keeps own source register

/-- A session goes over into one that is sealed. What registers hold that are aside stays, and so
do the objects at places of others. -/
structure Advances (aside : String → Prop) (own : Nat → Prop) (source : Route → Prop)
    (session next : Session) : Prop where
  sealed : next.Sealed aside own source
  grows : session.store.objects.length ≤ next.store.objects.length
  objects : ∀ place, place < session.store.objects.length → ¬own place →
    next.store.read? place = session.store.read? place
  registers : ∀ register holding, aside register → session.find register = .ok holding →
    next.find register = .ok holding

theorem Advances.refl (whole : session.Sealed aside own source) :
    Advances aside own source session session :=
  ⟨whole, Nat.le_refl _, fun _ _ _ => rfl, fun _ _ _ found => found⟩

theorem Advances.trans {last : Session} (first : Advances aside own source session next)
    (second : Advances aside own source next last) : Advances aside own source session last := by
  refine ⟨second.sealed, Nat.le_trans first.grows second.grows, ?_, ?_⟩
  · intro place inside foreign
    rw [second.objects place (Nat.lt_of_lt_of_le inside first.grows) foreign,
      first.objects place inside foreign]
  · intro register holding apart found
    exact second.registers register holding apart (first.registers register holding apart found)

/-- Objects are added. -/
theorem Sealed.load {store : Store} {values : List Value}
    (whole : session.Sealed aside own source) (made : session.store.Makes own values store) :
    Advances aside own source session { session with store } := by
  refine ⟨⟨made.closed, ?_⟩, made.grows.length_le, fun place inside _ => made.read?_eq inside,
    fun _ _ _ found => found⟩
  intro register apart holding found entity member
  exact (whole.kept register apart holding found entity member).mono fun _ => made.mono

/-- A register takes something else, one that is not aside or holds nothing. -/
theorem Sealed.hold (whole : session.Sealed aside own source) (register : String)
    (holding : Holding) (free : ∀ held, aside register → session.find register ≠ .ok held)
    (entities : ∀ entity ∈ holding.entities,
      entity.Keeps source (·.Within own session.store.objects.length)) :
    Advances aside own source session (session.hold register holding) := by
  refine ⟨⟨whole.closed, ?_⟩, Nat.le_refl _, fun _ _ _ => rfl, ?_⟩
  · intro other outside held found
    rw [find_hold] at found
    split at found
    · cases found
      exact entities
    · exact whole.kept other outside held found
  · intro other held apart found
    -- A register that is aside and holds something is another one.
    rw [find_hold, if_neg]
    · exact found
    · rintro rfl
      exact free held apart found

/-- An object is replaced, at a place of its own. -/
theorem Sealed.write {place : Nat} (object : Object) (whole : session.Sealed aside own source)
    (inside : own place)
    (parts : ∀ part ∈ object.shape.parts, part.Within own session.store.objects.length) :
    Advances aside own source session
      { session with store := session.store.write place object } := by
  have size : (session.store.write place object).objects.length = session.store.objects.length :=
    List.length_set
  refine ⟨⟨whole.closed.write place parts, ?_⟩, Nat.le_of_eq size.symm, ?_,
    fun _ _ _ found => found⟩
  · intro register apart holding found entity member
    have kept := whole.kept register apart holding found entity member
    exact kept.mono fun _ within => within.mono (Nat.le_of_eq size.symm)
  · intro other _ foreign
    have different : place ≠ other := by
      rintro rfl
      exact foreign inside
    exact List.getElem?_set_ne different

theorem Sealed.ensure {holding : Holding} (whole : session.Sealed aside own source)
    (bare : holding.entities = []) :
    Advances aside own source session (session.ensure register holding) := by
  rw [Session.ensure]
  split
  next => exact .refl whole
  next missing =>
    refine whole.hold register holding (fun held _ found => missing ?_) (by simp [bare])
    rw [find] at found
    split at found
    next same => simp [same]
    · cases found

theorem Sealed.prepare (whole : session.Sealed aside own source) (step : Step) :
    Advances aside own source session (session.prepare step) := by
  rcases prepare_cases session step with same | ⟨register, holding, bare, same⟩
  · rw [same]
    exact .refl whole
  · rw [same]
    exact whole.ensure bare

/-- What a step does that is prepared. -/
theorem Sealed.acts {step : Step} (whole : session.Sealed aside own source)
    (inside : ∀ register ∈ step.uses, ¬aside register)
    (compiled : ∀ register template route, step = .make register (.route (.text template)) →
      Route.compile template = .ok route → source route)
    (acts : session.Acts step next) : Advances aside own source session next := by
  cases acts with
  | ask => exact .refl whole
  | @make register making entity store made =>
    obtain ⟨here, others⟩ := List.forall_mem_cons.mp inside
    have yields : Yields own source session.store entity store :=
      make_yields whole.closed (fun used member => whole.kept used (others used member))
        (fun template route same => compiled register template route (congrArg _ same)) made
    have loaded := whole.load yields.makes
    exact loaded.trans (loaded.sealed.hold register (.entity entity)
      (fun _ apart => absurd apart here)
      (List.forall_mem_singleton.mpr ⟨yields.route, yields.makes.within⟩))
  | @put owner _ _ place old object _ given _ store named loadedKey loads found takes =>
    have first := Store.makes_of_load whole.closed loadedKey
    have second := Store.makes_of_load first.closed loads
    have loaded := whole.load (first.trans second)
    have kept := (whole.kept owner (inside owner List.mem_cons_self)).entity named
    have within := kept.parts (.ref place) List.mem_cons_self
    refine loaded.trans (loaded.sealed.write object within.2 fun part member => ?_)
    rcases takes.parts member with before | rfl
    · exact second.closed.parts old (List.mem_of_getElem? found) part before
    · exact second.within _ List.mem_cons_self
  | @addMember set item entity members named found =>
    obtain ⟨here, others⟩ := List.forall_mem_cons.mp inside
    have old := whole.kept set here _ found
    have new := (whole.kept item (others item List.mem_cons_self)).entity named
    exact whole.hold set _ (fun _ apart => absurd apart here) (Store.forall_addMember new old)
  | @putRow table key value entity rows given store named found loads =>
    obtain ⟨here, others⟩ := List.forall_mem_cons.mp inside
    have made := Store.makes_of_load whole.closed loads
    have loaded := whole.load made
    have old := loaded.sealed.kept table here _ found
    have new := (loaded.sealed.kept key (others key List.mem_cons_self)).entity named
    have kept : (Entity.value given).Keeps source (·.Within own store.objects.length) :=
      Entity.keeps_value (made.within given List.mem_cons_self)
    exact loaded.trans (loaded.sealed.hold table (.table (store.putRow entity given rows))
      (fun _ apart => absurd apart here) (Store.forall_putRow new kept old))

/-- One step, whether it fails or not. -/
theorem step_advances {step : Step} (whole : session.Sealed aside own source)
    (inside : ∀ register ∈ step.uses, ¬aside register)
    (compiled : ∀ register template route, step = .make register (.route (.text template)) →
      Route.compile template = .ok route → source route) :
    Advances aside own source session (session.step step).1 := by
  have prepared := whole.prepare step
  rcases step_cases session step with same | acts
  · rw [same]
    exact prepared
  · exact prepared.trans (prepared.sealed.acts inside compiled acts)

/-- A history of steps that use no register that is aside. -/
theorem run_advances {steps : List Step} (whole : session.Sealed aside own source)
    (inside : ∀ step ∈ steps, ∀ register ∈ step.uses, ¬aside register)
    (compiled : ∀ register template route, Step.make register (.route (.text template)) ∈ steps →
      Route.compile template = .ok route → source route) :
    Advances aside own source session (session.run steps).1 := by
  induction steps generalizing session with
  | nil => exact .refl whole
  | cons step steps ih =>
    obtain ⟨here, later⟩ := List.forall_mem_cons.mp inside
    -- The first step leaves a sealed session, from which the others go on.
    have first : Advances aside own source session (session.step step).1 := by
      refine step_advances whole here fun register template route same => ?_
      exact compiled register template route (same ▸ List.mem_cons_self)
    refine first.trans (ih first.sealed later fun register template route member => ?_)
    exact compiled register template route (List.mem_cons_of_mem _ member)

/-! ### Whole histories -/

/-- What can be got at in a session, through registers, sets, tables, fields and parts. -/
inductive Reaches (session : Session) : Entity Value → Prop
  | held {register : String} {holding : Holding} {entity : Entity Value} :
    session.find register = .ok holding → entity ∈ holding.entities → Reaches session entity
  | field {owner part : Entity Value} {name : String} :
    Reaches session owner → owner.field session.store.lens name = .ok part → Reaches session part
  | item {owner part : Entity Value} {key : Value} :
    Reaches session owner → owner.item session.store.lens key = .ok part → Reaches session part

/-- Whatever is reached has a route of the source, and values of the store. -/
theorem Sealed.keeps {entity : Entity Value} (whole : session.Sealed (fun _ => False) own source)
    (reached : session.Reaches entity) :
    entity.Keeps source (·.Within own session.store.objects.length) := by
  induction reached with
  | held found member => exact whole.kept _ id _ found _ member
  | field _ looked ih => exact ih.field whole.closed.shows looked
  | item _ looked ih =>
    obtain ⟨value, rfl, within⟩ := Entity.value_of_item whole.closed.shows looked
    exact Entity.keeps_value within

/-- A template that a step of a history was to compile. -/
def CompiledIn (steps : List Step) (route : Route) : Prop :=
  ∃ register template, Step.make register (.route (.text template)) ∈ steps ∧
    Route.compile template = .ok route

theorem sealed_run (steps : List Step) :
    (empty.run steps).1.Sealed (fun _ => False) (fun _ => True) (CompiledIn steps) := by
  have start : empty.Sealed (fun _ => False) (fun _ => True) (CompiledIn steps) :=
    ⟨Store.closed_empty _ fun _ => trivial, fun _ _ _ => nofun⟩
  refine (run_advances start (fun _ _ _ _ => id) ?_).sealed
  intro register template route member compiled
  exact ⟨register, template, member, compiled⟩

end Session

end Routebook
