import Routebook.Proofs.Objects

/-!
# Origins

What is made in a session comes from what it is made from. A route is made from a template, or is
the route of something else; a value is a part of what is there, or refers to a new object. So the
routes of a session stay those that templates gave, and its values stay within its store.
-/
namespace Routebook

/-! ### What an entity is made of -/

namespace Entity

variable {α : Type}

/-- The values that stand in an entity. -/
def parts : Entity α → List α
  | .value v => [v]
  | .route _ | .keys _ => []
  | .found _ path params => [path, params]
  | .page p => p.fields.map Prod.snd
  | .config c => c.fields.map Prod.snd
  | .segment given => given.map Prod.snd

/-- The route that an entity is or has. -/
def route? : Entity α → Option Route
  | .route r | .found r _ _ => some r
  | _ => none

/-- Routes come from a source, and all values have a property. -/
structure Keeps (source : Route → Prop) (P : α → Prop) (entity : Entity α) : Prop where
  route : ∀ route, entity.route? = some route → source route
  parts : ∀ part ∈ entity.parts, P part

variable {lens : Lens α} {source : Route → Prop} {P : α → Prop} {entity part : Entity α}

theorem Keeps.mono {Q : α → Prop} (kept : entity.Keeps source P)
    (weaker : ∀ value, P value → Q value) : entity.Keeps source Q :=
  ⟨kept.route, fun part member => weaker part (kept.parts part member)⟩

theorem keeps_value {value : α} (own : P value) : (Entity.value value).Keeps source P :=
  ⟨nofun, by simpa [Entity.parts] using own⟩

theorem Keeps.field {name : String} (kept : entity.Keeps source P) (shows : lens.Shows P)
    (found : entity.field lens name = .ok part) : part.Keeps source P := by
  rw [Entity.field] at found
  split at found
  case h_2 => cases found
  next inner looked =>
    cases found
    obtain ⟨before, after, fields, -⟩ := List.lookup_eq_some_iff.mp looked
    have member : (name, part) ∈ entity.fields lens := by simp [fields]
    -- Of all fields only that of a match has a route, its own.
    cases entity with
    | value | keys => cases member
    | route r =>
      simp only [Entity.fields, List.mem_cons, Prod.mk.injEq, List.not_mem_nil, or_false] at member
      rcases member with ⟨-, rfl⟩ | ⟨-, rfl⟩ | ⟨-, rfl⟩
      · exact keeps_value (shows.atom _)
      · exact keeps_value (shows.atom _)
      · exact ⟨nofun, nofun⟩
    | found r path params =>
      simp only [Entity.fields, List.mem_cons, Prod.mk.injEq, List.not_mem_nil, or_false] at member
      rcases member with ⟨-, rfl⟩ | ⟨-, rfl⟩ | ⟨-, rfl⟩
      · exact ⟨kept.route, nofun⟩
      · exact keeps_value (kept.parts _ (by simp [Entity.parts]))
      · exact keeps_value (kept.parts _ (by simp [Entity.parts]))
    | page | config | segment =>
      obtain ⟨field, given, same⟩ := List.mem_map.mp member
      cases same
      exact keeps_value (kept.parts field.2 (List.mem_map_of_mem given))

theorem value_of_item {key : α} (shows : lens.Shows P) (found : entity.item lens key = .ok part) :
    ∃ value, part = .value value ∧ P value := by
  cases entity with
  | value v =>
    rw [Entity.item] at found
    cases inner : lens.item v key with
    | error cause =>
      rw [inner] at found
      cases found
    | ok value =>
      rw [inner] at found
      cases found
      exact ⟨value, rfl, shows.item inner⟩
  | keys names =>
    rw [Entity.item] at found
    split at found
    · cases found
    · cases found
    · split at found
      · cases found
        exact ⟨_, rfl, shows.atom _⟩
      · cases found
  | _ => cases found

end Entity

namespace Holding

/-- The entities that something holds, the values of a table among them. -/
def entities : Holding → List (Entity Value)
  | .entity e => [e]
  | .set members => members
  | .table rows => rows.map Prod.fst ++ rows.map (.value ·.2)

theorem forall_entities_table {K : Entity Value → Prop} {rows : List (Entity Value × Value)} :
    (∀ entity ∈ (Holding.table rows).entities, K entity) ↔
      ∀ row ∈ rows, K row.1 ∧ K (.value row.2) := by
  rw [entities, List.forall_mem_append, List.forall_mem_map, List.forall_mem_map]
  exact ⟨fun both row member => ⟨both.1 row member, both.2 row member⟩,
    fun all => ⟨fun row member => (all row member).1, fun row member => (all row member).2⟩⟩

end Holding

/-- The registers that something is made from. -/
def Making.uses : Making → List String
  | .route _ | .page _ | .fallback _ | .config _ | .segment _ | .value _ => []
  | .matching register _ | .found register _ _ | .params register _ | .pageFor register _ _ _
  | .pageFrom register _ | .toDict register | .field register _ | .item register _ => [register]

theorem Tree.asText_eq_ok {tree : Tree} {text : String} :
    Tree.lens.asText tree = .ok text ↔ tree = .text text := by
  constructor
  · intro read
    rw [Lens.asText] at read
    split at read
    next same =>
      cases read
      cases tree <;> cases same
      rfl
    · cases read
    · cases read
  · rintro rfl
    rfl

namespace Session

variable {session : Session} {register : String} {own : Nat → Prop} {source : Route → Prop}

/-- A holding of one kind is asked for. -/
theorem find_bind_eq_ok {α : Type} {take : Holding → Except Fault α} {kind : α → Holding} {a : α}
    (own : take (kind a) = .ok a) (only : ∀ holding, take holding = .ok a → holding = kind a) :
    session.find register >>= take = .ok a ↔ session.find register = .ok (kind a) := by
  rw [bind_eq_ok]
  constructor
  · rintro ⟨holding, found, taken⟩
    rw [found, only holding taken]
  · intro found
    exact ⟨kind a, found, own⟩

theorem findRoute_eq_ok {field : String} {route : Route} :
    session.findRoute register field = .ok route ↔
      session.find register = .ok (.entity (.route route)) := by
  rw [findRoute]
  apply find_bind_eq_ok rfl
  intro holding taken
  split at taken <;> cases taken
  rfl

theorem findPage_eq_ok {field : String} {page : Page Value} :
    session.findPage register field = .ok page ↔
      session.find register = .ok (.entity (.page page)) := by
  rw [findPage]
  apply find_bind_eq_ok rfl
  intro holding taken
  split at taken <;> cases taken
  rfl

theorem findSet_eq_ok {members : List (Entity Value)} :
    session.findSet register = .ok members ↔ session.find register = .ok (.set members) := by
  rw [findSet]
  apply find_bind_eq_ok rfl
  intro holding taken
  split at taken <;> cases taken
  rfl

theorem findTable_eq_ok {rows : List (Entity Value × Value)} :
    session.findTable register = .ok rows ↔ session.find register = .ok (.table rows) := by
  rw [findTable]
  apply find_bind_eq_ok rfl
  intro holding taken
  split at taken <;> cases taken
  rfl

/-- What a route makes of a path: nothing at all, or a new object with texts. -/
theorem matchPath_text (store : Store) (route : Route) (path : String) :
    matchPath store route (.text path) =
      .ok (match route.params? path with
        | none => (none, store)
        | some params =>
          (some (path, .ref store.objects.length), (store.add (.ofTexts params)).2)) := by
  rw [matchPath]
  change (match route.params? path with | none => _ | some params => _) = _
  cases route.params? path with
  | none => rfl
  | some params =>
    dsimp only
    rw [Store.load_ofTexts]
    rfl

variable {store : Store}

theorem matchPath_cases {route : Route} {path : Tree} {answer : Option (String × Value)}
    {next : Store} (matched : matchPath store route path = .ok (answer, next)) :
    (answer = none ∧ next = store) ∨
      ∃ text params, answer = some (text, .ref store.objects.length) ∧
        next = (store.add (.ofTexts params)).2 := by
  obtain ⟨text, read, -⟩ := bind_eq_ok.mp matched
  cases Tree.asText_eq_ok.mp (mapError_eq_ok.mp read)
  rw [matchPath_text] at matched
  cases took : route.params? text with
  | none =>
    rw [took] at matched
    cases matched
    exact Or.inl ⟨rfl, rfl⟩
  | some params =>
    rw [took] at matched
    cases matched
    exact Or.inr ⟨text, params, rfl, rfl⟩

/-- An entity is made whose values are, and whose route comes from a source. -/
structure Yields (own : Nat → Prop) (source : Route → Prop) (store : Store)
    (entity : Entity Value) (next : Store) : Prop where
  makes : store.Makes own entity.parts next
  route : ∀ route, entity.route? = some route → source route

theorem yields_null (closed : store.Closed own) :
    Yields own source store (.value (.atom .null)) store :=
  ⟨.of_within closed (List.forall_mem_singleton.mpr trivial), nofun⟩

theorem makes_texts (closed : store.Closed own) (params : List (String × String)) :
    store.Makes own [.ref store.objects.length] (store.add (.ofTexts params)).2 :=
  Store.makes_add _ closed Object.within_ofTexts

/-- What a register holds has routes of a source and values of the store. -/
def Keeps (own : Nat → Prop) (source : Route → Prop) (session : Session) (register : String) :
    Prop :=
  ∀ holding, session.find register = .ok holding → ∀ entity ∈ holding.entities,
    entity.Keeps source (·.Within own session.store.objects.length)

theorem Keeps.entity {entity : Entity Value} (kept : session.Keeps own source register)
    (found : session.find register = .ok (.entity entity)) :
    entity.Keeps source (·.Within own session.store.objects.length) :=
  kept _ found entity (List.mem_singleton.mpr rfl)

section Made

variable {entity : Entity Value} {next : Store}

/-! ### Routes and matches -/

theorem route_yields {template : Tree} (closed : session.store.Closed own)
    (compiled : ∀ text route, template = .text text → Route.compile text = .ok route →
      source route)
    (made : session.make (.route template) = .ok (entity, next)) :
    Yields own source session.store entity next := by
  obtain ⟨text, read, made⟩ := bind_eq_ok.mp made
  obtain ⟨route, compile, made⟩ := bind_eq_ok.mp made
  cases made
  -- What compiles was read as a text, so the tree is that text.
  refine ⟨.of_within closed nofun, ?_⟩
  rintro _ ⟨⟩
  exact compiled text route (Tree.asText_eq_ok.mp (mapError_eq_ok.mp read))
    (mapError_eq_ok.mp compile)

theorem matching_yields {path : Tree} (closed : session.store.Closed own)
    (kept : session.Keeps own source register)
    (made : session.make (.matching register path) = .ok (entity, next)) :
    Yields own source session.store entity next := by
  obtain ⟨route, named, made⟩ := bind_eq_ok.mp made
  obtain ⟨⟨answer, one⟩, matched, made⟩ := bind_eq_ok.mp made
  have sourced := (kept.entity (findRoute_eq_ok.mp named)).route
  rcases matchPath_cases matched with ⟨rfl, rfl⟩ | ⟨text, params, rfl, rfl⟩
  · cases made
    exact yields_null closed
  · cases made
    -- The path is an atom, the parameters the new object.
    have new := makes_texts closed params
    exact ⟨new.others (List.forall_mem_cons.mpr ⟨trivial, new.within⟩), sourced⟩

theorem params_yields {path : Tree} (closed : session.store.Closed own)
    (made : session.make (.params register path) = .ok (entity, next)) :
    Yields own source session.store entity next := by
  obtain ⟨holding, held, made⟩ := bind_eq_ok.mp made
  split at made
  case h_1 => cases made
  obtain ⟨route, named, made⟩ := bind_eq_ok.mp made
  obtain ⟨⟨answer, one⟩, matched, made⟩ := bind_eq_ok.mp made
  rcases matchPath_cases matched with ⟨rfl, rfl⟩ | ⟨text, params, rfl, rfl⟩
  · cases made
    exact yields_null closed
  · cases made
    exact ⟨makes_texts closed params, nofun⟩

theorem found_yields {path params : Tree} (closed : session.store.Closed own)
    (kept : session.Keeps own source register)
    (made : session.make (.found register path params) = .ok (entity, next)) :
    Yields own source session.store entity next := by
  obtain ⟨route, named, made⟩ := bind_eq_ok.mp made
  rcases first : session.store.load path with ⟨path', one⟩
  rcases second : one.load params with ⟨params', two⟩
  simp only [first, second] at made
  split at made
  case h_2 => cases made
  cases made
  have read := Store.makes_of_load closed first
  exact ⟨read.trans (Store.makes_of_load read.closed second),
    (kept.entity (findRoute_eq_ok.mp named)).route⟩

/-! ### Pages -/

/-- A page of values that are within the store. -/
theorem yields_page {values : List Value} {page : Page Value} (made : store.Makes own values next)
    (parts : page.component.Within own next.objects.length ∧
      page.props.Within own next.objects.length ∧ page.url.Within own next.objects.length ∧
      page.version.Within own next.objects.length) :
    Yields own source store (.page page) next :=
  ⟨made.others (List.forall_mem_map.mpr (Page.forall_fields.mpr parts)), nofun⟩

theorem makePage_yields {path params : Value} {component : Tree} {props : Option Tree}
    {config : Config Tree} (closed : store.Closed own)
    (within : path.Within own store.objects.length)
    (made : makePage store path params component props config = .ok (entity, next)) :
    Yields own source store entity next := by
  rcases loaded : store.load component with ⟨shown, one⟩
  rcases given : one.loadOption props with ⟨more, two⟩
  rcases stamped : two.load config.version with ⟨version, three⟩
  simp only [makePage, loaded, given, stamped] at made
  obtain ⟨merged, merging, made⟩ := bind_eq_ok.mp made
  rcases added : three.add (.dict merged) with ⟨taken, four⟩
  rw [added] at made
  cases made
  have first := Store.makes_of_load closed loaded
  have second := Store.makes_of_loadOption first.closed given
  have third := Store.makes_of_load second.closed stamped
  have entries := third.closed.shows.mergeProps (mapError_eq_ok.mp merging)
  have fourth := Store.makes_of_add_dict third.closed added entries
  have whole := ((first.trans second).trans third).trans fourth
  -- The address is the path of the match, which was there before.
  exact yields_page whole ⟨whole.within _ (by simp), whole.within _ (by simp), whole.mono within,
    whole.within _ (by simp)⟩

theorem readPage_yields {data : Value} {config : Config Tree} (closed : store.Closed own)
    (made : readPage store data config = .ok (entity, next)) :
    Yields own source store entity next := by
  obtain ⟨response, read, made⟩ := bind_eq_ok.mp made
  rcases added : store.add (.dict response.props) with ⟨props, one⟩
  rcases stamped : one.load config.version with ⟨version, two⟩
  simp only [added, stamped] at made
  cases made
  obtain ⟨component, entries, url⟩ := closed.shows.readResponse (mapError_eq_ok.mp read)
  have first := Store.makes_of_add_dict closed added entries
  have second := Store.makes_of_load first.closed stamped
  have whole := first.trans second
  -- Component and address are parts of the response, the props a copy of theirs.
  exact yields_page whole ⟨whole.mono component, whole.within _ (by simp), whole.mono url,
    whole.within _ (by simp)⟩

theorem pageToDict_yields {page : Page Value} (closed : store.Closed own)
    (within : ∀ field ∈ page.fields, field.2.Within own store.objects.length)
    (made : pageToDict store page = .ok (entity, next)) :
    Yields own source store entity next := by
  obtain ⟨entries, read, made⟩ := bind_eq_ok.mp made
  rcases added : store.add (.dict entries) with ⟨props, one⟩
  rw [added] at made
  dsimp only at made
  rcases filled : one.add (.dict (({ page with props } : Page Value).fields.map fun field =>
    (Atom.text field.1, field.2))) with ⟨dict, two⟩
  rw [filled] at made
  cases made
  have copied := closed.shows.toEntries (mapError_eq_ok.mp read)
  have first := Store.makes_of_add_dict closed added copied
  have second : Store.Makes own one [dict] two := by
    refine Store.makes_of_add_dict first.closed filled (List.forall_mem_map.mpr ?_)
    -- All stands in the dictionary as it stood in the page, but for the copy of the props.
    obtain ⟨component, -, url, version⟩ := Page.forall_fields.mp within
    exact Page.forall_fields.mpr ⟨first.mono component, first.within _ (by simp), first.mono url,
      first.mono version⟩
  exact ⟨(first.trans second).subset (by simp [Entity.parts]), nofun⟩

theorem pageFor_yields {component : Tree} {props : Option Tree}
    {config : Option (List (String × Tree))} (closed : session.store.Closed own)
    (kept : session.Keeps own source register)
    (made : session.make (.pageFor register component props config) = .ok (entity, next)) :
    Yields own source session.store entity next := by
  obtain ⟨holding, found, made⟩ := bind_eq_ok.mp made
  obtain ⟨config, -, made⟩ := bind_eq_ok.mp made
  split at made
  · exact makePage_yields closed ((kept.entity found).parts _ List.mem_cons_self) made
  · cases made
  · cases made

theorem pageFrom_yields {config : Option (List (String × Tree))}
    (closed : session.store.Closed own)
    (made : session.make (.pageFrom register config) = .ok (entity, next)) :
    Yields own source session.store entity next := by
  obtain ⟨holding, found, made⟩ := bind_eq_ok.mp made
  obtain ⟨config, -, made⟩ := bind_eq_ok.mp made
  dsimp only at made
  split at made
  · exact readPage_yields closed made
  · obtain ⟨_, -, made⟩ := bind_eq_ok.mp made
    cases made
  · cases made

theorem fallback_yields {config : Option (List (String × Tree))}
    (closed : session.store.Closed own)
    (made : session.make (.fallback config) = .ok (entity, next)) :
    Yields own source session.store entity next := by
  obtain ⟨config, -, made⟩ := bind_eq_ok.mp made
  rcases added : session.store.add (.dict []) with ⟨props, one⟩
  rcases loaded : one.load config.defaultComponent with ⟨component, two⟩
  simp only [added, loaded] at made
  cases made
  have first := Store.makes_of_add_dict closed added (List.forall_mem_nil _)
  have second := Store.makes_of_load first.closed loaded
  have whole := first.trans second
  exact yields_page whole ⟨whole.within component (by simp), whole.within props (by simp), trivial,
    trivial⟩

/-! ### Records from fields -/

variable {given : List (String × Tree)}

theorem page_yields (closed : session.store.Closed own)
    (made : session.make (.page given) = .ok (entity, next)) :
    Yields own source session.store entity next := by
  rcases added : session.store.add (.dict []) with ⟨props, one⟩
  rcases loaded : one.loadFields given with ⟨fields, two⟩
  simp only [make, added, loaded] at made
  obtain ⟨page, complete, made⟩ := bind_eq_ok.mp made
  cases made
  have first := Store.makes_of_add_dict closed added (List.forall_mem_nil _)
  have second := Store.makes_of_loadFields first.closed loaded
  have whole := first.trans second
  have parts := second.closed.shows.ofPage (whole.within _ (by simp))
    (List.forall_mem_map.mp second.within) (mapError_eq_ok.mp complete)
  exact yields_page whole (Page.forall_fields.mp parts)

theorem config_yields (closed : session.store.Closed own)
    (made : session.make (.config given) = .ok (entity, next)) :
    Yields own source session.store entity next := by
  rcases loaded : session.store.loadFields given with ⟨fields, one⟩
  simp only [make, loaded] at made
  obtain ⟨config, complete, made⟩ := bind_eq_ok.mp made
  cases made
  have read := Store.makes_of_loadFields closed loaded
  have parts := read.closed.shows.ofConfig (List.forall_mem_map.mp read.within)
    (mapError_eq_ok.mp complete)
  exact ⟨read.others (List.forall_mem_map.mpr parts), nofun⟩

theorem segment_yields (closed : session.store.Closed own)
    (made : session.make (.segment given) = .ok (entity, next)) :
    Yields own source session.store entity next := by
  rcases loaded : session.store.loadFields given with ⟨fields, one⟩
  simp only [make, loaded] at made
  obtain ⟨complete, whole, made⟩ := bind_eq_ok.mp made
  cases made
  have read := Store.makes_of_loadFields closed loaded
  have parts := read.closed.shows.ofSegment (List.forall_mem_map.mp read.within)
    (mapError_eq_ok.mp whole)
  exact ⟨read.others (List.forall_mem_map.mpr parts), nofun⟩

/-! ### Parts -/

theorem field_yields {name : String} (closed : session.store.Closed own)
    (kept : session.Keeps own source register)
    (made : session.make (.field register name) = .ok (entity, next)) :
    Yields own source session.store entity next := by
  obtain ⟨holding, found, made⟩ := bind_eq_ok.mp made
  split at made
  case h_2 => cases made
  obtain ⟨part, looked, made⟩ := bind_eq_ok.mp made
  cases made
  have inner := (kept.entity found).field closed.shows (mapError_eq_ok.mp looked)
  exact ⟨.of_within closed inner.parts, inner.route⟩

theorem item_yields {key : Tree} (closed : session.store.Closed own)
    (made : session.make (.item register key) = .ok (entity, next)) :
    Yields own source session.store entity next := by
  obtain ⟨holding, found, made⟩ := bind_eq_ok.mp made
  split at made
  case h_2 => cases made
  rcases loaded : session.store.load key with ⟨key', one⟩
  simp only [loaded] at made
  obtain ⟨part, looked, made⟩ := bind_eq_ok.mp made
  cases made
  have read := Store.makes_of_load closed loaded
  obtain ⟨value, rfl, inner⟩ := Entity.value_of_item read.closed.shows (mapError_eq_ok.mp looked)
  exact ⟨read.others (List.forall_mem_singleton.mpr inner), nofun⟩

/-- What is made has the route of what it is made from, or is the route of a template. -/
theorem make_yields {making : Making} (closed : session.store.Closed own)
    (kept : ∀ register ∈ making.uses, session.Keeps own source register)
    (compiled : ∀ template route, making = .route (.text template) →
      Route.compile template = .ok route → source route)
    (made : session.make making = .ok (entity, next)) :
    Yields own source session.store entity next := by
  cases making with
  | route template =>
    refine route_yields closed (fun text route same => ?_) made
    exact compiled text route (congrArg Making.route same)
  | matching register path => exact matching_yields closed (kept register List.mem_cons_self) made
  | found register path params => exact found_yields closed (kept register List.mem_cons_self) made
  | params register path => exact params_yields closed made
  | pageFor register component props config =>
    exact pageFor_yields closed (kept register List.mem_cons_self) made
  | page given => exact page_yields closed made
  | pageFrom register config => exact pageFrom_yields closed made
  | fallback config => exact fallback_yields closed made
  | config given => exact config_yields closed made
  | segment given => exact segment_yields closed made
  | value value =>
    cases made
    exact ⟨Store.makes_load closed value, nofun⟩
  | toDict register =>
    obtain ⟨page, named, made⟩ := bind_eq_ok.mp made
    have shown := (kept register List.mem_cons_self).entity (findPage_eq_ok.mp named)
    exact pageToDict_yields closed (List.forall_mem_map.mp shown.parts) made
  | field register name => exact field_yields closed (kept register List.mem_cons_self) made
  | item register key => exact item_yields closed made

end Made

end Session

end Routebook
