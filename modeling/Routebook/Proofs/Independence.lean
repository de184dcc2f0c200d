import Routebook.Proofs.Histories
import Routebook.Proofs.Tiling

/-!
# Independence of history

Whatever was done in a session, a route in it is that of its template and answers for a path what
the route alone answers, as a session does that has just compiled the template. The parameters of an
answer are a new object, so neither do writes to earlier answers show in it nor later ones.
-/
namespace Routebook

namespace Holding

/-- What a set keeps, or a table as its keys. -/
def kept : Holding → List (Entity Value)
  | .entity _ => []
  | .set members => members
  | .table rows => rows.map Prod.fst

/-- An entity stays; a set or table goes on, with all that it keeps in its place. -/
inductive Continues : Holding → Holding → Prop
  | entity (entity : Entity Value) : Continues (.entity entity) (.entity entity)
  | set {members more : List (Entity Value)} (goesOn : members <+: more) :
    Continues (.set members) (.set more)
  | table {rows more : List (Entity Value × Value)}
    (goesOn : rows.map Prod.fst <+: more.map Prod.fst) : Continues (.table rows) (.table more)

theorem Continues.refl (holding : Holding) : holding.Continues holding := by
  cases holding with
  | entity entity => exact .entity entity
  | set => exact .set (List.prefix_refl _)
  | table => exact .table (List.prefix_refl _)

theorem Continues.trans {first second third : Holding} (before : first.Continues second)
    (after : second.Continues third) : first.Continues third := by
  cases before with
  | entity => exact after
  | set one =>
    cases after with
    | set other => exact .set (one.trans other)
  | table one =>
    cases after with
    | table other => exact .table (one.trans other)

theorem Continues.kept {first second : Holding} (continues : first.Continues second) :
    first.kept <+: second.kept := by
  cases continues with
  | entity => exact List.prefix_refl _
  | set goesOn | table goesOn => exact goesOn

end Holding

namespace Store

variable {store : Store}

theorem prefix_addMember (entity : Entity Value) (members : List (Entity Value)) :
    members <+: store.addMember entity members := by
  rw [addMember]
  split
  · exact List.prefix_refl _
  · exact List.prefix_append _ _

/-- The keys of a table are kept as the members of a set are. -/
theorem map_fst_putRow (key : Entity Value) (value : Value) (rows : List (Entity Value × Value)) :
    (store.putRow key value rows).map Prod.fst = store.addMember key (rows.map Prod.fst) := by
  induction rows with
  | nil => rfl
  | cons row rest ih =>
    obtain ⟨kept, old⟩ := row
    rw [putRow, List.map_cons, addMember, holds, List.any_cons]
    by_cases agrees : store.agree key kept
    · rw [if_pos agrees, agrees, Bool.true_or, if_pos rfl]
      rfl
    · rw [if_neg agrees, Bool.eq_false_iff.mpr agrees, Bool.false_or, List.map_cons, ih, addMember,
        holds]
      split <;> rfl

end Store

namespace Session

variable {session next : Session} {register : String} {own : Nat → Prop}
  {source : Route → Prop}

/-! ### Persistence -/

theorem find_ensure {other : String} {holding held : Holding}
    (found : session.find register = .ok held) :
    (session.ensure other holding).find register = .ok held := by
  rw [ensure]
  split
  next => exact found
  next missing =>
    rw [find_hold, if_neg]
    · exact found
    · rintro rfl
      rw [find] at found
      split at found
      next same => simp [same] at missing
      · cases found

theorem find_prepare {held : Holding} (step : Step) (found : session.find register = .ok held) :
    (session.prepare step).find register = .ok held := by
  rcases prepare_cases session step with same | ⟨other, holding, -, same⟩
  · rw [same]
    exact found
  · rw [same]
    exact find_ensure found

/-- What a register holds goes on, unless a step makes something else for it. -/
theorem continues_step {step : Step} {holding : Holding}
    (found : session.find register = .ok holding)
    (other : ∀ making, step ≠ .make register making) :
    ∃ next, (session.step step).1.find register = .ok next ∧ holding.Continues next := by
  have prepared := find_prepare step found
  have outcome := step_cases session step
  generalize (session.step step).1 = next at outcome ⊢
  rcases outcome with rfl | acts
  · exact ⟨holding, prepared, .refl holding⟩
  cases acts with
  | ask => exact ⟨holding, prepared, .refl holding⟩
  | @make target making =>
    refine ⟨holding, ?_, .refl holding⟩
    rw [find_hold, if_neg]
    · exact prepared
    · rintro rfl
      exact other making rfl
  | put => exact ⟨holding, prepared, .refl holding⟩
  | @addMember set _ entity members _ held =>
    rw [find_hold]
    split
    next here =>
      subst here
      cases prepared.symm.trans held
      exact ⟨_, rfl, .set (Store.prefix_addMember entity members)⟩
    · exact ⟨holding, prepared, .refl holding⟩
  | @putRow table _ _ entity rows _ _ _ held =>
    rw [find_hold]
    split
    next here =>
      subst here
      cases prepared.symm.trans held
      refine ⟨_, rfl, .table ?_⟩
      rw [Store.map_fst_putRow]
      exact Store.prefix_addMember entity _
    · exact ⟨holding, prepared, .refl holding⟩

theorem continues_run {steps : List Step} {holding : Holding}
    (found : session.find register = .ok holding)
    (other : ∀ step ∈ steps, ∀ making, step ≠ .make register making) :
    ∃ last, (session.run steps).1.find register = .ok last ∧ holding.Continues last := by
  induction steps generalizing session holding with
  | nil => exact ⟨holding, found, .refl holding⟩
  | cons step steps ih =>
    obtain ⟨here, later⟩ := List.forall_mem_cons.mp other
    obtain ⟨next, held, first⟩ := continues_step found here
    obtain ⟨last, ended, rest⟩ := ih held later
    exact ⟨last, ended, first.trans rest⟩

/-- An entity stays in its register until something is made for it. -/
theorem find_run {steps : List Step} {entity : Entity Value}
    (found : session.find register = .ok (.entity entity))
    (other : ∀ step ∈ steps, ∀ making, step ≠ .make register making) :
    (session.run steps).1.find register = .ok (.entity entity) := by
  obtain ⟨last, ended, continues⟩ := continues_run found other
  cases continues
  exact ended

/-! ### Answers -/

/-- The session with a route in a register, where it may have been before. -/
structure Names (session : Session) (owner : String) (route : Route) (named : Session) : Prop where
  store : named.store = session.store
  own : named.find owner = .ok (.entity (.route route))
  others : ∀ register, register ≠ owner → named.find register = session.find register

/-- A match as it is shown, or nothing. -/
def shownMatch : Option Match → Entity Tree
  | none => .value .null
  | some found => .found found.route (.text found.path) (.ofTexts found.params)

/-- Parameters as they are shown, or nothing. -/
def shownParams (params : Option (List (String × String))) : Entity Tree :=
  .value ((params.map Tree.ofTexts).getD .null)

/-- A path is put to the route in a register, for a match or for its parameters, and this is what
is shown of the answer. -/
inductive Asks (owner : String) (route : Route) (path : String) : Making → Entity Tree → Prop
  | matching :
    Asks owner route path (.matching owner (.text path)) (shownMatch (route.match? path))
  | params : Asks owner route path (.params owner (.text path)) (shownParams (route.params? path))

/-- What is made shows the same in all stores that have the one object that was added for it. -/
def Fresh (store : Store) (entity : Entity Value) (next : Store) (shown : Entity Tree) : Prop :=
  (next = store ∧ ∀ other : Store, other.view entity = shown) ∨
    ∃ params, next = (store.add (.ofTexts params)).2 ∧
      ∀ other : Store, other.read? store.objects.length = some (.ofTexts params) →
        other.view entity = shown

variable {owner : String} {route : Route} {path : String} {making : Making} {shown : Entity Tree}

theorem own_of_match? {found : Match} (answer : route.match? path = some found) :
    found.route = route ∧ found.path = path := by
  obtain ⟨captured, -, rfl⟩ := Option.map_eq_some_iff.mp answer
  exact ⟨rfl, rfl⟩

theorem view_null (store : Store) : store.view (.value (.atom .null)) = .value .null := by
  rw [Store.view, Entity.map, Store.snapshot_atom]
  rfl

theorem make_of_asks (asks : Asks owner route path making shown)
    (found : session.find owner = .ok (.entity (.route route))) :
    ∃ entity next, session.make making = .ok (entity, next) ∧
      Fresh session.store entity next shown := by
  have matched := matchPath_text session.store route path
  have named (field : String) : session.findRoute owner field = .ok route :=
    findRoute_eq_ok.mpr found
  cases asks with
  | matching =>
    cases answer : route.match? path with
    | none =>
      rw [Route.params?, answer] at matched
      exact ⟨_, _, bind_eq_ok.mpr ⟨route, named "match", bind_eq_ok.mpr ⟨_, matched, rfl⟩⟩,
        Or.inl ⟨rfl, view_null⟩⟩
    | some best =>
      rw [Route.params?, answer] at matched
      obtain ⟨same, own⟩ := own_of_match? answer
      refine ⟨_, _, bind_eq_ok.mpr ⟨route, named "match", bind_eq_ok.mpr ⟨_, matched, rfl⟩⟩,
        Or.inr ⟨best.params, rfl, fun other kept => ?_⟩⟩
      rw [Store.view, Entity.map, Store.snapshot_of_read? kept, Store.snapshot_atom, shownMatch,
        same, own]
      rfl
  | params =>
    cases answer : route.match? path with
    | none =>
      rw [Route.params?, answer] at matched ⊢
      exact ⟨_, _, bind_eq_ok.mpr ⟨_, found, bind_eq_ok.mpr ⟨route, named "params",
        bind_eq_ok.mpr ⟨_, matched, rfl⟩⟩⟩, Or.inl ⟨rfl, view_null⟩⟩
    | some best =>
      rw [Route.params?, answer] at matched ⊢
      refine ⟨_, _, bind_eq_ok.mpr ⟨_, found, bind_eq_ok.mpr ⟨route, named "params",
        bind_eq_ok.mpr ⟨_, matched, rfl⟩⟩⟩, Or.inr ⟨best.params, rfl, fun other kept => ?_⟩⟩
      rw [Store.view, Entity.map, Store.snapshot_of_read? kept]
      rfl

/-- A register is set aside with the objects that are added for it: nothing else refers to them. -/
theorem Sealed.setAside {store : Store} (whole : session.Sealed (fun _ => False) own source)
    (grows : session.store.objects.length ≤ store.objects.length)
    (added : ∀ object ∈ store.objects,
      object ∈ session.store.objects ∨ ∃ params, object = .ofTexts params)
    (register : String) (holding : Holding) :
    ({ session with store }.hold register holding).Sealed (· = register)
      (fun place => place < session.store.objects.length ∨ store.objects.length ≤ place)
      (fun _ => True) := by
  -- Old objects refer to old places, and a dictionary of texts refers to none.
  have old {value : Value} (within : value.Within own session.store.objects.length) :
      value.Within (fun place => place < session.store.objects.length ∨
        store.objects.length ≤ place) store.objects.length :=
    within.imp (fun _ below _ => Or.inl below) grows
  refine ⟨⟨fun _ above => Or.inr above, fun object member part inside => ?_⟩, ?_⟩
  · rcases added object member with before | ⟨params, rfl⟩
    · exact old (whole.closed.parts object before part inside)
    · exact Object.within_ofTexts part inside
  · intro other different held found entity member
    rw [find_hold, if_neg different] at found
    have kept := whole.kept other id held found entity member
    exact ⟨fun _ _ => trivial, fun part inside => old (kept.parts part inside)⟩

/-- What is made shows the same after steps that do not use its register, whatever they change. -/
theorem run_of_fresh {entity : Entity Value} {store : Store} {steps : List Step}
    (whole : session.Sealed (fun _ => False) own source)
    (fresh : Fresh session.store entity store shown)
    (apart : ∀ step ∈ steps, register ∉ step.uses) :
    let last := (({ session with store }.hold register (.entity entity)).run steps).1
    last.find register = .ok (.entity entity) ∧ last.store.view entity = shown := by
  intro last
  have held : ({ session with store }.hold register (.entity entity)).find register =
      .ok (.entity entity) := by
    rw [find_hold, if_pos rfl]
  have outside : ∀ step ∈ steps, ∀ used ∈ step.uses, ¬used = register := by
    rintro step member used member' rfl
    exact apart step member member'
  -- With the register the objects that were added for it are set aside, if there are any.
  rcases fresh with ⟨rfl, always⟩ | ⟨params, rfl, shows⟩
  · have start := whole.setAside (Nat.le_refl _) (fun _ => Or.inl) register (.entity entity)
    have rest := run_advances start outside fun _ _ _ _ _ => trivial
    exact ⟨rest.registers register _ rfl held, always _⟩
  · have size : (session.store.add (.ofTexts params)).2.objects.length =
        session.store.objects.length + 1 := by simp [Store.add]
    have added : ∀ object ∈ (session.store.add (.ofTexts params)).2.objects,
        object ∈ session.store.objects ∨ ∃ params, object = .ofTexts params := by
      intro object member
      rcases List.mem_append.mp member with before | new
      · exact Or.inl before
      · exact Or.inr ⟨params, List.mem_singleton.mp new⟩
    have start := whole.setAside (by omega) added register (.entity entity)
    have rest := run_advances start outside fun _ _ _ _ _ => trivial
    refine ⟨rest.registers register _ rfl held, shows _ ?_⟩
    have kept := rest.objects session.store.objects.length (by
      change _ < (session.store.add (.ofTexts params)).2.objects.length
      omega) (by omega)
    rw [kept]
    exact List.getElem?_concat_length

theorem step_of_act {step : Step} (same : session.prepare step = session) :
    session.step step = match session.act step with
      | .ok (next, answer) => (next, .ok answer)
      | .error fault => (session, .error fault) := by
  have prepared : session.step step = match (session.prepare step).act step with
      | .ok (next, answer) => (next, .ok answer)
      | .error fault => (session.prepare step, .error fault) := rfl
  rw [prepared, same]

theorem step_make {entity : Entity Value} {store : Store}
    (made : session.make making = .ok (entity, store)) (register : String) :
    session.step (.make register making) =
      ({ session with store }.hold register (.entity entity),
        .ok (.entity (store.view entity))) := by
  have acted : session.act (.make register making) =
      .ok ({ session with store }.hold register (.entity entity), .entity (store.view entity)) :=
    bind_of_ok made
  rw [step_of_act rfl, acted]

theorem step_view {entity : Entity Value} (held : session.find register = .ok (.entity entity)) :
    (session.step (.ask (.view register))).2 = .ok (.entity (session.store.view entity)) := by
  have replied : session.reply (.view register) = .ok (.entity (session.store.view entity)) :=
    bind_of_ok held
  have acted : session.act (.ask (.view register)) =
      .ok (session, .entity (session.store.view entity)) :=
    bind_of_ok replied
  rw [step_of_act rfl, acted]

theorem Fresh.view_eq {entity : Entity Value} {store next : Store}
    (fresh : Fresh store entity next shown) : next.view entity = shown := by
  rcases fresh with ⟨rfl, always⟩ | ⟨params, rfl, shows⟩
  · exact always next
  · exact shows _ List.getElem?_concat_length

/-- What is asked of a route is answered by the route alone. -/
theorem step_of_asks (asks : Asks owner route path making shown)
    (found : session.find owner = .ok (.entity (.route route))) (register : String) :
    (session.step (.make register making)).2 = .ok (.entity shown) := by
  obtain ⟨entity, store, made, fresh⟩ := make_of_asks asks found
  rw [step_make made, fresh.view_eq]

/-- An answer stays what it is, whatever is done elsewhere. -/
theorem view_of_asks {steps : List Step} (whole : session.Sealed (fun _ => False) own source)
    (asks : Asks owner route path making shown)
    (found : session.find owner = .ok (.entity (.route route)))
    (apart : ∀ step ∈ steps, register ∉ step.uses) :
    (((session.step (.make register making)).1.run steps).1.step (.ask (.view register))).2 =
      .ok (.entity shown) := by
  obtain ⟨entity, store, made, fresh⟩ := make_of_asks asks found
  obtain ⟨held, same⟩ := run_of_fresh whole fresh apart
  rw [step_make made, step_view held, same]

/-- What is no text is refused by every route alike. -/
theorem step_of_not_text {cause : ValueFault} {input : Tree}
    (refused : Tree.lens.asText input = .error cause)
    (asks : making = .matching owner input ∨ making = .params owner input)
    (found : session.find owner = .ok (.entity (.route route))) (register : String) :
    (session.step (.make register making)).2 = .error (.value cause) := by
  have named (field : String) : session.findRoute owner field = .ok route :=
    findRoute_eq_ok.mpr found
  have unmatched : matchPath session.store route input = .error (.value cause) := by
    rw [matchPath, refused]
    rfl
  have failed : session.make making = .error (.value cause) := by
    rcases asks with rfl | rfl
    · exact (bind_of_ok (named "match")).trans (bind_of_error unmatched)
    · exact (bind_of_ok found).trans
        ((bind_of_ok (named "params")).trans (bind_of_error unmatched))
  have acted : session.act (.make register making) = .error (.value cause) :=
    bind_of_error failed
  rw [step_of_act rfl, acted]

/-- A step that compiles a template puts its route in a register. -/
theorem find_of_compile {template : String} (compiled : Route.compile template = .ok route)
    (session : Session) (register : String) :
    (session.step (.make register (.route (.text template)))).1.find register =
      .ok (.entity (.route route)) := by
  have read : Tree.lens.asText (.text template) = .ok template := rfl
  have made : session.make (.route (.text template)) = .ok (.route route, session.store) :=
    (bind_of_ok (mapError_eq_ok.mpr read)).trans (bind_of_ok (mapError_eq_ok.mpr compiled))
  rw [step_make made, find_hold, if_pos rfl]

theorem run_append (session : Session) (first second : List Step) :
    (session.run (first ++ second)).1 = ((session.run first).1.run second).1 := by
  induction first generalizing session with
  | nil => rfl
  | cons step rest ih => exact ih (session.step step).1

theorem Names.seals {named : Session} (names : Names session owner route named)
    (whole : session.Sealed (fun _ => False) own source) (sourced : source route) :
    named.Sealed (fun _ => False) own source := by
  refine ⟨names.store ▸ whole.closed, fun register outside holding found => ?_⟩
  rw [names.store]
  by_cases here : register = owner
  · subst here
    cases names.own.symm.trans found
    refine List.forall_mem_singleton.mpr ⟨?_, List.forall_mem_nil _⟩
    rintro _ ⟨⟩
    exact sourced
  · rw [names.others register here] at found
    exact whole.kept register outside holding found

/-- Matching is independent of history. A route that can be got at in a session, after whatever
steps, is that of a template which one of them compiled, with its template, pattern and keys. Under
whatever name, it answers as in a session that has done nothing but compile the template; the
answers are those of the route, and no step that leaves their register alone ever changes them. A
register keeps the route that was made for it until something else is. -/
theorem matching_independent_of_history (steps : List Step) :
    let session := (empty.run steps).1
    (∀ route, session.Reaches (.route route) → ∃ template,
      (∃ maker, Step.make maker (.route (.text template)) ∈ steps) ∧
      Route.compile template = .ok route ∧ route.template = template ∧
      Template.compile template = .ok (route.items, route.keys) ∧
      route.pattern = String.ofList route.items.text ∧
      ∀ owner named, Names session owner route named → ∀ register,
        (∀ input making, making = .matching owner input ∨ making = .params owner input →
          (named.step (.make register making)).2 =
            ((empty.run [.make owner (.route (.text template))]).1.step
              (.make register making)).2) ∧
        ∀ path making shown, Asks owner route path making shown →
          (named.step (.make register making)).2 = .ok (.entity shown) ∧
          ∀ more : List Step, (∀ step ∈ more, register ∉ step.uses) →
            (((named.step (.make register making)).1.run more).1.step (.ask (.view register))).2 =
              .ok (.entity shown)) ∧
    ∀ before maker template after,
      steps = before ++ .make maker (.route (.text template)) :: after →
      (∀ step ∈ after, ∀ making, step ≠ .make maker making) →
      ∀ route, Route.compile template = .ok route →
        session.find maker = .ok (.entity (.route route)) := by
  intro session
  have whole : session.Sealed (fun _ => False) (fun _ => True) (CompiledIn steps) :=
    sealed_run steps
  constructor
  · intro route reached
    obtain ⟨maker, template, member, compiled⟩ := (whole.keeps reached).route route rfl
    obtain ⟨parts, own, pattern⟩ := Route.parts_of_compile compiled
    refine ⟨template, ⟨maker, member⟩, compiled, own, parts, pattern, ?_⟩
    intro owner named names register
    have fresh := find_of_compile compiled empty owner
    -- Texts are answered by the route, in whatever session; all else is refused before it is asked.
    refine ⟨fun input making asks => ?_, fun path making shown asks => ⟨?_, fun more apart => ?_⟩⟩
    · cases read : Tree.lens.asText input with
      | error cause =>
        rw [step_of_not_text read asks names.own, step_of_not_text read asks]
        exact fresh
      | ok path =>
        cases Tree.asText_eq_ok.mp read
        rcases asks with rfl | rfl
        · exact (step_of_asks .matching names.own register).trans
            (step_of_asks .matching fresh register).symm
        · exact (step_of_asks .params names.own register).trans
            (step_of_asks .params fresh register).symm
    · exact step_of_asks asks names.own register
    · have secure := names.seals whole ⟨maker, template, member, compiled⟩
      exact view_of_asks secure asks names.own apart
  · rintro before maker template after rfl kept route compiled
    have made := find_of_compile compiled (empty.run before).1 maker
    change (empty.run _).1.find maker = _
    rw [run_append]
    have later := find_run made kept
    exact later

/-- A value is written into the parameters of a match and shows there; the next has its own. -/
theorem matching_independent_of_history_written :
    let steps : List Step := [.make "route" (.route (.text "/v/:id")),
      .make "first" (.matching "route" (.text "/v/7")), .make "params" (.field "first" "params"),
      .put "params" (.text "id") (.text "9"), .ask (.assign "route" "keys")]
    let session := (empty.run steps).1
    let route : Route := ⟨"/v/:id", "^/v/([^/]+)/?$", ["id"],
      [.start, .char '/', .char 'v', .char '/', .capture, .optional '/', .finish]⟩
    session.Reaches (.route route) ∧
      (session.step (.ask (.view "first"))).2 =
        .ok (.entity (.found route (.text "/v/7") (.ofTexts [("id", "9")]))) ∧
      (session.step (.make "second" (.matching "route" (.text "/v/7")))).2 =
        .ok (.entity (.found route (.text "/v/7") (.ofTexts [("id", "7")]))) := by
  intro steps session route
  have compiled : Route.compile "/v/:id" = .ok route := rfl
  obtain ⟨answers, kept⟩ := matching_independent_of_history steps
  have named : session.find "route" = .ok (.entity (.route route)) :=
    kept [] "route" "/v/:id" _ rfl (by simp) route compiled
  have reached : session.Reaches (.route route) := .held named (List.mem_singleton.mpr rfl)
  obtain ⟨_, -, -, -, -, -, asked⟩ := answers route reached
  obtain ⟨-, again⟩ := asked "route" session ⟨rfl, named, fun _ _ => rfl⟩ "second"
  obtain ⟨second, -⟩ := again "/v/7" _ _ .matching
  have matched : route.match? "/v/7" = some ⟨route, "/v/7", [("id", "7")]⟩ := by decide
  rw [matched] at second
  refine ⟨reached, ?_, second⟩
  have first : session.find "first" =
      .ok (.entity (.found route (.atom (.text "/v/7")) (.ref 0))) := by
    have looked : session.registers.lookup "first" =
        some (.entity (.found route (.atom (.text "/v/7")) (.ref 0))) := by decide +kernel
    rw [find, looked]
  have written : session.store.read? 0 = some (.ofTexts [("id", "9")]) := by decide +kernel
  rw [step_view first, Store.view, Entity.map, Store.snapshot_of_read? written, Store.snapshot_atom]
  rfl

end Session

end Routebook
