import Routebook.Proofs.Independence

/-!
# Members

The digest of a route, or of a match of a text, needs nothing from the store, and equal ones have
the same. So a set or table finds them by equality alone, whatever is written in between. It keeps
what it has in place for as long as its register is not given something else; but of two equal
objects it keeps the earlier one, and the later one is found only while it is equal to that.
-/
namespace Routebook

theorem exists_of_isOk {ε α : Type} {x : Except ε α} (done : x.isOk) : ∃ a, x = .ok a := by
  cases x with
  | error => cases done
  | ok a => exact ⟨a, rfl⟩

/-- A route, or a match of a text. -/
inductive Entity.Steady : Entity Value → Prop
  | route (route : Route) : Steady (.route route)
  | found (route : Route) (path : String) (params : Value) :
    Steady (.found route (.atom (.text path)) params)

/-- A set or a table. -/
inductive Holding.Collects : Holding → Prop
  | set (members : List (Entity Value)) : Collects (.set members)
  | table (rows : List (Entity Value × Value)) : Collects (.table rows)

theorem Holding.Continues.collects {first second : Holding} (continues : first.Continues second)
    (collects : first.Collects) : second.Collects := by
  cases continues with
  | entity => exact collects
  | set => exact .set _
  | table => exact .table _

theorem Holding.kept_prefix (holding : Holding) : holding.kept <+: holding.entities := by
  cases holding with
  | entity => exact List.nil_prefix
  | set => exact List.prefix_refl _
  | table => exact List.prefix_append _ _

/-- A step adds what a register holds to a set, or uses it as a key of a table. -/
inductive Step.Stores (register item : String) : Step → Prop
  | member : Stores register item (.addMember register item)
  | row (value : Tree) : Stores register item (.putRow register item value)

/-- A text is seen only where there is one. -/
theorem Store.eq_text_of_snapshot {store : Store} {value : Value} {text : String}
    (seen : store.snapshot value = .text text) : value = .atom (.text text) := by
  cases value with
  | atom value =>
    rw [snapshot_atom] at seen
    cases seen
    rfl
  | ref place =>
    rw [snapshot] at seen
    cases size : store.objects.length with
    | zero =>
      rw [size] at seen
      cases seen
    | succ depth =>
      rw [size, toTree] at seen
      split at seen <;> cases seen

theorem Tree.eq_text_of_same {tree : Tree} {text : String} (same : (Tree.text text).same tree) :
    tree = .text text := by
  rw [Tree.text] at same ⊢
  cases tree with
  | atom value =>
    rw [Tree.same] at same
    cases value with
    | text other =>
      have equal : Atom.text text = .text other := beq_iff_eq.mp same
      rw [equal]
    | _ => cases same
  | list => cases same
  | dict => cases same

namespace Entity

variable {entity other : Entity Value} {store : Store}

theorem Steady.exists_digest (steady : entity.Steady) :
    ∃ digest, ∀ store : Store, Digest.ofEntity store.lens entity = .ok digest := by
  cases steady with
  | route => exact ⟨_, fun _ => rfl⟩
  | found => exact ⟨_, fun _ => rfl⟩

/-- What is equal to a steady entity in one store is steady, and has its digest in all stores. -/
theorem Steady.of_equal (steady : entity.Steady) (same : store.equal entity other) :
    other.Steady ∧
      ∀ store : Store, Digest.ofEntity store.lens entity = Digest.ofEntity store.lens other := by
  rw [Store.equal] at same
  cases steady with
  | route route =>
    cases other with
    | route another =>
      have templates : route.template = another.template := beq_iff_eq.mp same
      refine ⟨.route another, fun store => ?_⟩
      rw [Digest.ofEntity, Digest.ofEntity, Digest.ofRoute, templates]
      rfl
    | _ => cases same
  | found route path params =>
    cases other with
    | found another place more =>
      obtain ⟨both, -⟩ := Bool.and_eq_true_iff.mp same
      obtain ⟨templates, paths⟩ := Bool.and_eq_true_iff.mp both
      rw [Store.snapshot_atom] at paths
      -- The path of the other match is seen as the same text, so it is that text itself.
      have seen := Tree.eq_text_of_same paths
      obtain rfl := Store.eq_text_of_snapshot seen
      refine ⟨.found another path more, fun store => ?_⟩
      rw [Digest.ofEntity, Digest.ofEntity, Digest.ofRoute, beq_iff_eq.mp templates]
      rfl
    | _ => cases same

end Entity

namespace Store

variable {store : Store} {entity : Entity Value} {members : List (Entity Value)}

/-- What is equal to a route is so by its template, which no store changes. -/
theorem equal_route {route : Route} {other : Entity Value}
    (same : store.equal (.route route) other) (next : Store) :
    next.equal (.route route) other := by
  cases other with
  | route => exact same
  | _ => cases same

/-- The digests never stand in the way. -/
theorem agree_iff {member : Entity Value} (steady : entity.Steady) :
    store.agree entity member ↔ member = entity ∨ store.equal entity member := by
  rw [agree, Bool.or_eq_true_iff, Bool.and_eq_true_iff, decide_eq_true_iff, decide_eq_true_iff]
  constructor
  · rintro (rfl | ⟨-, same⟩)
    · exact Or.inl rfl
    · exact Or.inr same
  · rintro (rfl | same)
    · exact Or.inl rfl
    · refine Or.inr ⟨?_, same⟩
      rw [digest?, digest?, (steady.of_equal same).2 store]

theorem holds_iff (steady : entity.Steady) :
    store.holds members entity ↔
      ∃ member ∈ members, member = entity ∨ store.equal entity member := by
  rw [holds, List.any_eq_true]
  exact exists_congr fun member => and_congr_right fun _ => agree_iff steady

theorem isSome_row? (key : Entity Value) (rows : List (Entity Value × Value)) :
    (store.row? key rows).isSome = store.holds (rows.map Prod.fst) key := by
  induction rows with
  | nil => rfl
  | cons row rest ih =>
    obtain ⟨kept, old⟩ := row
    rw [row?, List.map_cons, holds, List.any_cons]
    by_cases agrees : store.agree key kept
    · rw [if_pos agrees, agrees]
      rfl
    · rw [if_neg agrees, Bool.eq_false_iff.mpr agrees, Bool.false_or, ih, holds]

/-- Of equal ones the earlier is kept. -/
theorem kept_of_addMember (steady : entity.Steady) (members : List (Entity Value)) :
    ∃ kept ∈ store.addMember entity members, kept = entity ∨
      kept ≠ entity ∧ kept ∈ members ∧ store.equal entity kept := by
  by_cases there : entity ∈ store.addMember entity members
  · exact ⟨entity, there, Or.inl rfl⟩
  · rw [addMember] at there ⊢
    split at there
    next held =>
      obtain ⟨kept, member, same⟩ := (holds_iff steady).mp held
      rw [if_pos held]
      have differ : kept ≠ entity := by
        rintro rfl
        exact there member
      exact ⟨kept, member, Or.inr ⟨differ, member, same.resolve_left differ⟩⟩
    · exact absurd (List.mem_append_right _ (List.mem_singleton.mpr rfl)) there

end Store

namespace Session

variable {session : Session} {register item holder : String} {entity : Entity Value}
  {holding : Holding}

/-! ### What is added -/

/-- What the set or table in a register keeps, if there is one. -/
def keptIn (session : Session) (register : String) : List (Entity Value) :=
  match session.find register with
  | .ok holding => holding.kept
  | .error _ => []

theorem keptIn_of_find (found : session.find register = .ok holding) :
    session.keptIn register = holding.kept := by
  rw [keptIn, found]

theorem keptIn_prepare (session : Session) (step : Step) (register : String) :
    (session.prepare step).keptIn register = session.keptIn register := by
  rcases prepare_cases session step with same | ⟨other, bare, empty, same⟩
  · rw [same]
  rw [same]
  cases found : session.find register with
  | ok holding => rw [keptIn_of_find found, keptIn_of_find (find_ensure found)]
  | error =>
    rw [ensure]
    split
    · rfl
    -- What is made for the register keeps nothing, and there was nothing in it.
    rw [keptIn, keptIn, find_hold, found]
    by_cases here : register = other
    · rw [if_pos here]
      exact List.prefix_nil.mp (empty ▸ bare.kept_prefix)
    · rw [if_neg here]

/-- What is added to a set or table is kept as a member is. -/
theorem kept_of_step {use : Step} {answer : Answer} (stores : use.Stores register item)
    (named : session.find item = .ok (.entity entity))
    (done : (session.step use).2 = .ok answer) :
    ∃ holding, (session.step use).1.find register = .ok holding ∧ holding.Collects ∧
      holding.kept = (session.step use).1.store.addMember entity (session.keptIn register) := by
  have own := find_prepare use named
  have acts := acts_of_step done
  rw [← keptIn_prepare session use register]
  generalize (session.step use).1 = next at acts ⊢
  cases stores with
  | member =>
    cases acts with
    | addMember named found =>
      cases own.symm.trans named
      rw [keptIn_of_find found]
      exact ⟨_, (find_hold ..).trans (if_pos rfl), .set _, rfl⟩
  | row value =>
    cases acts with
    | putRow named found loaded =>
      cases own.symm.trans named
      rw [keptIn_of_find found]
      exact ⟨_, (find_hold ..).trans (if_pos rfl), .table _, Store.map_fst_putRow ..⟩

/-! ### What is found -/

/-- What a register holds is looked up in a set or table, and found. -/
inductive Finds (session : Session) (register holder : String) : Prop
  | member {members : List (Entity Value)} (found : session.find register = .ok (.set members))
    (answered : (session.step (.ask (.hasMember register holder))).2 = .ok (.flag true))
  | row {entity : Entity Value} {rows : List (Entity Value × Value)} {value : Value}
    (held : session.find holder = .ok (.entity entity))
    (found : session.find register = .ok (.table rows))
    (there : session.store.row? entity rows = some value)
    (answered : (session.step (.ask (.findRow register holder))).2 =
      .ok (.entity (.value (session.store.snapshot value))))

theorem ensure_of_find {bare : Holding} (found : session.find register = .ok holding) :
    session.ensure register bare = session := by
  rw [ensure, if_pos]
  rw [find] at found
  split at found
  next same => rw [same]; rfl
  · cases found

theorem findHashable_of_steady (steady : entity.Steady)
    (held : session.find holder = .ok (.entity entity)) :
    ∃ digest, session.findHashable holder = .ok (entity, digest) := by
  obtain ⟨digest, hashes⟩ := steady.exists_digest
  have hashed : (Digest.ofEntity session.store.lens entity).mapError Fault.value = .ok digest :=
    mapError_eq_ok.mpr (hashes session.store)
  exact ⟨digest, bind_eq_ok.mpr ⟨_, held, bind_eq_ok.mpr ⟨digest, hashed, rfl⟩⟩⟩

theorem step_hasMember {members : List (Entity Value)} (steady : entity.Steady)
    (held : session.find holder = .ok (.entity entity))
    (found : session.find register = .ok (.set members)) :
    (session.step (.ask (.hasMember register holder))).2 =
      .ok (.flag (session.store.holds members entity)) := by
  obtain ⟨digest, hashed⟩ := findHashable_of_steady steady held
  have replied : session.reply (.hasMember register holder) =
      .ok (.flag (session.store.holds members entity)) :=
    (bind_of_ok hashed).trans (bind_of_ok (findSet_eq_ok.mpr found))
  have acted : session.act (.ask (.hasMember register holder)) = .ok (session, _) :=
    bind_of_ok replied
  have ready : session.prepare (.ask (.hasMember register holder)) = session :=
    ensure_of_find found
  rw [step_of_act ready, acted]

theorem step_findRow {rows : List (Entity Value × Value)} {value : Value} (steady : entity.Steady)
    (held : session.find holder = .ok (.entity entity))
    (found : session.find register = .ok (.table rows))
    (there : session.store.row? entity rows = some value) :
    (session.step (.ask (.findRow register holder))).2 =
      .ok (.entity (.value (session.store.snapshot value))) := by
  obtain ⟨digest, hashed⟩ := findHashable_of_steady steady held
  have replied : session.reply (.findRow register holder) =
      .ok (.entity (.value (session.store.snapshot value))) := by
    refine (bind_of_ok hashed).trans ((bind_of_ok (findTable_eq_ok.mpr found)).trans ?_)
    rw [there]
    rfl
  have acted : session.act (.ask (.findRow register holder)) = .ok (session, _) :=
    bind_of_ok replied
  have ready : session.prepare (.ask (.findRow register holder)) = session :=
    ensure_of_find found
  rw [step_of_act ready, acted]

/-- A lookup finds what is kept, and what is equal to something that is kept. -/
theorem finds_iff (steady : entity.Steady) (held : session.find holder = .ok (.entity entity))
    (found : session.find register = .ok holding) (collects : holding.Collects) :
    session.Finds register holder ↔
      ∃ member ∈ holding.kept, member = entity ∨ session.store.equal entity member := by
  rw [← Store.holds_iff steady]
  cases collects with
  | set members =>
    have answer := step_hasMember steady held found
    rw [Holding.kept]
    constructor
    · rintro (⟨-, answered⟩ | ⟨-, tabled, -, -⟩)
      · injection answer.symm.trans answered with flags
        injection flags
      · cases found.symm.trans tabled
    · intro holds
      rw [holds] at answer
      exact .member found answer
  | table rows =>
    rw [Holding.kept, ← Store.isSome_row?]
    constructor
    · rintro (⟨set, -⟩ | ⟨own, tabled, there, -⟩)
      · cases found.symm.trans set
      · cases held.symm.trans own
        cases found.symm.trans tabled
        rw [there]
        rfl
    · intro some
      obtain ⟨value, there⟩ := Option.isSome_iff_exists.mp some
      exact .row held found there (step_findRow steady held found there)

end Session

end Routebook
