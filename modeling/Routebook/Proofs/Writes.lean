import Routebook.Proofs.Histories

/-!
# Writes

After a step an object is what it was before, or new, or the one object that the step puts something
into; and what is put into it is new. So an object stays as it is for as long as no step writes to
it, a dictionary stays a dictionary, and no object ever comes to be a part of itself.
-/
namespace Routebook

/-- A value does not refer to an object below a bound. -/
def Value.Beyond (bound : Nat) : Value → Prop
  | .atom _ => True
  | .ref place => bound ≤ place

namespace Store

variable {own : Nat → Prop} {store next : Store}

/-- What is loaded refers to a new object, if to any. -/
theorem beyond_load {tree : Tree} {value : Value} (closed : store.Closed own)
    (loaded : store.load tree = (value, next)) : value.Beyond store.objects.length := by
  cases tree with
  | atom =>
    cases loaded
    trivial
  | list items =>
    cases loaded
    exact (makes_loadItems closed items).grows.length_le
  | dict entries =>
    cases loaded
    exact (makes_loadEntries closed entries).grows.length_le

end Store

namespace Session

variable {session next : Session} {place : Nat} {object : Object}

/-! ### Sessions without loose ends -/

/-- All that registers hold and objects refer to is there. -/
def Whole (session : Session) : Prop :=
  session.Sealed (fun _ => False) (fun _ => True) fun _ => True

theorem whole_empty : empty.Whole :=
  ⟨Store.closed_empty _ fun _ => trivial, fun _ _ _ => nofun⟩

theorem Whole.advances_step (whole : session.Whole) (step : Step) :
    Advances (fun _ => False) (fun _ => True) (fun _ => True) session (session.step step).1 :=
  step_advances whole (fun _ _ => id) fun _ _ _ _ _ => trivial

theorem Whole.step (whole : session.Whole) (step : Step) : (session.step step).1.Whole :=
  (whole.advances_step step).sealed

theorem Whole.run (whole : session.Whole) (steps : List Step) : (session.run steps).1.Whole :=
  (run_advances whole (fun _ _ _ _ => id) fun _ _ _ _ _ => trivial).sealed

theorem Whole.makes {making : Making} {entity : Entity Value} {store : Store}
    (whole : session.Whole) (made : session.make making = .ok (entity, store)) :
    session.store.Makes (fun _ => True) entity.parts store := by
  have yields : Yields (fun _ => True) (fun _ => True) session.store entity store :=
    make_yields whole.closed (fun register _ => whole.kept register id)
      (fun _ _ _ _ => trivial) made
  exact yields.makes

/-! ### What a step does to objects -/

/-- A step puts something into the object at a place. -/
def Writes (session : Session) (place : Nat) : Step → Prop
  | .put owner _ _ => session.find owner = .ok (.entity (.value (.ref place)))
  | _ => False

/-- Where an object comes from that is there after a step. -/
inductive Comes (session : Session) (step : Step) (place : Nat) (object : Object) : Prop
  | stays (found : session.store.read? place = some object)
  | added (above : session.store.objects.length ≤ place)
    (earlier : ∀ part ∈ object.shape.parts, part.Within (fun _ => True) place)
  | written {old : Object} {value : Value} (writes : session.Writes place step)
    (found : session.store.read? place = some old) (takes : old.Takes value object)
    (new : value.Beyond session.store.objects.length)

theorem comes_of_makes {step : Step} {values : List Value} {store : Store}
    (made : session.store.Makes (fun _ => True) values store)
    (found : store.read? place = some object) : session.Comes step place object := by
  by_cases inside : place < session.store.objects.length
  · rw [made.read?_eq inside] at found
    exact .stays found
  · exact .added (by omega) (made.earlier place object (by omega) found)

theorem store_prepare (session : Session) (step : Step) :
    (session.prepare step).store = session.store := by
  rcases prepare_cases session step with same | ⟨register, holding, -, same⟩
  · rw [same]
  · rw [same, ensure]
    split <;> rfl

/-- The cases of an object after a step, whether the step fails or not. -/
theorem comes_of_step {step : Step} (whole : session.Whole)
    (found : (session.step step).1.store.read? place = some object) :
    session.Comes step place object := by
  have prepared := store_prepare session step
  have outcome := step_cases session step
  generalize (session.step step).1 = next at outcome found
  rcases outcome with rfl | acts
  · rw [prepared] at found
    exact .stays found
  cases acts with
  | ask =>
    rw [prepared] at found
    exact .stays found
  | make made => exact comes_of_makes (whole.makes made) found
  | @put owner _ _ written old changed _ given _ store named loadedKey loads before takes =>
    have first := Store.makes_of_load whole.closed loadedKey
    have second := Store.makes_of_load first.closed loads
    have loaded := first.trans second
    have within := ((whole.kept owner id).entity named).parts _ List.mem_cons_self
    rw [loaded.read?_eq within.1] at before
    -- The object is replaced by what it is with the value in it, and no other object is.
    have replaced : (store.write written changed).read? place = some object := found
    rw [Store.read?, Store.write, List.getElem?_set] at replaced
    split at replaced
    next same =>
      subst same
      split at replaced
      · cases replaced
        have new : given.Beyond session.store.objects.length := by
          have beyond := Store.beyond_load first.closed loads
          cases given with
          | atom => trivial
          | ref => exact Nat.le_trans first.grows.length_le beyond
        exact .written named before takes new
      · cases replaced
    · exact comes_of_makes loaded replaced
  | addMember =>
    have same : (session.prepare _).store.read? place = some object := found
    rw [prepared] at same
    exact .stays same
  | putRow _ _ loaded =>
    rw [prepared] at loaded
    exact comes_of_makes (Store.makes_of_load whole.closed loaded) found

/-- An object that is there is there after the step. -/
theorem Whole.lt_length_step (whole : session.Whole) (step : Step)
    (inside : place < session.store.objects.length) :
    place < (session.step step).1.store.objects.length :=
  Nat.lt_of_lt_of_le inside (whole.advances_step step).grows

theorem Whole.comes (whole : session.Whole) (step : Step)
    (inside : place < session.store.objects.length) :
    ∃ object, (session.step step).1.store.read? place = some object ∧
      session.Comes step place object := by
  have found := List.getElem?_eq_getElem (whole.lt_length_step step inside)
  exact ⟨_, found, comes_of_step whole found⟩

/-! ### Objects over a history -/

/-- No step of a history puts anything into the object at a place. -/
def Spares (place : Nat) : Session → List Step → Prop
  | _, [] => True
  | session, step :: steps => ¬session.Writes place step ∧ (session.step step).1.Spares place steps

/-- What is put into one object is written to no other. -/
theorem not_writes_of_find {owner : String} {key value : Tree} {other : Nat}
    (found : session.find owner = .ok (.entity (.value (.ref other)))) (differ : other ≠ place) :
    ¬session.Writes place (.put owner key value) := by
  intro writes
  cases Eq.trans (Eq.symm found) writes
  exact differ rfl

/-- An object is left as it is by what is not written to it. -/
theorem Whole.read?_step {step : Step} (whole : session.Whole)
    (inside : place < session.store.objects.length) (spared : ¬session.Writes place step) :
    (session.step step).1.store.read? place = session.store.read? place := by
  obtain ⟨object, found, comes⟩ := whole.comes step inside
  rw [found]
  cases comes with
  | stays before => exact before.symm
  | added above => omega
  | written writes => exact absurd writes spared

theorem Whole.read?_run {steps : List Step} (whole : session.Whole)
    (inside : place < session.store.objects.length) (spared : session.Spares place steps) :
    (session.run steps).1.store.read? place = session.store.read? place := by
  induction steps generalizing session with
  | nil => rfl
  | cons step steps ih =>
    obtain ⟨here, later⟩ := spared
    have rest := ih (whole.step step) (whole.lt_length_step step inside) later
    exact rest.trans (whole.read?_step inside here)

theorem Whole.exists_dict_step {entries : Entries Value} (whole : session.Whole) (step : Step)
    (found : session.store.read? place = some (.dict entries)) :
    ∃ entries, (session.step step).1.store.read? place = some (.dict entries) := by
  have inside : place < session.store.objects.length := (List.getElem?_eq_some_iff.mp found).1
  obtain ⟨object, after, comes⟩ := whole.comes step inside
  rw [after]
  cases comes with
  | stays before =>
    rw [found] at before
    cases before
    exact ⟨entries, rfl⟩
  | added above => omega
  | written _ before takes =>
    rw [found] at before
    cases before
    cases takes with
    | dict _ key => exact ⟨_, rfl⟩

/-- A dictionary stays a dictionary. -/
theorem Whole.exists_dict_run {entries : Entries Value} (whole : session.Whole) (steps : List Step)
    (found : session.store.read? place = some (.dict entries)) :
    ∃ entries, (session.run steps).1.store.read? place = some (.dict entries) := by
  induction steps generalizing session entries with
  | nil => exact ⟨entries, found⟩
  | cons step steps ih =>
    obtain ⟨more, after⟩ := whole.exists_dict_step step found
    exact ih (whole.step step) after

/-- No object is a part of itself. -/
def Loopless (session : Session) : Prop :=
  ∀ place object, session.store.read? place = some object → Value.ref place ∉ object.shape.parts

theorem Loopless.step (loopless : session.Loopless) (whole : session.Whole) (step : Step) :
    (session.step step).1.Loopless := by
  intro place object found member
  cases comes_of_step whole found with
  | stays before => exact loopless place object before member
  | added above earlier => exact Nat.lt_irrefl place (earlier _ member).1
  | written _ before takes new =>
    rcases takes.parts member with old | rfl
    · exact loopless place _ before old
    · -- What is put in is new, and the object was there before.
      have inside : place < session.store.objects.length :=
        (List.getElem?_eq_some_iff.mp before).1
      exact Nat.not_le_of_lt inside new

theorem Loopless.run (loopless : session.Loopless) (whole : session.Whole) (steps : List Step) :
    (session.run steps).1.Loopless := by
  induction steps generalizing session with
  | nil => exact loopless
  | cons step steps ih => exact ih (loopless.step whole step) (whole.step step)

theorem loopless_run (steps : List Step) : (empty.run steps).1.Loopless := by
  have start : empty.Loopless := fun _ _ => nofun
  exact start.run whole_empty steps

end Session

end Routebook
