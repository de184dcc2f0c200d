import Mathlib.Data.List.Forall2
import Routebook.Proofs.Rows
import Routebook.Proofs.Tiling
import Routebook.Table.Check

/-!
# Declarations

A declaration offends if its template names a parameter twice or is the template of an earlier
declaration. Checking a table gives one problem for each offending declaration and one route for
each other one, in the order of the table; a problem names the line of its own declaration, and of
the first with the template if there is an earlier one. Which templates get a route depends on the
templates alone and not on their order, and so does the number of problems.
-/
namespace Routebook.Table

open Template (NamesDiffer)

variable {α : Type}

/-- Each entry with all entries before it. -/
def withEarlier (earlier : List (Entry α)) : List (Entry α) → List (List (Entry α) × Entry α)
  | [] => []
  | entry :: rest => (earlier, entry) :: withEarlier (earlier ++ [entry]) rest

/-- An entry repeats a parameter, or an earlier one has its template. -/
def Offends (placed : List (Entry α) × Entry α) : Prop :=
  ¬NamesDiffer placed.2.template ∨ ∃ other ∈ placed.1, other.template = placed.2.template

instance (placed : List (Entry α) × Entry α) : Decidable (Offends placed) :=
  inferInstanceAs (Decidable (_ ∨ _))

/-- The entries that offend, in their order. -/
def offendersFrom (earlier entries : List (Entry α)) : List (Entry α) :=
  ((withEarlier earlier entries).filter fun placed => decide (Offends placed)).map Prod.snd

/-- The entries that do not offend, in their order. -/
def acceptedFrom (earlier entries : List (Entry α)) : List (Entry α) :=
  ((withEarlier earlier entries).filter fun placed => !decide (Offends placed)).map Prod.snd

def offenders (entries : List (Entry α)) : List (Entry α) := offendersFrom [] entries

def accepted (entries : List (Entry α)) : List (Entry α) := acceptedFrom [] entries

/-- No declaration repeats a parameter, and no two have the same template. -/
structure Sound (entries : List (Entry α)) : Prop where
  differ : ∀ entry ∈ entries, NamesDiffer entry.template
  distinct : (entries.map (·.template)).Nodup

theorem mem_withEarlier_iff {entries before : List (Entry α)} {entry : Entry α} :
    (before, entry) ∈ withEarlier [] entries ↔ ∃ after, entries = before ++ entry :: after := by
  have general (earlier : List (Entry α)) : (before, entry) ∈ withEarlier earlier entries ↔
      ∃ between after, before = earlier ++ between ∧ entries = between ++ entry :: after := by
    induction entries generalizing earlier with
    | nil => simp [withEarlier]
    | cons first rest ih =>
      rw [withEarlier, List.mem_cons, ih]
      constructor
      · rintro (same | ⟨between, after, rfl, rfl⟩)
        · cases same
          exact ⟨[], rest, by simp, rfl⟩
        · exact ⟨first :: between, after, by simp, rfl⟩
      · rintro ⟨between, after, rfl, split⟩
        cases between with
        | nil =>
          cases split
          exact Or.inl (by simp)
        | cons second between =>
          cases split
          exact Or.inr ⟨between, after, by simp, rfl⟩
  simp [general []]

/-- The offending entries are those that offend where they stand. -/
theorem mem_offenders_iff {entries : List (Entry α)} {entry : Entry α} :
    entry ∈ offenders entries ↔
      ∃ before after, entries = before ++ entry :: after ∧ Offends (before, entry) := by
  simp only [offenders, offendersFrom, List.mem_map, List.mem_filter, decide_eq_true_eq]
  constructor
  · rintro ⟨⟨before, entry⟩, ⟨member, offends⟩, rfl⟩
    obtain ⟨after, split⟩ := mem_withEarlier_iff.mp member
    exact ⟨before, after, split, offends⟩
  · rintro ⟨before, after, split, offends⟩
    exact ⟨(before, entry), ⟨mem_withEarlier_iff.mpr ⟨after, split⟩, offends⟩, rfl⟩

theorem map_snd_withEarlier (earlier entries : List (Entry α)) :
    (withEarlier earlier entries).map Prod.snd = entries := by
  induction entries generalizing earlier with
  | nil => rfl
  | cons entry rest ih => rw [withEarlier, List.map_cons, ih]

theorem offenders_sublist (entries : List (Entry α)) : (offenders entries).Sublist entries := by
  have part : (offenders entries).Sublist ((withEarlier [] entries).map Prod.snd) :=
    List.filter_sublist.map Prod.snd
  rwa [map_snd_withEarlier] at part

theorem accepted_sublist (entries : List (Entry α)) : (accepted entries).Sublist entries := by
  have part : (accepted entries).Sublist ((withEarlier [] entries).map Prod.snd) :=
    List.filter_sublist.map Prod.snd
  rwa [map_snd_withEarlier] at part

/-- Every entry either offends or is accepted. -/
theorem length_accepted_add_offenders (entries : List (Entry α)) :
    (accepted entries).length + (offenders entries).length = entries.length := by
  have whole := congrArg List.length (map_snd_withEarlier [] entries)
  have parts := List.length_eq_length_filter_add (l := withEarlier [] entries)
    fun placed => decide (Offends placed)
  rw [List.length_map] at whole
  rw [accepted, offenders, acceptedFrom, offendersFrom, List.length_map, List.length_map]
  omega

theorem acceptedFrom_cons (earlier rest : List (Entry α)) (entry : Entry α) :
    acceptedFrom earlier (entry :: rest) =
      if Offends (earlier, entry) then acceptedFrom (earlier ++ [entry]) rest
      else entry :: acceptedFrom (earlier ++ [entry]) rest := by
  by_cases offends : Offends (earlier, entry) <;> simp [acceptedFrom, withEarlier, offends]

/-! ### Checking -/

theorem map_eq_of_forall₂ {β γ δ : Type} {f : β → δ} {g : γ → δ} {xs : List β} {ys : List γ}
    (alike : List.Forall₂ (fun x y => f x = g y) xs ys) : xs.map f = ys.map g := by
  rw [← List.forall₂_eq_eq_eq, List.forall₂_map_left_iff, List.forall₂_map_right_iff]
  exact alike

namespace Problem

def line : Problem α → α
  | .repeatedParameter line _ => line
  | .alreadyDeclared line _ _ => line

def template : Problem α → String
  | .repeatedParameter _ cause => cause.route
  | .alreadyDeclared _ template _ => template

end Problem

/-- The problem of an entry, with the entries before it: a repeated parameter whatever stands before
it, and else the line of the first entry that has its template. -/
inductive Earns : List (Entry α) × Entry α → Problem α → Prop where
  | repeated {earlier : List (Entry α)} {entry : Entry α} {cause : RepeatedParameter}
      (failed : Route.compile entry.template = .error cause) :
      Earns (earlier, entry) (.repeatedParameter entry.line cause)
  | declared {before between : List (Entry α)} {first entry : Entry α}
      (differ : NamesDiffer entry.template) (same : first.template = entry.template)
      (fresh : ∀ other ∈ before, other.template ≠ entry.template) :
      Earns (before ++ first :: between, entry)
        (.alreadyDeclared entry.line entry.template first.line)

theorem Earns.own {placed : List (Entry α) × Entry α} {problem : Problem α}
    (earned : Earns placed problem) :
    (placed.2.line, placed.2.template) = (problem.line, problem.template) := by
  cases earned with
  | @repeated earlier entry cause failed =>
    rcases Route.compile_cases entry.template with ⟨-, route, compiled, -⟩ | ⟨-, cause', same, own⟩
    · rw [compiled] at failed
      cases failed
    · rw [same] at failed
      cases failed
      exact congrArg (entry.line, ·) own.symm
  | declared => rfl

/-- The declared templates are those of the earlier entries, as far as they give routes, each with
the line of the first entry that has it. -/
def Knows (declared : List (String × α)) (earlier : List (Entry α)) : Prop :=
  ∀ template, NamesDiffer template →
    List.lookup template declared = (earlier.find? (·.template = template)).map (·.line)

/-- What is known stays known when an entry is passed that gives no route or a known one. -/
theorem Knows.skip {declared : List (String × α)} {earlier : List (Entry α)} {entry : Entry α}
    (knows : Knows declared earlier)
    (known : NamesDiffer entry.template → (List.lookup entry.template declared).isSome = true) :
    Knows declared (earlier ++ [entry]) := by
  intro template differ
  rw [knows template differ, List.find?_append]
  by_cases same : entry.template = template
  · -- An earlier entry has the template, and the first of them stays the first.
    subst same
    have found := known differ
    rw [knows _ differ, Option.isSome_map] at found
    obtain ⟨first, found⟩ := Option.isSome_iff_exists.mp found
    rw [found, Option.some_or]
  · simp [same]

theorem Knows.add {declared : List (String × α)} {earlier : List (Entry α)} {entry : Entry α}
    (knows : Knows declared earlier) (fresh : List.lookup entry.template declared = none) :
    Knows ((entry.template, entry.line) :: declared) (earlier ++ [entry]) := by
  intro template differ
  rw [List.lookup_cons, List.find?_append]
  by_cases same : template = entry.template
  · subst same
    rw [knows _ differ, Option.map_eq_none_iff] at fresh
    simp [fresh]
  · have other : (template == entry.template) = false := beq_false_of_ne same
    simp [other, knows template differ, Ne.symm same]

/-- Each entry that offends earns its problem, and each other one gives its route. -/
theorem checkFrom_partition {declared : List (String × α)} {earlier : List (Entry α)}
    (knows : Knows declared earlier) (entries : List (Entry α)) :
    List.Forall₂ Earns
        ((withEarlier earlier entries).filter fun placed => decide (Offends placed))
        (checkFrom declared entries).problems ∧
      List.Forall₂ (fun entry route => Route.compile entry.template = .ok route)
        (acceptedFrom earlier entries) (checkFrom declared entries).routes := by
  induction entries generalizing declared earlier with
  | nil => exact ⟨.nil, .nil⟩
  | cons entry rest ih =>
    rw [withEarlier, acceptedFrom_cons, checkFrom]
    rcases Route.compile_cases entry.template with
      ⟨differ, route, compiled, -⟩ | ⟨same, cause, failed, -⟩
    · rw [compiled]
      dsimp only
      cases found : List.lookup entry.template declared with
      | some line =>
        -- An earlier entry has the template and gave the route; the line is that of the first.
        have known := found
        rw [knows _ differ, Option.map_eq_some_iff] at known
        obtain ⟨first, known, rfl⟩ := known
        obtain ⟨same, before, between, rfl, fresh⟩ := List.find?_eq_some_iff_append.mp known
        have same : first.template = entry.template := by simpa using same
        have fresh : ∀ other ∈ before, other.template ≠ entry.template := by simpa using fresh
        have offends : Offends (before ++ first :: between, entry) :=
          Or.inr ⟨first, by simp, same⟩
        obtain ⟨problems, routes⟩ := ih (knows.skip fun _ => by rw [found]; rfl)
        rw [List.filter_cons_of_pos (by simpa using offends), if_pos offends]
        exact ⟨.cons (.declared differ same fresh) problems, routes⟩
      | none =>
        -- The entry is the first with its template, and its route is known from now on.
        have fresh := found
        rw [knows _ differ, Option.map_eq_none_iff, List.find?_eq_none] at fresh
        have innocent : ¬Offends (earlier, entry) := by
          rintro (same | ⟨other, before, same⟩)
          · exact same differ
          · exact fresh other before (by simpa using same)
        obtain ⟨problems, routes⟩ := ih (knows.add found)
        rw [List.filter_cons_of_neg (by simpa using innocent), if_neg innocent]
        exact ⟨problems, .cons compiled routes⟩
    · -- No route is given, so there is nothing more to know.
      have offends : Offends (earlier, entry) := Or.inl same
      obtain ⟨problems, routes⟩ := ih (knows.skip fun differ => absurd differ same)
      rw [failed, List.filter_cons_of_pos (by simpa using offends), if_pos offends]
      exact ⟨.cons (.repeated failed) problems, routes⟩

theorem check_partition (entries : List (Entry α)) :
    List.Forall₂ Earns ((withEarlier [] entries).filter fun placed => decide (Offends placed))
        (check entries).problems ∧
      List.Forall₂ (fun entry route => Route.compile entry.template = .ok route)
        (accepted entries) (check entries).routes := by
  have none : Knows ([] : List (String × α)) [] := fun _ _ => rfl
  exact checkFrom_partition none entries

/-- Checking a table gives a problem for each offender and a route for each other declaration. -/
theorem check_eq (entries : List (Entry α)) :
    ((check entries).problems.map fun problem => (problem.line, problem.template)) =
        (offenders entries).map (fun entry => (entry.line, entry.template)) ∧
      (check entries).routes.map (·.template) = (accepted entries).map (·.template) := by
  obtain ⟨problems, routes⟩ := check_partition entries
  rw [offenders, offendersFrom, List.map_map]
  constructor
  · exact (map_eq_of_forall₂ (problems.imp fun _ _ earned => earned.own)).symm
  · refine (map_eq_of_forall₂ (routes.imp fun entry route compiled => ?_)).symm
    exact (Route.parts_of_compile compiled).2.1.symm

theorem length_problems (entries : List (Entry α)) :
    (check entries).problems.length = (offenders entries).length := by
  simpa using congrArg List.length (check_eq entries).1

theorem length_routes (entries : List (Entry α)) :
    (check entries).routes.length = (accepted entries).length := by
  simpa using congrArg List.length (check_eq entries).2

/-! ### Verdicts without regard to order -/

theorem mem_map_acceptedFrom_iff {earlier entries : List (Entry α)} {template : String} :
    template ∈ (acceptedFrom earlier entries).map (·.template) ↔
      NamesDiffer template ∧ template ∈ entries.map (·.template) ∧
        ∀ other ∈ earlier, other.template ≠ template := by
  induction entries generalizing earlier with
  | nil => simp [acceptedFrom, withEarlier]
  | cons entry rest ih =>
    have later : template ∈ (acceptedFrom (earlier ++ [entry]) rest).map (·.template) ↔
        NamesDiffer template ∧ template ∈ rest.map (·.template) ∧
          (∀ other ∈ earlier, other.template ≠ template) ∧ entry.template ≠ template := by
      rw [ih, List.forall_mem_append, List.forall_mem_singleton]
    rw [acceptedFrom_cons, List.map_cons, List.mem_cons]
    split
    next offends =>
      rw [later]
      constructor
      · rintro ⟨differ, member, fresh, -⟩
        exact ⟨differ, Or.inr member, fresh⟩
      · rintro ⟨differ, member, fresh⟩
        -- The entry that offends has another template.
        have other : entry.template ≠ template := by
          rintro rfl
          rcases offends with same | ⟨other, before, same⟩
          · exact same differ
          · exact fresh other before same
        exact ⟨differ, member.resolve_left (Ne.symm other), fresh, other⟩
    next innocent =>
      obtain ⟨differ, fresh⟩ := not_or.mp innocent
      rw [List.map_cons, List.mem_cons, later]
      constructor
      · rintro (rfl | ⟨differ, member, fresh, -⟩)
        · exact ⟨Classical.not_not.mp differ, Or.inl rfl,
            fun other before same => fresh ⟨other, before, same⟩⟩
        · exact ⟨differ, Or.inr member, fresh⟩
      · rintro ⟨differ, member, fresh⟩
        by_cases same : template = entry.template
        · exact Or.inl same
        · exact Or.inr ⟨differ, member.resolve_left same, fresh, Ne.symm same⟩

/-- A template is accepted if it is declared at all and repeats no parameter. -/
theorem mem_map_accepted_iff {entries : List (Entry α)} {template : String} :
    template ∈ (accepted entries).map (·.template) ↔
      NamesDiffer template ∧ template ∈ entries.map (·.template) := by
  rw [accepted, mem_map_acceptedFrom_iff]
  simp

theorem nodup_map_acceptedFrom (earlier entries : List (Entry α)) :
    ((acceptedFrom earlier entries).map (·.template)).Nodup := by
  induction entries generalizing earlier with
  | nil => exact List.nodup_nil
  | cons entry rest ih =>
    rw [acceptedFrom_cons]
    split
    · exact ih _
    · rw [List.map_cons, List.nodup_cons]
      refine ⟨fun again => ?_, ih _⟩
      have fresh := (mem_map_acceptedFrom_iff.mp again).2.2
      exact fresh entry (List.mem_append_right _ (List.mem_singleton_self entry)) rfl

section Order

variable {entries entries' : List (Entry α)}
  (moved : (entries.map (·.template)).Perm (entries'.map (·.template)))

include moved

/-- The accepted templates are the same in any order of the declarations. -/
theorem accepted_perm :
    ((accepted entries).map (·.template)).Perm ((accepted entries').map (·.template)) := by
  have unique (entries : List (Entry α)) : ((accepted entries).map (·.template)).Nodup :=
    nodup_map_acceptedFrom [] entries
  apply (List.perm_ext_iff_of_nodup (unique entries) (unique entries')).mpr
  intro template
  rw [mem_map_accepted_iff, mem_map_accepted_iff, moved.mem_iff]

theorem length_offenders_of_perm : (offenders entries).length = (offenders entries').length := by
  have whole := length_accepted_add_offenders entries
  have whole' := length_accepted_add_offenders entries'
  have alike := (accepted_perm moved).length_eq
  have all := moved.length_eq
  simp only [List.length_map] at alike all
  omega

end Order

/-- Nothing offends in a sound table, and in no other one. -/
theorem offenders_eq_nil_iff {entries : List (Entry α)} :
    offenders entries = [] ↔ Sound entries := by
  have whole := length_accepted_add_offenders entries
  constructor
  · intro none
    -- All entries are accepted, and accepted templates differ.
    rw [none, List.length_nil, Nat.add_zero] at whole
    have all := (accepted_sublist entries).eq_of_length whole
    constructor
    · intro entry member
      rw [← all] at member
      exact (mem_map_accepted_iff.mp (List.mem_map_of_mem member)).1
    · have distinct := nodup_map_acceptedFrom [] entries
      rwa [← accepted, all] at distinct
  · rintro ⟨differ, distinct⟩
    -- The accepted templates are all the templates, so there are as many of both.
    have all : ((accepted entries).map (·.template)).Perm (entries.map (·.template)) := by
      apply (List.perm_ext_iff_of_nodup (nodup_map_acceptedFrom [] entries) distinct).mpr
      intro template
      rw [← accepted, mem_map_accepted_iff]
      constructor
      · exact fun own => own.2
      · intro declared
        obtain ⟨entry, member, rfl⟩ := List.mem_map.mp declared
        exact ⟨differ entry member, declared⟩
    have size := all.length_eq
    rw [List.length_map, List.length_map] at size
    apply List.eq_nil_of_length_eq_zero
    omega

/-! ### Tables that are read -/

/-- The template that a line declares. -/
def declaredTemplate? (line : List Char) : Option String :=
  (declaredWords line).head?.map String.ofList

theorem map_template_ofLine? (number : Int) (line : List Char) :
    (Entry.ofLine? number line).map (·.template) = declaredTemplate? line := by
  rw [Entry.ofLine?, declaredTemplate?]
  cases declaredWords line <;> rfl

theorem map_template_entriesFrom (number : Int) (lines : List (List Char)) :
    (entriesFrom number lines).map (·.template) = lines.filterMap declaredTemplate? := by
  induction lines generalizing number with
  | nil => rfl
  | cons line rest ih =>
    have own := map_template_ofLine? number line
    rw [entriesFrom, List.map_append, ih, List.filterMap_cons, ← own]
    cases Entry.ofLine? number line <;> rfl

theorem line_of_ofLine? {number : Int} {line : List Char} {entry : Entry Int}
    (found : Entry.ofLine? number line = some entry) : entry.line = number := by
  rw [Entry.ofLine?] at found
  split at found
  · cases found
  · cases found
    rfl

/-- Entries stand in the order of their lines, at most one on each. -/
theorem entriesFrom_ascending (number : Int) (lines : List (List Char)) :
    (entriesFrom number lines).Pairwise (fun before after => before.line < after.line) ∧
      ∀ entry ∈ entriesFrom number lines, number ≤ entry.line := by
  induction lines generalizing number with
  | nil => exact ⟨.nil, nofun⟩
  | cons line rest ih =>
    obtain ⟨ascending, above⟩ := ih (number + 1)
    rw [entriesFrom]
    cases found : Entry.ofLine? number line with
    | none =>
      refine ⟨ascending, fun entry member => ?_⟩
      have := above entry member
      omega
    | some first =>
      have here := line_of_ofLine? found
      refine ⟨.cons (fun entry member => ?_) ascending, fun entry member => ?_⟩
      · have := above entry member
        omega
      · rcases List.mem_cons.mp member with rfl | later
        · omega
        · have := above entry later
          omega

theorem read_ascending (text : String) :
    (read text).Pairwise fun before after => before.line < after.line :=
  (entriesFrom_ascending 1 _).1

/-- The templates of a table whose lines are put in another order and joined by line feeds. -/
theorem read_perm {text : List Char} {lines : List (List Char)}
    (moved : lines.Perm (Text.lines text)) :
    ((read (String.ofList (List.intercalate ['\n'] lines))).map (·.template)).Perm
      ((read (String.ofList text)).map (·.template)) := by
  have plain : ∀ line ∈ lines, ∀ d ∈ line, Text.isBoundary d = false :=
    fun line member => Text.isBoundary_of_mem_lines (moved.mem_iff.mp member)
  rw [read, read, String.toList_ofList, String.toList_ofList, entriesFrom_lines_intercalate plain,
    map_template_entriesFrom, map_template_entriesFrom]
  exact moved.filterMap declaredTemplate?

end Routebook.Table
