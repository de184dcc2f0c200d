import Mathlib.Algebra.Group.Nat.Defs
import Routebook.Entity
import Routebook.Proofs.Declarations

/-!
# Telling problems

A table is checked for its routes and for its problems in words. There is an answer exactly if every
line that a problem names can be written, so there always is one without a limit to digits, and for
all lines that are within the limit. It holds a route for each declaration that does not offend, and
for each other one its problem, told in full: with its own line, and with the parameter that it
repeats or else the line of the first declaration with its template.
-/
namespace Routebook.Table

open Template (NamesDiffer)

/-! ### Writing within a limit -/

/-- A number has no more digits than are written, if there is a limit. -/
def Writable (limit : Option Nat) (line : Int) : Prop :=
  ∀ most ∈ limit, (Nat.toDigits 10 line.natAbs).length ≤ most

instance (limit : Option Nat) (line : Int) : Decidable (Writable limit line) :=
  inferInstanceAs (Decidable (∀ most ∈ limit, _))

/-- With a limit, the lines that can be written are an interval around zero. -/
theorem writable_some_iff {most : Nat} (positive : 0 < most) {line : Int} :
    Writable (some most) line ↔ line.natAbs < 10 ^ most := by
  rw [← Nat.length_toDigits_le_iff (by decide) positive]
  simp [Writable]

/-- There is a value if a condition holds, and else the fault of the limit. -/
inductive Within {β : Type} (limit : Option Nat) (value : β) (fits : Prop) :
    Except ValueFault β → Prop where
  | written (holds : fits) : Within limit value fits (.ok value)
  | refused {most : Nat} (limited : limit = some most) (fails : ¬fits) :
      Within limit value fits (.error (.tooManyDigits most))

section Within

variable {β γ : Type} {limit : Option Nat} {value : β} {fits fits' : Prop}
  {result : Except ValueFault β}

theorem Within.congr (within : Within limit value fits result) (same : fits ↔ fits') :
    Within limit value fits' result := by
  cases within with
  | written holds => exact .written (same.mp holds)
  | refused limited fails => exact .refused limited fun holds => fails (same.mpr holds)

theorem Within.eq_ok (within : Within limit value fits result) (holds : fits) :
    result = .ok value := by
  cases within with
  | written => rfl
  | refused _ fails => exact absurd holds fails

theorem Within.eq_error {most : Nat} (within : Within (some most) value fits result)
    (fails : ¬fits) : result = .error (.tooManyDigits most) := by
  cases within with
  | written holds => exact absurd holds fails
  | refused limited =>
    cases limited
    rfl

/-- One after the other, both have to be within the limit. -/
theorem Within.bind {next : β → Except ValueFault γ} {last : γ}
    (first : Within limit value fits result) (second : Within limit last fits' (next value)) :
    Within limit last (fits ∧ fits') (result >>= next) := by
  cases first with
  | refused limited fails => exact .refused limited fun both => fails both.1
  | written holds =>
    change Within limit last (fits ∧ fits') (next value)
    exact second.congr (and_iff_right holds).symm

/-- What is made of a value is within the limit if the value is. -/
theorem Within.map (within : Within limit value fits result) (f : β → γ) :
    Within limit (f value) fits (result >>= fun value => pure (f value)) := by
  have both : Within limit (f value) (fits ∧ True) (result >>= fun value => .ok (f value)) :=
    within.bind (.written trivial)
  exact both.congr (and_iff_left trivial)

theorem Within.mapM {write : β → Except ValueFault γ} {text : β → γ} {fits : β → Prop}
    (each : ∀ x, Within limit (text x) (fits x) (write x)) (xs : List β) :
    Within limit (xs.map text) (∀ x ∈ xs, fits x) (xs.mapM write) := by
  induction xs with
  | nil => exact .written (List.forall_mem_nil _)
  | cons x xs ih =>
    rw [List.mapM_cons, List.map_cons]
    exact ((each x).bind (ih.map (text x :: ·))).congr List.forall_mem_cons.symm

end Within

theorem within_writeNumber (limit : Option Nat) (line : Int) :
    Within limit (toString line) (Writable limit line) (writeNumber limit line) := by
  cases limit with
  | none => exact .written nofun
  | some most =>
    have fits : Writable (some most) line ↔ (Tree.int line).hasDigits most = true := by
      simp [Writable, Tree.int, Tree.hasDigits, Atom.hasDigits]
    rw [writeNumber, Tree.text?]
    split
    next holds => exact .written (fits.mpr holds)
    next fails => exact .refused rfl fun holds => fails (fits.mp holds)

/-! ### Problems in words -/

variable {α : Type}

/-- The lines that a problem names. -/
def Problem.lines : Problem α → List α
  | .repeatedParameter line _ => [line]
  | .alreadyDeclared line _ first => [line, first]

section Words

variable {limit : Option Nat} {write : α → Except ValueFault String} {text : α → String}
  {fits : α → Prop} (each : ∀ line, Within limit (text line) (fits line) (write line))

include each

/-- A problem is told in words if all lines that it names can be written. -/
theorem Problem.within_tell (problem : Problem α) :
    Within limit (problem.message text) (∀ line ∈ problem.lines, fits line)
      (problem.tell write) := by
  cases problem with
  | repeatedParameter line cause =>
    simp only [tell, writeLines, bind_assoc, pure_bind, lines, List.forall_mem_singleton]
    exact (each line).map fun line => message id (.repeatedParameter line cause)
  | alreadyDeclared line template first =>
    simp only [tell, writeLines, bind_assoc, pure_bind, lines, List.forall_mem_cons]
    have last := (each first).map fun first =>
      message id (.alreadyDeclared (text line) template first)
    exact ((each line).bind last).congr (by simp)

theorem within_checkRoutes (entries : List (Entry α)) :
    Within limit ((check entries).routes, (check entries).problems.map (·.message text))
      (∀ problem ∈ (check entries).problems, ∀ line ∈ problem.lines, fits line)
      (checkRoutes write entries) :=
  (Within.mapM (Problem.within_tell each) _).map ((check entries).routes, ·)

end Words

/-- The problem of an entry in words, with the entries before it. Each names the line of the entry
itself; then a repeated parameter and the template, or the template and the line of the first entry
that has it. -/
inductive Told : List (Entry Int) × Entry Int → String → Prop where
  | repeated {earlier : List (Entry Int)} {entry : Entry Int} {cause : RepeatedParameter}
      (failed : Route.compile entry.template = .error cause) :
      Told (earlier, entry)
        ("line " ++ toString entry.line ++ ": duplicate url param " ++
          Text.quoted cause.parameter ++ " was found in " ++ Text.quoted entry.template)
  | declared {before between : List (Entry Int)} {first entry : Entry Int}
      (differ : NamesDiffer entry.template) (same : first.template = entry.template)
      (fresh : ∀ other ∈ before, other.template ≠ entry.template) :
      Told (before ++ first :: between, entry)
        ("line " ++ toString entry.line ++ ": route " ++ Text.quoted entry.template ++
          " already declared on line " ++ toString first.line)

theorem Earns.told {placed : List (Entry Int) × Entry Int} {problem : Problem Int}
    (earned : Earns placed problem) : Told placed (problem.message toString) := by
  cases earned with
  | declared differ same fresh => exact .declared differ same fresh
  | @repeated earlier entry cause failed =>
    have earned : Earns (earlier, entry) (.repeatedParameter entry.line cause) := .repeated failed
    have own : entry.template = cause.route := congrArg Prod.snd earned.own
    -- The message of the cause is joined to what stands before it.
    have words : ": duplicate url param " = ": " ++ "duplicate url param " := by decide +kernel
    have message : cause.message = "duplicate url param " ++ Text.quoted cause.parameter ++
        " was found in " ++ Text.quoted cause.route := rfl
    have told : Told (earlier, entry) _ := .repeated failed
    rw [own, words] at told
    rw [Problem.message, message]
    simpa only [String.append_assoc] using told

/-- A problem names no line but those of its entry and of the entries before it. -/
theorem Earns.line_mem {placed : List (Entry α) × Entry α} {problem : Problem α}
    (earned : Earns placed problem) {line : α} (named : line ∈ problem.lines) :
    ∃ entry ∈ placed.1 ++ [placed.2], entry.line = line := by
  cases earned with
  | @repeated earlier entry cause =>
    cases List.mem_singleton.mp named
    exact ⟨entry, by simp, rfl⟩
  | @declared before between first entry =>
    simp only [Problem.lines, List.mem_cons, List.not_mem_nil, or_false] at named
    rcases named with rfl | rfl
    · exact ⟨entry, by simp, rfl⟩
    · exact ⟨first, by simp, rfl⟩

theorem exists_of_mem_right {β γ : Type} {R : β → γ → Prop} {xs : List β} {ys : List γ}
    (alike : List.Forall₂ R xs ys) {y : γ} (member : y ∈ ys) : ∃ x ∈ xs, R x y := by
  induction alike with
  | nil => cases member
  | @cons x _ xs _ here _ ih =>
    rcases List.mem_cons.mp member with rfl | later
    · exact ⟨x, List.mem_cons_self, here⟩
    · obtain ⟨other, within, related⟩ := ih later
      exact ⟨other, List.mem_cons_of_mem x within, related⟩

theorem exists_line_of_mem_problems {entries : List (Entry α)} {problem : Problem α} {line : α}
    (found : problem ∈ (check entries).problems) (named : line ∈ problem.lines) :
    ∃ entry ∈ entries, entry.line = line := by
  obtain ⟨placed, member, earned⟩ := exists_of_mem_right (check_partition entries).1 found
  obtain ⟨entry, within, own⟩ := earned.line_mem named
  obtain ⟨after, split⟩ := mem_withEarlier_iff.mp (List.mem_filter.mp member).1
  rw [split, List.append_cons]
  exact ⟨entry, List.mem_append_left _ within, own⟩

/-! ### The partition of a table -/

/-- Every entry either gives a route or is told as one problem, both in the order of the entries. -/
structure Partition (entries : List (Entry Int)) (routes : List Route) (lines : List String) :
    Prop where
  /-- An entry gives a route if its template compiles and no earlier entry has it. -/
  compiled : List.Forall₂ (fun entry route => Route.compile entry.template = .ok route)
    (accepted entries) routes
  told : List.Forall₂ Told ((withEarlier [] entries).filter fun placed => decide (Offends placed))
    lines
  total : routes.length + lines.length = entries.length
  unequal : routes.Pairwise fun one other => Entity.equal (.route one) (.route other) = false

theorem partition_check (entries : List (Entry Int)) :
    Partition entries (check entries).routes (problemLines (check entries)) where
  compiled := (check_partition entries).2
  told := by
    rw [problemLines, List.forall₂_map_right_iff]
    exact (check_partition entries).1.imp fun _ _ earned => earned.told
  total := by
    rw [problemLines, List.length_map, length_routes, length_problems,
      length_accepted_add_offenders]
  unequal := by
    have distinct : ((check entries).routes.map (·.template)).Nodup := by
      rw [(check_eq entries).2]
      exact nodup_map_acceptedFrom [] entries
    exact (List.pairwise_map.mp distinct).imp fun other => beq_false_of_ne other

end Routebook.Table
