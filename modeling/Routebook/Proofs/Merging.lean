import Routebook.Value.Entries

/-!
# Merging of dictionaries

Entries put over a dictionary whose keys are texts replace values in place, and those under other
keys follow in their own order. The induction is on the entries that are put: those that were put
before and found no place stand behind the texts.
-/
namespace Routebook

/-- A text is the same as itself only. -/
theorem Atom.same_text (key : Atom) (name : String) :
    key.same (.text name) = decide (key = .text name) := by
  rw [Bool.eq_iff_iff]
  cases key <;> simp [Atom.same, Atom.whole?]

theorem Atom.text_same (key : Atom) (name : String) :
    (Atom.text name).same key = decide (key = .text name) := by
  rw [Bool.eq_iff_iff, decide_eq_true_iff, eq_comm (a := key)]
  cases key <;> simp [Atom.same, Atom.whole?]

namespace Entries

variable {α : Type}

/-- No two keys are the same. -/
def Distinct (entries : Entries α) : Prop :=
  entries.Pairwise fun first second => first.1.same second.1 = false

instance (entries : Entries α) : Decidable (Distinct entries) :=
  inferInstanceAs (Decidable (List.Pairwise _ _))

/-- Entries under texts. -/
def texts (fields : List (String × α)) : Entries α :=
  fields.map fun field => (.text field.1, field.2)

/-- Fields with the values that entries have for their names, and their own otherwise. -/
def override (fields : List (String × α)) (entries : Entries α) : List (String × α) :=
  fields.map fun field => (field.1, (entries.find? (.text field.1)).getD field.2)

/-- The entries that are under none of the names. -/
def others (names : List String) (entries : Entries α) : Entries α :=
  entries.filter fun entry => decide (∀ name ∈ names, entry.1 ≠ .text name)

theorem others_cons_of_mem {names : List String} {name : String} (value : α) (rest : Entries α)
    (member : name ∈ names) : others names ((.text name, value) :: rest) = others names rest := by
  apply List.filter_cons_of_neg
  rw [decide_eq_true_iff]
  exact fun none => none name member rfl

theorem others_cons_of_other {names : List String} {key : Atom} (value : α) (rest : Entries α)
    (other : ∀ name ∈ names, key ≠ .text name) :
    others names ((key, value) :: rest) = (key, value) :: others names rest := by
  apply List.filter_cons_of_pos
  rw [decide_eq_true_iff]
  exact other

theorem find?_text_cons (key : Atom) (value : α) (rest : Entries α) (name : String) :
    find? (.text name) ((key, value) :: rest) =
      if key = .text name then some value else find? (.text name) rest := by
  simp [find?, Atom.same_text]

theorem find?_text_eq_none {name : String} {entries : Entries α}
    (missing : ∀ entry ∈ entries, entry.1 ≠ .text name) : find? (.text name) entries = none := by
  induction entries with
  | nil => rfl
  | cons entry rest ih =>
    obtain ⟨first, more⟩ := List.forall_mem_cons.mp missing
    rw [find?_text_cons, if_neg first, ih more]

/-- Fields with one value replaced. -/
def assign (name : String) (value : α) (fields : List (String × α)) : List (String × α) :=
  fields.map fun field => if field.1 = name then (field.1, value) else field

theorem map_fst_assign (name : String) (value : α) (fields : List (String × α)) :
    (assign name value fields).map Prod.fst = fields.map Prod.fst := by
  rw [assign, List.map_map]
  refine List.map_congr_left fun field _ => ?_
  by_cases here : field.1 = name <;> simp [here]

theorem assign_of_not_mem {name : String} (value : α) {fields : List (String × α)}
    (missing : name ∉ fields.map Prod.fst) : assign name value fields = fields := by
  have unchanged : ∀ field ∈ fields,
      (if field.1 = name then (field.1, value) else field) = field := by
    intro field member
    rw [if_neg]
    rintro rfl
    exact missing (List.mem_map_of_mem member)
  rw [assign, List.map_congr_left unchanged, List.map_id']

/-- A value under a name that is there replaces the one before. -/
theorem put_texts {fields : List (String × α)} {name : String} (value : α) (rest : Entries α)
    (unique : (fields.map Prod.fst).Nodup) (member : name ∈ fields.map Prod.fst) :
    put (.text name) value (texts fields ++ rest) = texts (assign name value fields) ++ rest := by
  induction fields with
  | nil => cases member
  | cons field fields ih =>
    obtain ⟨fresh, unique⟩ := List.nodup_cons.mp unique
    by_cases here : field.1 = name
    · subst here
      have kept := assign_of_not_mem value fresh
      rw [assign] at kept
      simp [texts, assign, put, Atom.text_same, kept]
    · have later : name ∈ fields.map Prod.fst := by
        rcases List.mem_cons.mp member with rfl | later
        · exact absurd rfl here
        · exact later
      have step := ih unique later
      simp only [texts, assign] at step
      simp [texts, assign, put, Atom.text_same, here, Ne.symm here, step]

/-- A name that is not put again keeps its value. -/
theorem override_assign {name : String} (value : α) (fields : List (String × α))
    {more : Entries α} (last : ∀ entry ∈ more, entry.1 ≠ .text name) :
    override (assign name value fields) more = override fields ((.text name, value) :: more) := by
  rw [override, override, assign, List.map_map]
  refine List.map_congr_left fun field _ => ?_
  by_cases here : field.1 = name
  · simp [here, find?_text_cons, find?_text_eq_none last]
  · simp [here, find?_text_cons, Ne.symm here]

/-- A value under a new key goes to the end. -/
theorem put_new {key : Atom} {entries : Entries α} (value : α)
    (new : ∀ entry ∈ entries, entry.1.same key = false) :
    put key value entries = entries ++ [(key, value)] := by
  induction entries with
  | nil => rfl
  | cons entry rest ih =>
    obtain ⟨first, more⟩ := List.forall_mem_cons.mp new
    simp [put, first, ih more]

theorem putAll_cons (entries : Entries α) (entry : Atom × α) (more : Entries α) :
    putAll entries (entry :: more) = putAll (put entry.1 entry.2 entries) more := rfl

theorem putAll_texts_append {fields : List (String × α)} {waiting more : Entries α}
    (unique : (fields.map Prod.fst).Nodup) (distinct : Distinct (waiting ++ more)) :
    putAll (texts fields ++ waiting) more =
      texts (override fields more) ++ (waiting ++ others (fields.map Prod.fst) more) := by
  induction more generalizing fields waiting with
  | nil =>
    have kept : override fields [] = fields := List.map_id' fields
    rw [kept, others, List.filter_nil, List.append_nil]
    rfl
  | cons entry more ih =>
    obtain ⟨key, value⟩ := entry
    obtain ⟨before, after, apart⟩ := List.pairwise_append.mp distinct
    obtain ⟨last, after⟩ := List.pairwise_cons.mp after
    rw [putAll_cons]
    by_cases other : ∀ name ∈ fields.map Prod.fst, key ≠ .text name
    · -- The entry finds no place and waits behind the others.
      have new : ∀ entry ∈ texts fields ++ waiting, entry.1.same key = false := by
        intro entry present
        rcases List.mem_append.mp present with named | waits
        · obtain ⟨field, own, rfl⟩ := List.mem_map.mp named
          rw [Atom.text_same, decide_eq_false_iff_not]
          exact other field.1 (List.mem_map_of_mem own)
        · exact apart entry waits (key, value) List.mem_cons_self
      have rest : Distinct ((waiting ++ [(key, value)]) ++ more) := by simpa using distinct
      have kept : override fields ((key, value) :: more) = override fields more := by
        refine List.map_congr_left fun field own => ?_
        rw [find?_text_cons, if_neg (other field.1 (List.mem_map_of_mem own))]
      rw [put_new value new, List.append_assoc, ih unique rest,
        others_cons_of_other value more other, kept, List.append_assoc, List.singleton_append]
    · -- The entry goes to the place of a text, and no later one takes it away again.
      simp only [Classical.not_forall, Decidable.not_not] at other
      obtain ⟨name, member, rfl⟩ := other
      have once : ∀ entry ∈ more, entry.1 ≠ .text name := by
        intro entry later equal
        have differ := last entry later
        rw [Atom.text_same, decide_eq_false_iff_not] at differ
        exact differ equal
      have rest : Distinct (waiting ++ more) := distinct.sublist (by simp)
      rw [put_texts value waiting unique member, ih (by rwa [map_fst_assign]) rest,
        override_assign value fields once, map_fst_assign, others_cons_of_mem value more member]

/-- Entries put over texts: the texts keep their places, and all other entries follow in order. -/
theorem putAll_texts {fields : List (String × α)} {more : Entries α}
    (unique : (fields.map Prod.fst).Nodup) (distinct : Distinct more) :
    putAll (texts fields) more =
      texts (override fields more) ++ others (fields.map Prod.fst) more := by
  have none : Distinct ([] ++ more) := distinct
  simpa using putAll_texts_append unique none

/-- Entries under keys that differ are taken over as they are. -/
theorem ofPairs_of_distinct {entries : Entries α} (distinct : Distinct entries) :
    ofPairs entries = entries := by
  have none : (([] : List (String × α)).map Prod.fst).Nodup := List.nodup_nil
  have kept : others [] entries = entries := List.filter_eq_self.mpr (by simp)
  have whole := putAll_texts none distinct
  rwa [List.map_nil, kept] at whole

theorem distinct_texts {fields : List (String × α)} (unique : (fields.map Prod.fst).Nodup) :
    Distinct (texts fields) := by
  rw [Distinct, texts, List.pairwise_map]
  refine (List.pairwise_map.mp unique).imp fun differ => ?_
  rw [Atom.text_same, decide_eq_false_iff_not]
  exact fun same => differ (Atom.text.inj same).symm

end Entries

end Routebook
