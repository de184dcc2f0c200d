import Mathlib.Data.List.Basic
import Routebook.Proofs.Tiling

/-!
# Repeated names

A template that names a parameter twice is refused wherever it is read, for the first of its names
that an earlier one equals. Text behind the template does not change that, unless it goes on with
the last name: the search for placeholders comes upon the same spans first.
-/
namespace Routebook.Template

/-- The names of the placeholders that a search from left to right comes upon. -/
def names (template : String) : List String :=
  (spansFrom 0 template.toList).map (nameAt template.toList)

/-- The name at an index stands among those before it, and the index is the smallest such one. -/
structure FirstRepeat {α : Type} (names : List α) (index : Nat) (name : α) : Prop where
  here : names[index]? = some name
  again : name ∈ names.take index
  first : ∀ earlier < index, ∀ other, names[earlier]? = some other → other ∉ names.take earlier

/-- Every way to read a template ends with the same cause: to parse it, to compile it, and to make
a route of it. -/
structure RefusedFor (template : String) (cause : RepeatedParameter) : Prop where
  parsing : parse template = .error cause
  compiling : compile template = .error cause
  routing : Route.compile template = .error cause

/-! ### The first repeat of a list -/

section Lists

variable {α : Type} [DecidableEq α] {seen names : List α} {name : α}

/-- The names before the one that is found differ from each other and from those seen. -/
theorem split_of_firstRepeated? (found : firstRepeated? seen names = some name) :
    ∃ before after, names = before ++ name :: after ∧ (name ∈ seen ∨ name ∈ before) ∧
      before.Nodup ∧ ∀ other ∈ before, other ∉ seen := by
  induction names generalizing seen with
  | nil => cases found
  | cons head tail ih =>
    rw [firstRepeated?] at found
    split at found
    next old =>
      cases found
      exact ⟨[], tail, rfl, Or.inl old, .nil, by simp⟩
    next fresh =>
      obtain ⟨before, after, rfl, again, distinct, apart⟩ := ih found
      refine ⟨head :: before, after, rfl, ?_, ?_, ?_⟩
      · -- What has been seen since is the name in front.
        rcases again with known | inside
        · rcases List.mem_cons.mp known with rfl | old
          · exact Or.inr List.mem_cons_self
          · exact Or.inl old
        · exact Or.inr (List.mem_cons_of_mem _ inside)
      · exact List.nodup_cons.mpr
          ⟨fun inside => apart head inside List.mem_cons_self, distinct⟩
      · exact List.forall_mem_cons.mpr
          ⟨fresh, fun other inside old => apart other inside (List.mem_cons_of_mem _ old)⟩

theorem firstRepeat_of_firstRepeated? (found : firstRepeated? [] names = some name) :
    ∃ index, FirstRepeat names index name := by
  obtain ⟨before, after, rfl, again, distinct, -⟩ := split_of_firstRepeated? found
  refine ⟨before.length, by simp, by simpa using again, ?_⟩
  intro earlier below other here
  rw [List.getElem?_append_left below] at here
  rw [List.take_append_of_le_length (Nat.le_of_lt below)]
  -- The name stands behind those that are compared with it, and it stands only once.
  have behind : other ∈ before.drop earlier := by
    rw [List.mem_iff_getElem?]
    exact ⟨0, by simpa using here⟩
  exact fun inside => List.disjoint_take_drop distinct (Nat.le_refl _) inside behind

/-- Names that come later do not change what is found. -/
theorem firstRepeated?_append (found : firstRepeated? seen names = some name) (more : List α) :
    firstRepeated? seen (names ++ more) = some name := by
  induction names generalizing seen with
  | nil => cases found
  | cons head tail ih =>
    rw [firstRepeated?] at found
    rw [List.cons_append, firstRepeated?]
    split
    next old => rwa [if_pos old] at found
    next fresh =>
      rw [if_neg fresh] at found
      exact ih found

end Lists

/-! ### Text behind a template -/

/-- No name goes on into a text. -/
def EndsNames (rest : List Char) : Prop := ∀ c ∈ rest.head?, isNameChar c = false

instance (rest : List Char) : Decidable (EndsNames rest) :=
  inferInstanceAs (Decidable (∀ c ∈ rest.head?, isNameChar c = false))

theorem takeWhile_append_of_endsNames (text : List Char) {rest : List Char}
    (ended : EndsNames rest) :
    (text ++ rest).takeWhile isNameChar = text.takeWhile isNameChar ∧
      (text ++ rest).dropWhile isNameChar = text.dropWhile isNameChar ++ rest := by
  induction text with
  | nil =>
    cases rest with
    | nil => exact ⟨rfl, rfl⟩
    | cons c rest =>
      have other : isNameChar c = false := ended c rfl
      simp [other]
  | cons c text ih => cases letter : isNameChar c <;> simp [letter, ih]

/-- The search comes upon the spans of the front first, and then upon those of the rest. -/
theorem spansFrom_append (position : Nat) (text : List Char) {rest : List Char}
    (ended : EndsNames rest) :
    spansFrom position (text ++ rest) =
      spansFrom position text ++ spansFrom (position + text.length) rest := by
  induction position, text using spansFrom.induct with
  | case1 position => rw [spansFrom.eq_1]; rfl
  | case2 position c text run here stop ih =>
    obtain ⟨taken, left⟩ := takeWhile_append_of_endsNames text ended
    -- The name behind the colon is the same, and the search goes on behind it.
    have size : stop + (text.dropWhile isNameChar).length = position + (c :: text).length := by
      have whole := congrArg List.length
        (List.takeWhile_append_dropWhile (p := isNameChar) (l := text))
      rw [List.length_append] at whole
      simp only [stop, run, List.length_cons]
      omega
    rw [List.cons_append, spansFrom, spansFrom, taken, left, if_pos here, if_pos here]
    show (position, stop) :: spansFrom stop (text.dropWhile isNameChar ++ rest) = _
    rw [ih, size]
    rfl
  | case3 position c text run none ih =>
    obtain ⟨taken, -⟩ := takeWhile_append_of_endsNames text ended
    have size : position + 1 + text.length = position + (c :: text).length := by
      rw [List.length_cons]
      omega
    rw [List.cons_append, spansFrom, spansFrom, taken, if_neg none, if_neg none, ih, size]

theorem le_length_of_mem_spansFrom {text : List Char} {span : Nat × Nat}
    (member : span ∈ spansFrom 0 text) : span.2 ≤ text.length := by
  obtain ⟨start, stop, rfl, found⟩ := (mem_spansFrom_iff _ _ _).mp member
  show 0 + stop ≤ text.length
  rw [Nat.zero_add]
  rcases found.ends with last | ⟨c, inside, -⟩
  · exact Nat.le_of_eq last
  · exact Nat.le_of_lt (List.getElem?_eq_some_iff.mp inside).1

theorem nameAt_append {text : List Char} {span : Nat × Nat} (inside : span.2 ≤ text.length)
    (rest : List Char) : nameAt (text ++ rest) span = nameAt text span := by
  rw [nameAt, nameAt, List.extract_eq_take_drop, List.extract_eq_take_drop, ← List.drop_take,
    ← List.drop_take, List.take_append_of_le_length]
  omega

/-- The names of a template stay the first ones when text comes behind it. -/
theorem names_append (template : String) {rest : String} (ended : EndsNames rest.toList) :
    ∃ more, names (template ++ rest) = names template ++ more := by
  have same : (spansFrom 0 template.toList).map (nameAt (template.toList ++ rest.toList)) =
      names template :=
    List.map_congr_left fun span member => nameAt_append (le_length_of_mem_spansFrom member) _
  rw [names, String.toList_append, spansFrom_append 0 _ ended, List.map_append, same]
  exact ⟨_, rfl⟩

/-! ### Refusal -/

theorem parse_eq (template : String) :
    parse template = match firstRepeated? [] (names template) with
      | some parameter => .error ⟨template, parameter⟩
      | none => .ok (segments template) := by
  rw [names, ← keys_eq_map_nameAt]
  rfl

theorem refusedFor_of_firstRepeated? {template name : String}
    (found : firstRepeated? [] (names template) = some name) :
    RefusedFor template ⟨template, name⟩ := by
  have parsing : parse template = .error ⟨template, name⟩ := by
    rw [parse_eq, found]
  have compiling : compile template = .error ⟨template, name⟩ := by
    rw [compile, parsing]
    rfl
  have routing : Route.compile template = .error ⟨template, name⟩ := by
    rw [Route.compile, compiling]
    rfl
  exact ⟨parsing, compiling, routing⟩

/-- A template is refused exactly if two of its names are equal, and then, however it is read, for
the first name that an earlier one equals. Text behind it that no name goes on into is refused with
it for the same name. -/
theorem refused_iff_repeated (template : String) :
    (¬(names template).Nodup → ∃ index name, FirstRepeat (names template) index name ∧
      RefusedFor template ⟨template, name⟩ ∧
      ∀ rest : String, EndsNames rest.toList →
        RefusedFor (template ++ rest) ⟨template ++ rest, name⟩) ∧
    ((names template).Nodup → (∃ found, parse template = .ok found) ∧
      (∃ compiled, compile template = .ok compiled) ∧
      ∃ route, Route.compile template = .ok route) := by
  constructor
  · intro repeated
    cases found : firstRepeated? [] (names template) with
    | none => exact absurd (nodup_of_firstRepeated?_eq_none found).1 repeated
    | some name =>
      obtain ⟨index, first⟩ := firstRepeat_of_firstRepeated? found
      refine ⟨index, name, first, refusedFor_of_firstRepeated? found, fun rest ended => ?_⟩
      obtain ⟨more, names⟩ := names_append template ended
      apply refusedFor_of_firstRepeated?
      rw [names, firstRepeated?_append found more]
  · intro distinct
    have none : firstRepeated? [] (names template) = none :=
      firstRepeated?_eq_none distinct (by simp)
    have parsing : parse template = .ok (segments template) := by
      rw [parse_eq, none]
    have compiling : ∃ compiled, compile template = .ok compiled := by
      rw [compile, parsing]
      exact ⟨_, rfl⟩
    refine ⟨⟨_, parsing⟩, compiling, ?_⟩
    obtain ⟨compiled, compiling⟩ := compiling
    rw [Route.compile, compiling]
    exact ⟨_, rfl⟩

/-- The second `a` comes before the second `b`. -/
example : parse "/:b/:a/:a/:b" = .error ⟨"/:b/:a/:a/:b", "a"⟩ := rfl

end Routebook.Template
