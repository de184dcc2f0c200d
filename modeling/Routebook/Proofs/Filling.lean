import Routebook.Route

/-!
# Filling templates

Values put in the places of a template's parameters make a text. A candidate decomposes into values
if it is that text, or that text and one separator more. `Pattern.Reads` says the same of the items
that a pattern has between its anchors, item by item, so proofs about a search can follow its steps.
-/
namespace Routebook

/-- What a parameter can take: some text without a separator. -/
def IsValue (value : String) : Prop := value ≠ "" ∧ Pattern.separator ∉ value.toList

instance (value : String) : Decidable (IsValue value) := inferInstanceAs (Decidable (_ ∧ _))

theorem length_pos_of_isValue {value : String} (proper : IsValue value) : 0 < value.length := by
  rw [Nat.pos_iff_ne_zero]
  exact fun zero => proper.1 (String.length_eq_zero_iff.mp zero)

namespace Template

/-- The text of segments with values in the places of their parameters, left to right. -/
def fill : List Segment → List String → String
  | [], _ => ""
  | segment :: segments, values =>
    if segment.isParam then values.headD "" ++ fill segments values.tail
    else segment.text ++ fill segments values

/-- One value for each parameter, so that the filled segments are the candidate, up to one
separator at its end. -/
structure Decomposition (segments : List Segment) (values : List String) (candidate : String) :
    Prop where
  count : values.length = segments.countP (·.isParam)
  proper : ∀ value ∈ values, IsValue value
  spelled : candidate = fill segments values ∨ candidate = fill segments values ++ "/"

theorem fill_cons_of_literal {segment : Segment} (segments : List Segment) (values : List String)
    (literal : segment.isParam = false) :
    fill (segment :: segments) values = segment.text ++ fill segments values := by
  simp [fill, literal]

theorem fill_cons_of_param {segment : Segment} (segments : List Segment) (value : String)
    (values : List String) (param : segment.isParam = true) :
    fill (segment :: segments) (value :: values) = value ++ fill segments values := by
  simp [fill, param]

theorem fill_append (left right : List Segment) (first second : List String)
    (count : first.length = left.countP (·.isParam)) :
    fill (left ++ right) (first ++ second) = fill left first ++ fill right second := by
  induction left generalizing first with
  | nil =>
    have none : first = [] := by simpa using count
    simp [fill, none]
  | cons segment left ih =>
    cases kind : segment.isParam with
    | false =>
      have rest := ih first (by simpa [kind] using count)
      rw [List.cons_append, fill_cons_of_literal _ _ kind, fill_cons_of_literal _ _ kind, rest,
        String.append_assoc]
    | true =>
      cases first with
      | nil => simp [kind] at count
      | cons value first =>
        -- The value is taken here, and the others are for the segments behind.
        have rest := ih first (by simpa [kind] using count)
        rw [List.cons_append, List.cons_append, fill_cons_of_param _ _ _ kind,
          fill_cons_of_param _ _ _ kind, rest, String.append_assoc]

/-- Without parameters nothing is filled in. -/
theorem fill_literals (segments : List Segment) (values : List String)
    (literal : ∀ segment ∈ segments, segment.isParam = false) :
    fill segments values = String.join (segments.map (·.text)) := by
  induction segments with
  | nil => rfl
  | cons segment segments ih =>
    obtain ⟨first, rest⟩ := List.forall_mem_cons.mp literal
    rw [fill_cons_of_literal _ _ first, ih rest]
    simp

/-- The items that segments stand for. -/
def body (segments : List Segment) : Pattern := (segments.map Part.ofSegment).flatMap Part.items

@[simp] theorem body_nil : body [] = [] := rfl

theorem body_cons_of_literal {segment : Segment} (segments : List Segment)
    (literal : segment.isParam = false) :
    body (segment :: segments) = segment.text.toList.map .char ++ body segments := by
  simp [body, Part.ofSegment, Part.items, literal]

theorem body_cons_of_param {segment : Segment} (segments : List Segment)
    (param : segment.isParam = true) :
    body (segment :: segments) = .capture :: body segments := by
  simp [body, Part.ofSegment, Part.items, param]

theorem body_append (left right : List Segment) :
    body (left ++ right) = body left ++ body right := by
  simp [body]

/-- Literals stand for their joined text. -/
theorem body_literals (segments : List Segment)
    (literal : ∀ segment ∈ segments, segment.isParam = false) :
    body segments = (segments.flatMap (·.text.toList)).map .char := by
  induction segments with
  | nil => rfl
  | cons segment segments ih =>
    obtain ⟨first, rest⟩ := List.forall_mem_cons.mp literal
    rw [body_cons_of_literal _ first, ih rest, List.flatMap_cons, List.map_append]

/-- Literals have no place for a value. -/
theorem countP_literals (segments : List Segment)
    (literal : ∀ segment ∈ segments, segment.isParam = false) :
    segments.countP (·.isParam) = 0 := by
  rw [List.countP_eq_zero]
  intro segment member
  rw [literal segment member]
  decide

end Template

namespace Pattern

/-- What stands behind the items of a template: a separator that may be missing, and the end. -/
def closing : Pattern := [.optional separator, .finish]

/-- Items that stand for a character each, or for a value. -/
def Plain (items : Pattern) : Prop := ∀ item ∈ items, item = .capture ∨ ∃ c, item = .char c

/-- `Reads items values text`: items take up a text, up to a separator at its end, and `values` are
what the captures hold. -/
inductive Reads : Pattern → List String → List Char → Prop where
  | done : Reads [] [] []
  | closed : Reads [] [] [separator]
  | char (c : Char) {items values rest} (more : Reads items values rest) :
      Reads (.char c :: items) values (c :: rest)
  | capture {value items values rest} (proper : IsValue value) (more : Reads items values rest) :
      Reads (.capture :: items) (value :: values) (value.toList ++ rest)

theorem reads_nil_iff {values : List String} {text : List Char} :
    Reads [] values text ↔ values = [] ∧ (text = [] ∨ text = [separator]) := by
  constructor
  · intro reads
    cases reads with
    | done => exact ⟨rfl, Or.inl rfl⟩
    | closed => exact ⟨rfl, Or.inr rfl⟩
  · rintro ⟨rfl, rfl | rfl⟩
    · exact .done
    · exact .closed

theorem reads_char_iff {c : Char} {items : Pattern} {values : List String} {text : List Char} :
    Reads (.char c :: items) values text ↔ ∃ rest, text = c :: rest ∧ Reads items values rest := by
  constructor
  · intro reads
    cases reads with
    | char _ more => exact ⟨_, rfl, more⟩
  · rintro ⟨rest, rfl, more⟩
    exact .char c more

theorem reads_capture_iff {items : Pattern} {values : List String} {text : List Char} :
    Reads (.capture :: items) values text ↔ ∃ value others rest, values = value :: others ∧
      text = value.toList ++ rest ∧ IsValue value ∧ Reads items others rest := by
  constructor
  · intro reads
    cases reads with
    | capture proper more => exact ⟨_, _, _, rfl, rfl, proper, more⟩
  · rintro ⟨value, others, rest, rfl, rfl, proper, more⟩
    exact .capture proper more

theorem reads_chars_iff {chars : List Char} {items : Pattern} {values : List String}
    {text : List Char} :
    Reads (chars.map .char ++ items) values text ↔
      ∃ rest, text = chars ++ rest ∧ Reads items values rest := by
  induction chars generalizing text with
  | nil => simp
  | cons c chars ih =>
    simp only [List.map_cons, List.cons_append, reads_char_iff, ih]
    constructor
    · rintro ⟨_, rfl, rest, rfl, more⟩
      exact ⟨rest, rfl, more⟩
    · rintro ⟨rest, rfl, more⟩
      exact ⟨_, rfl, rest, rfl, more⟩

end Pattern

namespace Template

open Pattern

theorem plain_body (segments : List Segment) : Plain (body segments) := by
  intro item member
  simp only [body, List.mem_flatMap, List.mem_map] at member
  obtain ⟨part, -, found⟩ := member
  cases part with
  | literal text =>
    obtain ⟨c, -, rfl⟩ := List.mem_map.mp found
    exact Or.inr ⟨c, rfl⟩
  | wildcard => exact Or.inl (List.mem_singleton.mp found)

private theorem decomposition_iff {segments : List Segment} {values : List String}
    {candidate : String} :
    Decomposition segments values candidate ↔
      values.length = segments.countP (·.isParam) ∧ (∀ value ∈ values, IsValue value) ∧
        (candidate.toList = (fill segments values).toList ∨
          candidate.toList = (fill segments values).toList ++ [separator]) := by
  have toList_iff (text : String) : candidate = text ↔ candidate.toList = text.toList :=
    String.toList_inj.symm
  have closed : "/".toList = [separator] := rfl
  constructor
  · rintro ⟨count, proper, spelled⟩
    rw [toList_iff, toList_iff, String.toList_append, closed] at spelled
    exact ⟨count, proper, spelled⟩
  · rintro ⟨count, proper, spelled⟩
    refine ⟨count, proper, ?_⟩
    rw [toList_iff, toList_iff, String.toList_append, closed]
    exact spelled

/-- Item by item or as a whole, the readings of a candidate are its decompositions. -/
theorem reads_body_iff {segments : List Segment} {values : List String} {candidate : String} :
    Reads (body segments) values candidate.toList ↔ Decomposition segments values candidate := by
  -- The rest of a candidate is a list of characters, no candidate of its own.
  rw [decomposition_iff]
  generalize candidate.toList = text
  induction segments generalizing values text with
  | nil =>
    rw [body_nil, reads_nil_iff]
    constructor
    · rintro ⟨rfl, spelled⟩
      exact ⟨rfl, by simp, by simpa [fill] using spelled⟩
    · rintro ⟨count, -, spelled⟩
      exact ⟨by simpa using count, by simpa [fill] using spelled⟩
  | cons segment segments ih =>
    cases kind : segment.isParam with
    | false =>
      rw [body_cons_of_literal segments kind, reads_chars_iff, fill_cons_of_literal _ _ kind]
      simp only [ih, List.countP_cons, kind, String.toList_append, List.append_assoc]
      constructor
      · rintro ⟨rest, rfl, count, proper, spelled⟩
        exact ⟨by simpa using count, proper, by simpa using spelled⟩
      · rintro ⟨count, proper, rfl | rfl⟩
        · exact ⟨_, rfl, by simpa using count, proper, Or.inl rfl⟩
        · exact ⟨_, rfl, by simpa using count, proper, Or.inr rfl⟩
    | true =>
      -- The first value stands in front, and what is behind it is read by the other segments.
      rw [body_cons_of_param segments kind, reads_capture_iff]
      simp only [ih, List.countP_cons, kind]
      constructor
      · rintro ⟨value, others, rest, rfl, rfl, first, count, proper, spelled⟩
        rw [fill_cons_of_param _ _ _ kind, String.toList_append]
        exact ⟨by simp [count], by simpa using ⟨first, proper⟩, by simpa using spelled⟩
      · rintro ⟨count, proper, spelled⟩
        cases values with
        | nil => simp at count
        | cons value others =>
          obtain ⟨first, proper⟩ := List.forall_mem_cons.mp proper
          rw [fill_cons_of_param _ _ _ kind, String.toList_append, List.append_assoc] at spelled
          refine ⟨value, others, ?_⟩
          rcases spelled with rfl | rfl
          · exact ⟨_, rfl, rfl, first, by simpa using count, proper, Or.inl rfl⟩
          · exact ⟨_, rfl, rfl, first, by simpa using count, proper, Or.inr rfl⟩

end Template

end Routebook
