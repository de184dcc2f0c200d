import Routebook.Proofs.Placeholders
import Routebook.Proofs.Matching

/-!
# Endings of paths

A template that does not end with a separator accepts one at the end of a path, and only one: the
path with it gives the same values as the path without. If a template ends with a separator, then
every path that it accepts does so too. No value ends with a separator, so a filled template ends as
its own text does.
-/
namespace Routebook

namespace Template

/-- The last character of a text is a separator. -/
def Ended (text : String) : Prop := text.toList.getLast? = some Pattern.separator

instance (text : String) : Decidable (Ended text) := inferInstanceAs (Decidable (_ = _))

theorem ended_append_iff {left right : String} (nonempty : right ≠ "") :
    Ended (left ++ right) ↔ Ended right := by
  have filled : right.toList ≠ [] := by simpa using nonempty
  rw [Ended, Ended, String.toList_append, List.getLast?_append_of_ne_nil _ filled]

theorem ended_append_separator (text : String) : Ended (text ++ "/") :=
  (ended_append_iff (by decide)).mpr rfl

theorem not_ended_of_free {text : String} (free : Pattern.separator ∉ text.toList) :
    ¬Ended text := fun ended => free (List.mem_of_getLast? ended)

/-! ### Segments that can be told apart at their ends -/

/-- A segment has text, and that of a parameter has no separator. -/
structure Solid (segment : Segment) : Prop where
  nonempty : segment.text ≠ ""
  free : segment.isParam = true → Pattern.separator ∉ segment.text.toList

theorem parameter_mem_joinLiteral_iff {text name : List Char} {pieces : List Piece} :
    .parameter name ∈ joinLiteral text pieces ↔ .parameter name ∈ pieces := by
  unfold joinLiteral
  split <;> simp

/-- The name of a parameter is made of name characters. -/
theorem letters_of_mem_scan {text name : List Char} (member : .parameter name ∈ (scan text).2) :
    ∀ c ∈ name, isNameChar c = true := by
  induction text with
  | nil => cases member
  | cons c rest ih =>
    rw [scan_cons] at member
    split at member
    · exact ih member
    · split at member
      · rcases List.mem_cons.mp member with same | later
        · -- The name is the run behind the colon.
          cases same
          rw [scan_fst]
          exact fun d => List.mem_takeWhile_imp
        · exact ih later
      · exact ih (parameter_mem_joinLiteral_iff.mp (parameter_mem_joinLiteral_iff.mp member))

theorem ne_nil_of_mem_reduced {pieces : List Piece} (reduced : Reduced pieces) {text : List Char}
    (member : .literal text ∈ pieces) : text ≠ [] := by
  induction reduced with
  | nil => cases member
  | parameter named more ih => exact ih (by simpa using member)
  | literal nonempty more last ih =>
    rcases List.mem_cons.mp member with same | later
    · cases same
      exact nonempty
    · exact ih later

theorem mem_place {start : Nat} {pieces : List Piece} {segment : Segment}
    (member : segment ∈ place start pieces) :
    ∃ piece ∈ pieces, segment.text = String.ofList (pieceText piece) ∧
      segment.isParam = piece.name?.isSome := by
  induction pieces generalizing start with
  | nil => cases member
  | cons piece pieces ih =>
    rw [place_cons] at member
    rcases List.mem_cons.mp member with rfl | later
    · exact ⟨piece, List.mem_cons_self, rfl, rfl⟩
    · obtain ⟨other, inside, same⟩ := ih later
      exact ⟨other, List.mem_cons_of_mem _ inside, same⟩

theorem solid_of_mem_segments {template : String} {segment : Segment}
    (member : segment ∈ segments template) : Solid segment := by
  obtain ⟨piece, inside, text, kind⟩ := mem_place member
  cases piece with
  | literal own =>
    refine ⟨?_, fun param => ?_⟩
    · rw [text, ne_eq, String.ofList_eq_empty_iff]
      exact ne_nil_of_mem_reduced (reduced_pieces _) inside
    · rw [kind] at param
      cases param
  | parameter name =>
    refine ⟨by simp [text, pieceText], fun _ slash => ?_⟩
    rw [text, String.toList_ofList, pieceText] at slash
    have own : Pattern.separator ∈ name := by simpa [Pattern.separator] using slash
    exact absurd (letters_of_mem_scan (parameter_mem_joinLiteral_iff.mp inside) _ own) (by decide)

/-! ### How a filled template ends -/

section Filled

variable {segments : List Segment} {values : List String}

theorem fill_ne_empty (solid : ∀ segment ∈ segments, Solid segment)
    (count : values.length = segments.countP (·.isParam))
    (proper : ∀ value ∈ values, IsValue value) (filled : segments ≠ []) :
    fill segments values ≠ "" := by
  cases segments with
  | nil => exact absurd rfl filled
  | cons segment rest =>
    cases kind : segment.isParam with
    | false =>
      rw [fill_cons_of_literal _ _ kind]
      simp [(solid segment List.mem_cons_self).nonempty]
    | true =>
      cases values with
      | nil => simp [kind] at count
      | cons value values =>
        rw [fill_cons_of_param _ _ _ kind]
        simp [(proper value List.mem_cons_self).1]

/-- Whatever the values are, filled segments end as their own text does. -/
theorem ended_fill_iff (solid : ∀ segment ∈ segments, Solid segment)
    (count : values.length = segments.countP (·.isParam))
    (proper : ∀ value ∈ values, IsValue value) :
    Ended (fill segments values) ↔ Ended (String.join (segments.map (·.text))) := by
  induction segments generalizing values with
  | nil => rfl
  | cons segment rest ih =>
    obtain ⟨own, others⟩ := List.forall_mem_cons.mp solid
    have joined : String.join ((segment :: rest).map (·.text)) =
        segment.text ++ String.join (rest.map (·.text)) := by simp
    -- Behind the last segment nothing decides any more; before it the rest does.
    have last : rest ≠ [] → String.join (rest.map (·.text)) ≠ "" := by
      intro filled empty
      obtain ⟨next, more, rfl⟩ := List.exists_cons_of_ne_nil filled
      have nonempty := (others next List.mem_cons_self).nonempty
      simp [nonempty] at empty
    rw [joined]
    cases kind : segment.isParam with
    | false =>
      rw [fill_cons_of_literal _ _ kind]
      have count' : values.length = rest.countP (·.isParam) := by simpa [kind] using count
      by_cases only : rest = []
      · subst only
        simp [fill]
      · rw [ended_append_iff (fill_ne_empty others count' proper only),
          ended_append_iff (last only), ih others count' proper]
    | true =>
      cases values with
      | nil => simp [kind] at count
      | cons value values =>
        obtain ⟨first, proper⟩ := List.forall_mem_cons.mp proper
        rw [fill_cons_of_param _ _ _ kind]
        have count' : values.length = rest.countP (·.isParam) := by simpa [kind] using count
        by_cases only : rest = []
        · subst only
          have value_open := not_ended_of_free first.2
          have text_open := not_ended_of_free (own.free kind)
          simp [fill, value_open, text_open]
        · rw [ended_append_iff (fill_ne_empty others count' proper only),
            ended_append_iff (last only), ih others count' proper]

end Filled

theorem join_text_segments (template : String) :
    String.join ((segments template).map (·.text)) = template := by
  rw [← String.toList_inj, String.toList_join, List.flatMap_map]
  exact flatMap_text_segments template

variable {template candidate : String} {values : List String}

theorem ended_fill_segments_iff (decomposes : Decomposition (segments template) values candidate) :
    Ended (fill (segments template) values) ↔ Ended template := by
  rw [ended_fill_iff (fun _ => solid_of_mem_segments) decomposes.count decomposes.proper,
    join_text_segments]

/-- A template that ends with a separator decomposes only candidates that do so too. -/
theorem ended_of_decomposition (ended : Ended template)
    (decomposes : Decomposition (segments template) values candidate) : Ended candidate := by
  rcases decomposes.spelled with rfl | rfl
  · exact (ended_fill_segments_iff decomposes).mpr ended
  · exact ended_append_separator _

/-- Any other template decomposes a candidate with a separator at its end as it does without. -/
theorem decomposition_append_separator_iff (opened : ¬Ended template) (tail : ¬Ended candidate) :
    Decomposition (segments template) values (candidate ++ "/") ↔
      Decomposition (segments template) values candidate := by
  constructor
  · intro decomposes
    refine ⟨decomposes.count, decomposes.proper, Or.inl ?_⟩
    rcases decomposes.spelled with same | closed
    · -- The filled template does not end with the separator.
      have last := ended_append_separator candidate
      rw [same, ended_fill_segments_iff decomposes] at last
      exact absurd last opened
    · exact (String.append_left_inj "/").mp closed
  · intro decomposes
    refine ⟨decomposes.count, decomposes.proper, Or.inr ?_⟩
    rcases decomposes.spelled with same | closed
    · rw [same]
    · rw [closed] at tail
      exact absurd (ended_append_separator _) tail

theorem not_decomposition_of_two_separators (opened : ¬Ended template)
    (double : ['/', '/'] <:+ candidate.toList) :
    ¬Decomposition (segments template) values candidate := by
  intro decomposes
  obtain ⟨front, whole⟩ := double
  have candidate_eq : candidate = String.ofList front ++ "/" ++ "/" := by
    rw [← String.toList_inj, ← whole]
    simp
  have filled : Ended (fill (segments template) values) := by
    rcases decomposes.spelled with same | closed
    · rw [← same, candidate_eq]
      exact ended_append_separator _
    · rw [candidate_eq] at closed
      rw [← (String.append_left_inj "/").mp closed]
      exact ended_append_separator _
  exact opened ((ended_fill_segments_iff decomposes).mp filled)

end Template

namespace Route

open Template

variable {template : String} {route : Route}

/-- Candidates with the same decompositions are answered with the same values. -/
theorem params?_congr (compiled : compile template = .ok route) {one two : String}
    (alike : ∀ values, Decomposition (segments template) values one ↔
      Decomposition (segments template) values two) :
    route.params? one = route.params? two := by
  rw [params?, params?]
  rcases match?_cases compiled one with ⟨failed, nowhere⟩ | ⟨values, answer, best⟩
  · rcases match?_cases compiled two with ⟨failed', -⟩ | ⟨values, -, best⟩
    · rw [failed, failed']
    · exact absurd ((alike values).mpr best.decomposes) (nowhere values)
  · rcases match?_cases compiled two with ⟨-, nowhere⟩ | ⟨others, answer', best'⟩
    · exact absurd ((alike values).mp best.decomposes) (nowhere values)
    · -- What is greatest among the decompositions of the one is so among those of the other.
      have moved : GreatestDecomposition (segments template) others one :=
        ⟨(alike others).mpr best'.decomposes,
          fun more decomposes => best'.greatest more ((alike more).mp decomposes)⟩
      rw [answer, answer', best.eq moved fun _ => Iff.rfl]
      rfl

theorem match?_eq_none (compiled : compile template = .ok route) {candidate : String}
    (nowhere : ∀ values, ¬Decomposition (segments template) values candidate) :
    route.match? candidate = none := by
  rcases match?_cases compiled candidate with ⟨failed, -⟩ | ⟨values, -, best⟩
  · exact failed
  · exact absurd best.decomposes (nowhere values)

/-- One separator at the end of a path makes no difference for a template without one there, and two
are refused. A template that ends with a separator asks for it. -/
theorem params_of_trailing_separator (compiled : compile template = .ok route) :
    (¬Ended template →
      (∀ candidate, ¬Ended candidate →
        route.params? candidate = route.params? (candidate ++ "/")) ∧
      ∀ candidate : String, ['/', '/'] <:+ candidate.toList → route.match? candidate = none) ∧
    (Ended template → ∀ candidate, ¬Ended candidate → route.match? candidate = none) := by
  constructor
  · intro opened
    constructor
    · intro candidate tail
      exact params?_congr compiled fun _ => (decomposition_append_separator_iff opened tail).symm
    · intro candidate double
      exact match?_eq_none compiled fun _ => not_decomposition_of_two_separators opened double
  · intro ended candidate tail
    exact match?_eq_none compiled fun _ decomposes => tail (ended_of_decomposition ended decomposes)

/-- Two parameters at the end, of which the second must not take the separator, and a template that
asks for one. -/
theorem params_of_trailing_separator_adjacent :
    (∃ route, compile "/:a:b" = .ok route ∧
      route.params? "/xyz" = route.params? "/xyz/" ∧ route.match? "/xyz//" = none) ∧
    ∃ route, compile "/:a/" = .ok route ∧ route.match? "/x" = none := by
  have opened : compile "/:a:b" = .ok ⟨"/:a:b", "^/([^/]+)([^/]+)/?$", ["a", "b"],
      [.start, .char '/', .capture, .capture, .optional '/', .finish]⟩ := rfl
  have ended : compile "/:a/" = .ok ⟨"/:a/", "^/([^/]+)//?$", ["a"],
      [.start, .char '/', .capture, .char '/', .optional '/', .finish]⟩ := rfl
  obtain ⟨one, two⟩ := (params_of_trailing_separator opened).1 (by decide)
  refine ⟨⟨_, opened, one "/xyz" (by decide), two "/xyz//" (by decide)⟩, _, ended, ?_⟩
  exact (params_of_trailing_separator ended).2 (by decide) "/x" (by decide)

end Route

end Routebook
