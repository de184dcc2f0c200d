import Routebook.Proofs.Matching

/-!
# Recovery of values

Values that fill a template are found again in the filled text exactly if a separator stands
between each parameter and the next. With the separators a text has one decomposition at most: a
value ends where the first separator behind it says. Without one, the second of the two parameters
can hold a copy of the literal text before it, and the first one takes that copy too.
-/
namespace Routebook

namespace Template

/-- Between two parameters with no other between them stands a literal that holds a separator. -/
def Separated (segments : List Segment) : Prop :=
  ∀ before first between second after,
    segments = before ++ first :: between ++ second :: after →
    first.isParam = true → second.isParam = true →
    (∀ segment ∈ between, segment.isParam = false) →
    ∃ segment ∈ between, Pattern.separator ∈ segment.text.toList

theorem Separated.tail {segment : Segment} {segments : List Segment}
    (separated : Separated (segment :: segments)) : Separated segments := by
  intro before first between second after whole
  exact separated (segment :: before) first between second after (by rw [whole]; rfl)

end Template

namespace Pattern

/-- Between two captures comes a separator; `pending` says that a capture has come and no separator
since. -/
def SeparatedFrom : Bool → Pattern → Prop
  | _, [] => True
  | pending, .capture :: items => pending = false ∧ SeparatedFrom true items
  | pending, .char c :: items => SeparatedFrom (pending && c ≠ separator) items
  | pending, _ :: items => SeparatedFrom pending items

instance decidableSeparatedFrom :
    (pending : Bool) → (items : Pattern) → Decidable (SeparatedFrom pending items)
  | _, [] => inferInstanceAs (Decidable True)
  | _, .capture :: items =>
    have := decidableSeparatedFrom true items
    inferInstanceAs (Decidable (_ ∧ _))
  | pending, .char c :: items => decidableSeparatedFrom (pending && c ≠ separator) items
  | pending, .start :: items => decidableSeparatedFrom pending items
  | pending, .finish :: items => decidableSeparatedFrom pending items
  | pending, .optional _ :: items => decidableSeparatedFrom pending items

/-- Behind a capture all texts that are read begin with the same characters, up to the first
separator. -/
theorem takeWhile_of_reads {items : Pattern} (separated : SeparatedFrom true items)
    (plain : Plain items) :
    ∃ front, ∀ values text, Reads items values text →
      text.takeWhile (· ≠ separator) = front := by
  induction items with
  | nil =>
    refine ⟨[], fun values text reads => ?_⟩
    rcases (reads_nil_iff.mp reads).2 with rfl | rfl <;> rfl
  | cons item items ih =>
    obtain ⟨own, tail⟩ := List.forall_mem_cons.mp plain
    rcases own with rfl | ⟨c, rfl⟩
    · -- Another capture would come before a separator.
      cases separated.1
    · by_cases slash : c = separator
      · refine ⟨[], fun values text reads => ?_⟩
        obtain ⟨rest, rfl, -⟩ := reads_char_iff.mp reads
        simp [slash]
      · obtain ⟨front, same⟩ := ih (by simpa [SeparatedFrom, slash] using separated) tail
        refine ⟨c :: front, fun values text reads => ?_⟩
        obtain ⟨rest, rfl, more⟩ := reads_char_iff.mp reads
        have kept := same values rest more
        simp [slash, ← kept]

/-- A text has one reading at most. -/
theorem reads_unique {items : Pattern} {pending : Bool} {values others : List String}
    {text : List Char} (separated : SeparatedFrom pending items) (plain : Plain items)
    (one : Reads items values text) (two : Reads items others text) : values = others := by
  induction items generalizing pending values others text with
  | nil => rw [(reads_nil_iff.mp one).1, (reads_nil_iff.mp two).1]
  | cons item items ih =>
    obtain ⟨own, tail⟩ := List.forall_mem_cons.mp plain
    rcases own with rfl | ⟨c, rfl⟩
    · obtain ⟨value, values, rest, rfl, rfl, own, more⟩ := reads_capture_iff.mp one
      obtain ⟨other, others, rest', rfl, same, own', more'⟩ := reads_capture_iff.mp two
      -- Both values end where the same front begins, and it runs up to the same separator.
      obtain ⟨front, fronts⟩ := takeWhile_of_reads separated.2 tail
      have ends : value.toList ++ front = other.toList ++ front := by
        have cut := congrArg (List.takeWhile (· ≠ separator)) same
        rwa [takeWhile_value_append own, takeWhile_value_append own', fronts _ _ more,
          fronts _ _ more'] at cut
      have equal : value = other := String.toList_inj.mp (List.append_cancel_right ends)
      subst equal
      rw [List.append_cancel_left same] at more
      rw [ih separated.2 tail more more']
    · obtain ⟨rest, rfl, more⟩ := reads_char_iff.mp one
      obtain ⟨rest', same, more'⟩ := reads_char_iff.mp two
      cases same
      exact ih separated tail more more'

theorem SeparatedFrom.of_append {pending : Bool} {front items : Pattern}
    (separated : SeparatedFrom pending (front ++ items)) :
    ∃ waiting, SeparatedFrom waiting items := by
  induction front generalizing pending with
  | nil => exact ⟨pending, separated⟩
  | cons item front ih =>
    cases item with
    | capture => exact ih separated.2
    | char c => exact ih separated
    | start => exact ih separated
    | finish => exact ih separated
    | optional c => exact ih separated

theorem separatedFrom_chars {chars : List Char} {pending : Bool} {items : Pattern} :
    SeparatedFrom pending (chars.map .char ++ items) ↔
      SeparatedFrom (pending && decide (separator ∉ chars)) items := by
  induction chars generalizing pending with
  | nil => simp
  | cons c chars ih =>
    simp only [List.map_cons, List.cons_append, SeparatedFrom, ih]
    by_cases slash : c = separator <;> simp [slash, eq_comm]

end Pattern

namespace Template

open Pattern

/-- What separates segments separates their items. A `pending` capture in front asks for a separator
before the next one. -/
theorem separatedFrom_body {segments : List Segment} {pending : Bool}
    (separated : Separated segments)
    (ahead : pending = true → ∀ between second after, segments = between ++ second :: after →
      second.isParam = true → (∀ segment ∈ between, segment.isParam = false) →
      ∃ segment ∈ between, separator ∈ segment.text.toList) :
    SeparatedFrom pending (body segments) := by
  induction segments generalizing pending with
  | nil => exact trivial
  | cons segment segments ih =>
    cases kind : segment.isParam with
    | true =>
      rw [body_cons_of_param _ kind]
      constructor
      · cases pending with
        | false => rfl
        | true =>
          -- Nothing stands between the capture in front and this one.
          obtain ⟨other, member, -⟩ := ahead rfl [] segment segments rfl kind (by simp)
          cases member
      · refine ih separated.tail fun _ between second after whole param literal => ?_
        exact separated [] segment between second after (by rw [whole]; rfl) kind param literal
    | false =>
      rw [body_cons_of_literal _ kind, separatedFrom_chars]
      refine ih separated.tail fun waiting between second after whole param literal => ?_
      obtain ⟨waits, missing⟩ := Bool.and_eq_true_iff.mp waiting
      obtain ⟨other, member, slash⟩ := ahead waits (segment :: between) second after
        (by rw [whole]; rfl) param (List.forall_mem_cons.mpr ⟨kind, literal⟩)
      -- The separator that is asked for is not in this literal, so it comes later.
      rcases List.mem_cons.mp member with rfl | later
      · exact absurd slash (of_decide_eq_true missing)
      · exact ⟨other, later, slash⟩

/-- Segments are separated exactly if their items are. -/
theorem separated_iff {segments : List Segment} :
    Separated segments ↔ SeparatedFrom false (body segments) := by
  constructor
  · intro separated
    exact separatedFrom_body separated (by simp)
  · intro apart before first between second after whole param param' literal
    rw [whole, List.append_assoc, List.cons_append, body_append, body_cons_of_param _ param,
      body_append, body_literals between literal, body_cons_of_param _ param'] at apart
    obtain ⟨waiting, rest⟩ := apart.of_append
    -- The second capture comes next, so the characters before it hold a separator.
    have closed := (separatedFrom_chars.mp rest.2).1
    have member : separator ∈ between.flatMap (·.text.toList) := by simpa using closed
    exact List.mem_flatMap.mp member

instance (segments : List Segment) : Decidable (Separated segments) :=
  decidable_of_iff _ separated_iff.symm

example : Separated (segments "/:a/x/:b") ∧ ¬Separated (segments "/:a.:b/") := by decide

/-- With separators between its parameters a template decomposes a text in one way at most. -/
theorem decomposition_unique {segments : List Segment} {values others : List String}
    {candidate : String} (separated : Separated segments)
    (one : Decomposition segments values candidate)
    (two : Decomposition segments others candidate) : values = others := by
  have apart : SeparatedFrom false (body segments) := separated_iff.mp separated
  exact reads_unique apart (plain_body segments) (reads_body_iff.mpr one) (reads_body_iff.mpr two)

/-- The shortest values for the parameters of segments. -/
def shortest (segments : List Segment) : List String :=
  List.replicate (segments.countP (·.isParam)) "x"

theorem length_shortest (segments : List Segment) :
    (shortest segments).length = segments.countP (·.isParam) := List.length_replicate

theorem isValue_of_mem_shortest {segments : List Segment} {value : String}
    (member : value ∈ shortest segments) : IsValue value := by
  rw [(List.mem_replicate.mp member).2]
  decide

section Between

variable {before between after : List Segment} {first second : Segment} {value next : String}

/-- Two values for two parameters with only literals between them, and the shortest values for all
other parameters. -/
theorem fill_between (param : first.isParam = true) (param' : second.isParam = true)
    (literal : ∀ segment ∈ between, segment.isParam = false) :
    fill (before ++ first :: between ++ second :: after)
        (shortest before ++ value :: next :: shortest after) =
      fill before (shortest before) ++ (value ++ (String.join (between.map (·.text)) ++
        (next ++ fill after (shortest after)))) := by
  have none : between.countP (·.isParam) = 0 := countP_literals between literal
  have middle := fill_append between (second :: after) [] (next :: shortest after) none.symm
  rw [List.nil_append, fill_literals between [] literal, fill_cons_of_param _ _ _ param'] at middle
  rw [List.append_assoc, fill_append before _ _ _ (length_shortest before), List.cons_append,
    fill_cons_of_param _ _ _ param, middle]

theorem decomposition_between (param : first.isParam = true) (param' : second.isParam = true)
    (literal : ∀ segment ∈ between, segment.isParam = false)
    (own : IsValue value) (own' : IsValue next) :
    Decomposition (before ++ first :: between ++ second :: after)
      (shortest before ++ value :: next :: shortest after)
      (fill (before ++ first :: between ++ second :: after)
        (shortest before ++ value :: next :: shortest after)) := by
  have none : between.countP (·.isParam) = 0 := countP_literals between literal
  refine ⟨by simp [shortest, param, param', none], ?_, Or.inl rfl⟩
  intro other member
  rcases List.mem_append.mp member with early | late
  · exact isValue_of_mem_shortest early
  · rcases List.mem_cons.mp late with rfl | later
    · exact own
    · rcases List.mem_cons.mp later with rfl | last
      · exact own'
      · exact isValue_of_mem_shortest last

end Between

theorem isValue_around {text : String} (free : separator ∉ text.toList) :
    IsValue ("x" ++ text ++ "x") := by
  have other : separator ≠ 'x' := by decide
  constructor
  · simp
  · simp [free, other]

/-- Two parameters without a separator between them can take their text in two ways. The first one
is longer in the way that the values do not come from. -/
theorem exists_longer_decomposition {segments : List Segment} (apart : ¬Separated segments) :
    ∃ values others, Decomposition segments values (fill segments values) ∧
      Decomposition segments others (fill segments values) ∧
      values.map String.length < others.map String.length := by
  simp only [Separated, Classical.not_forall, not_exists, not_and] at apart
  obtain ⟨before, first, between, second, after, rfl, param, param', literal, free⟩ := apart
  -- The text between the two parameters, with a character on either side, is a value itself.
  let text := String.join (between.map (·.text))
  have single : IsValue "x" := by decide
  have wide : IsValue ("x" ++ text ++ "x") := by
    refine isValue_around fun member => ?_
    obtain ⟨part, own, slash⟩ := List.mem_flatMap.mp (String.toList_join ▸ member)
    obtain ⟨segment, inside, rfl⟩ := List.mem_map.mp own
    exact free segment inside slash
  have longer : "x".length < ("x" ++ text ++ "x").length := by
    have one : "x".length = 1 := rfl
    rw [String.length_append, String.length_append]
    omega
  have same : fill (before ++ first :: between ++ second :: after)
        (shortest before ++ "x" :: ("x" ++ text ++ "x") :: shortest after) =
      fill (before ++ first :: between ++ second :: after)
        (shortest before ++ ("x" ++ text ++ "x") :: "x" :: shortest after) := by
    rw [fill_between param param' literal, fill_between param param' literal]
    simp only [text, String.append_assoc]
  refine ⟨_, _, decomposition_between param param' literal single wide,
    same ▸ decomposition_between param param' literal wide single, ?_⟩
  rw [List.map_append, List.map_append]
  exact List.append_left_lt (List.cons_lt_cons_iff.mpr (Or.inl longer))

end Template

namespace Route

open Template

variable {template : String} {route : Route}

/-- With separators between its parameters a route answers with the decomposition that there is. -/
theorem match?_of_separated (compiled : compile template = .ok route)
    (separated : Separated (segments template)) {values : List String} {candidate : String}
    (decomposes : Decomposition (segments template) values candidate) :
    route.match? candidate = some ⟨route, candidate, route.keys.zip values⟩ := by
  rcases match?_cases compiled candidate with ⟨-, nowhere⟩ | ⟨others, answer, best⟩
  · exact absurd decomposes (nowhere values)
  · rw [answer, decomposition_unique separated best.decomposes decomposes]

/-- A decomposition is not the answer if there is one with longer values. -/
theorem params?_of_longer_decomposition (compiled : compile template = .ok route)
    {values others : List String} {candidate : String}
    (decomposes : Decomposition (segments template) values candidate)
    (other : Decomposition (segments template) others candidate)
    (longer : values.map String.length < others.map String.length) :
    ∃ params, route.params? candidate = some params ∧ params.map Prod.snd ≠ values := by
  rcases match?_cases compiled candidate with ⟨-, nowhere⟩ | ⟨taken, answer, best⟩
  · exact absurd decomposes (nowhere values)
  · refine ⟨route.keys.zip taken, by rw [params?, answer]; rfl, ?_⟩
    have count := keys_length_of_decomposition compiled best.decomposes
    rw [List.map_snd_zip (by omega)]
    rintro rfl
    -- The values would have to be greatest, and the others are longer.
    have different : others ≠ taken := by
      rintro rfl
      exact absurd longer (List.lt_irrefl _)
    exact absurd longer (List.lt_asymm (best.greatest others other different))

/-- Matching a filled template gives back what it was filled with, and so it does with a separator
more at the end. -/
def Recovers (route : Route) (segments : List Segment) : Prop :=
  ∀ values, values.length = route.keys.length → (∀ value ∈ values, IsValue value) →
    route.params? (fill segments values) = some (route.keys.zip values) ∧
      route.params? (fill segments values ++ "/") = some (route.keys.zip values)

/-- All values that fill a template are recovered exactly if its parameters are separated. If they
are not, some values fill it to a text that is matched with other values. -/
theorem params_of_filled_iff_separated (compiled : compile template = .ok route) :
    ∃ segments, parse template = .ok segments ∧
      (route.Recovers segments ↔ Separated segments) ∧
      (¬Separated segments → ∃ values, values.length = route.keys.length ∧
        (∀ value ∈ values, IsValue value) ∧
        ∃ params, route.params? (fill segments values) = some params ∧
          params.map Prod.snd ≠ values) := by
  obtain ⟨parsed, -, keys, -, -⟩ := compile_eq_ok compiled
  have count : route.keys.length = (segments template).countP (·.isParam) := by
    rw [keys, count_keys]
  have lost (apart : ¬Separated (segments template)) :
      ∃ values, values.length = route.keys.length ∧ (∀ value ∈ values, IsValue value) ∧
        ∃ params, route.params? (fill (segments template) values) = some params ∧
          params.map Prod.snd ≠ values := by
    obtain ⟨values, others, decomposes, other, longer⟩ := exists_longer_decomposition apart
    exact ⟨values, by rw [count, decomposes.count], decomposes.proper,
      params?_of_longer_decomposition compiled decomposes other longer⟩
  refine ⟨segments template, parsed, ⟨?_, ?_⟩, lost⟩
  · intro recovered
    apply Classical.byContradiction
    intro apart
    obtain ⟨values, size, proper, params, answer, different⟩ := lost apart
    rw [(recovered values size proper).1] at answer
    apply different
    rw [← Option.some.inj answer, List.map_snd_zip (by omega)]
  · intro separated values size proper
    have filled (candidate : String) (spelled : candidate = fill (segments template) values ∨
        candidate = fill (segments template) values ++ "/") :
        route.params? candidate = some (route.keys.zip values) := by
      rw [params?, match?_of_separated compiled separated ⟨size.trans count, proper, spelled⟩]
      rfl
    exact ⟨filled _ (Or.inl rfl), filled _ (Or.inr rfl)⟩

/-- The separator behind the second parameter does not separate it from the first one. -/
theorem params_of_filled_iff_separated_at_point :
    ∃ route, compile "/:a.:b/" = .ok route ∧
      ∃ segments, parse "/:a.:b/" = .ok segments ∧
        (route.Recovers segments ↔ Separated segments) ∧
        (¬Separated segments → ∃ values, values.length = route.keys.length ∧
          (∀ value ∈ values, IsValue value) ∧
          ∃ params, route.params? (fill segments values) = some params ∧
            params.map Prod.snd ≠ values) :=
  have compiled : compile "/:a.:b/" = .ok ⟨"/:a.:b/", "^/([^/]+)\\.([^/]+)//?$", ["a", "b"],
      [.start, .char '/', .capture, .char '.', .capture, .char '/', .optional '/', .finish]⟩ := rfl
  ⟨_, compiled, params_of_filled_iff_separated compiled⟩

end Route

end Routebook
