import Routebook.Proofs.Assembly
import Routebook.Proofs.Matching
import Routebook.Template.Fields

/-!
# Groups of a route

The expression that a pattern reads as matches like a search for its items, and every group takes
part. For a template the groups are those of its parameters, so a route has a text for each of its
keys, and the three ways to ask it agree. The texts are the values of the greatest decomposition.
-/
namespace Routebook

namespace Pattern

open Expression (Place series stops countdown)

/-! ### Stops of the expressions of items -/

theorem mem_downFrom {count high : Nat} : count ∈ downFrom high ↔ 0 < count ∧ count ≤ high := by
  induction high with
  | zero => simp [downFrom]; omega
  | succ high ih => simp [downFrom, ih]; omega

theorem countdown_one (high : Nat) : countdown 1 high = downFrom high := by
  have above : ∀ count ∈ downFrom high, decide (1 ≤ count) = true :=
    fun count member => decide_eq_true (mem_downFrom.mp member).1
  rw [countdown, List.filter_append, List.filter_eq_self.mpr above]
  simp

theorem countdown_zero (high : Nat) : countdown 0 high = downFrom high ++ [0] := by
  simp [countdown]

/-- One character is taken if it is in the set. -/
theorem stops_once (set : Charset) (place : Place) :
    stops (.chars set 1 (some 1)) place =
      match place.rest with
      | [] => []
      | c :: rest => if set.has c then [{ place with fresh := false, rest }] else [] := by
  obtain ⟨fresh, rest, kept⟩ := place
  cases rest with
  | nil => rfl
  | cons c rest =>
    cases own : set.has c with
    | false => simp [stops, own, countdown_one, downFrom]
    | true =>
      have one : min ((rest.takeWhile set.has).length + 1) 1 = 1 :=
        Nat.min_eq_right (Nat.le_add_left 1 _)
      rw [stops, countdown_one, List.takeWhile_cons_of_pos own, List.length_cons, Option.map_some,
        Option.getD_some, one]
      simp [own, downFrom, Place.skip]

/-- One character is preferred to none. -/
theorem stops_optional (set : Charset) (place : Place) :
    stops (.chars set 0 (some 1)) place = stops (.chars set 1 (some 1)) place ++ [place] := by
  have none : place.skip 0 = place := by simp [Place.skip]
  simp [stops, countdown_one, countdown_zero, none]

theorem has_except_separator : Charset.has (.except [separator]) = (· ≠ separator) := by
  funext c
  simp [Charset.has]

/-- A group takes one character or more, the longest text first. -/
theorem stops_captureGroup (number : Nat) (place : Place) :
    stops (captureGroup number) place = (downFrom (room place.rest)).map fun count =>
      ⟨false, place.rest.drop count, place.groups.set number (some (place.rest.take count))⟩ := by
  have inner : stops (captureGroup number) place =
      ((downFrom (room place.rest)).map place.skip).map (·.keep number place) := by
    simp [captureGroup, series, stops, has_except_separator, countdown_one, room]
  rw [inner, List.map_map]
  refine List.map_congr_left fun count member => ?_
  obtain ⟨positive, bound⟩ := mem_downFrom.mp member
  have within := room_le_length place.rest
  have taken : place.rest.length - (place.rest.length - count) = count := by omega
  have some : (count == 0) = false := by simp; omega
  simp [Place.skip, Place.keep, taken, some]

/-- Puts texts into groups, from the group of a number on. -/
def keepFrom : Nat → List (List Char) → List (Option (List Char)) → List (Option (List Char))
  | _, [], groups => groups
  | number, text :: texts, groups => keepFrom (number + 1) texts (groups.set number (some text))

theorem answer?_both (first second : Expression) (place : Place) :
    Expression.answer? (.both first second) place =
      (stops first place).findSome? (Expression.answer? second) := by
  rw [Expression.answer?, stops, List.find?_flatMap, List.map_findSome?]
  rfl

theorem matchFrom_optional (c : Char) (items : Pattern) (fresh : Bool) (text : List Char) :
    matchFrom (.optional c :: items) fresh text =
      (matchFrom (.char c :: items) fresh text).or (matchFrom items fresh text) := by
  cases text with
  | nil => rfl
  | cons d rest => by_cases same : c = d <;> simp [matchFrom, same]

/-- A character in front of items is taken or refused by both. -/
theorem answer?_only {number : Nat} {items : Pattern}
    (follows : ∀ place : Place, Expression.answer? (series (expressions number items)) place =
      (matchFrom items place.fresh place.rest).map (keepFrom number · place.groups))
    (c : Char) (place : Place) :
    (stops (.chars (.only c) 1 (some 1)) place).findSome?
        (Expression.answer? (series (expressions number items))) =
      (matchFrom (.char c :: items) place.fresh place.rest).map
        (keepFrom number · place.groups) := by
  obtain ⟨fresh, text, groups⟩ := place
  rw [stops_once]
  cases text with
  | nil => rfl
  | cons d rest =>
    by_cases same : c = d
    · simp [Charset.has, matchFrom, same, follows]
    · simp [Charset.has, matchFrom, same, Ne.symm same]

/-- The expression of items answers what a search for the items does, with its texts in groups. -/
theorem answer?_series (number : Nat) (items : Pattern) (place : Place) :
    Expression.answer? (series (expressions number items)) place =
      (matchFrom items place.fresh place.rest).map (keepFrom number · place.groups) := by
  induction items generalizing number place with
  | nil =>
    cases empty : place.rest.isEmpty <;>
      simp [expressions, series, Expression.answer?, stops, matchFrom, empty, keepFrom]
  | cons item items ih =>
    have step : Expression.answer? (series (expressions number (item :: items))) place =
        (stops (item.expression number) place).findSome?
          (Expression.answer? (series (expressions (number + item.groups) items))) :=
      answer?_both _ _ place
    rw [step]
    cases item with
    | start =>
      cases fresh : place.fresh <;>
        simp [Item.expression, Item.groups, stops, matchFrom, fresh, ih]
    | finish =>
      by_cases last : place.rest = [] ∨ place.rest = ['\n'] <;>
        simp [Item.expression, Item.groups, stops, matchFrom, last, ih]
    | char c => exact answer?_only (ih number) c place
    | optional c =>
      -- The items are tried behind the character first, and then in its place.
      have behind := answer?_only (ih number) c place
      have here := ih number place
      have same : number + (Item.optional c).groups = number := rfl
      rw [same, Item.expression, stops_optional, List.findSome?_append, behind,
        matchFrom_optional, Option.map_or, ← here, List.findSome?_singleton]
    | capture =>
      rw [Item.expression, stops_captureGroup, List.findSome?_map, matchFrom_capture,
        List.map_findSome?]
      congr 1
      funext count
      simp only [Function.comp_apply, ih, Item.groups, Option.map_map]
      rfl

theorem matchFrom_char_eq_some {c : Char} {items : Pattern} {fresh : Bool} {text : List Char}
    {captured : List (List Char)}
    (found : matchFrom (.char c :: items) fresh text = some captured) :
    ∃ rest, text = c :: rest ∧ matchFrom items false rest = some captured := by
  cases text with
  | nil => cases found
  | cons d rest =>
    by_cases same : c = d
    · subst same
      exact ⟨rest, rfl, by simpa [matchFrom] using found⟩
    · simp [matchFrom, same] at found

/-- A search that succeeds has captured a text for every group. -/
theorem length_of_matchFrom {items : Pattern} {fresh : Bool} {text : List Char}
    {captured : List (List Char)} (found : matchFrom items fresh text = some captured) :
    captured.length = groups items := by
  induction items generalizing fresh text captured with
  | nil =>
    rw [matchFrom] at found
    split at found
    · cases found
      rfl
    · cases found
  | cons item items ih =>
    have plain (none : item.groups = 0) : groups (item :: items) = groups items := by
      rw [groups_cons, none, Nat.zero_add]
    cases item with
    | start | finish =>
      rw [matchFrom] at found
      split at found
      · rw [plain rfl, ih found]
      · cases found
    | char c =>
      obtain ⟨rest, -, more⟩ := matchFrom_char_eq_some found
      rw [plain rfl, ih more]
    | optional c =>
      rw [matchFrom_optional, Option.or_eq_some_iff] at found
      rcases found with taken | ⟨-, more⟩
      · obtain ⟨rest, -, more⟩ := matchFrom_char_eq_some taken
        rw [plain rfl, ih more]
      · rw [plain rfl, ih more]
    | capture =>
      rw [matchFrom_capture] at found
      obtain ⟨count, -, here⟩ := List.exists_of_findSome?_eq_some found
      obtain ⟨more, after, rfl⟩ := Option.map_eq_some_iff.mp here
      rw [List.length_cons, ih after, groups_cons, Nat.add_comm]
      rfl

/-- Groups that are filled one after the other hold their texts. -/
theorem keepFrom_replicate (done texts : List (List Char)) :
    keepFrom done.length texts (done.map some ++ List.replicate texts.length none) =
      (done ++ texts).map some := by
  induction texts generalizing done with
  | nil => simp [keepFrom]
  | cons text texts ih =>
    have next := ih (done ++ [text])
    simpa [keepFrom, List.replicate_succ, List.set_append] using next

/-- Every group takes part when the expression of a pattern matches, and holds what a search for the
items captures. -/
theorem fullMatch?_eq (items : Pattern) (text : List Char) :
    Expression.fullMatch? (series (expressions 0 items)) (groups items) text =
      (match? items text).map (·.map some) := by
  rw [Expression.fullMatch?, answer?_series, match?]
  cases found : matchFrom items true text with
  | none => rfl
  | some captured =>
    have filled := keepFrom_replicate [] captured
    rw [length_of_matchFrom found] at filled
    exact congrArg some filled

end Pattern

/-! ### Segments -/

namespace Expression

/-- What segments read as when the next group has a number: a parameter is a group of one or more
characters other than the separator, and a literal is each of its characters. -/
def ofSegments : Nat → List Segment → List Expression
  | _, [] => []
  | number, segment :: rest =>
    if segment.isParam then
      .group number (series [.chars (.except ['/']) 1 none]) :: ofSegments (number + 1) rest
    else segment.text.toList.map (fun c => .chars (.only c) 1 (some 1)) ++ ofSegments number rest

/-- Segments between the anchors, with one separator more that may be missing. -/
def anchored (segments : List Segment) : Expression :=
  series (.start :: (ofSegments 0 segments ++ [.chars (.only '/') 0 (some 1), .finish]))

end Expression

namespace Template

open Pattern

theorem expressions_chars (number : Nat) (chars : List Char) :
    expressions number (chars.map .char) = chars.map (fun c => .chars (.only c) 1 (some 1)) ∧
      groups (chars.map .char) = 0 := by
  induction chars with
  | nil => exact ⟨rfl, rfl⟩
  | cons c chars ih =>
    obtain ⟨same, none⟩ := ih
    constructor
    · rw [List.map_cons, List.map_cons, expressions]
      exact congrArg (_ :: ·) same
    · rw [List.map_cons, groups_cons, none]
      rfl

theorem expressions_body (number : Nat) (segments : List Segment) :
    expressions number (body segments) = Expression.ofSegments number segments ∧
      groups (body segments) = segments.countP (·.isParam) := by
  induction segments generalizing number with
  | nil => exact ⟨rfl, rfl⟩
  | cons segment segments ih =>
    cases kind : segment.isParam with
    | true =>
      obtain ⟨same, count⟩ := ih (number + 1)
      rw [body_cons_of_param _ kind, expressions, Expression.ofSegments, if_pos kind, groups_cons,
        count]
      exact ⟨congrArg (_ :: ·) same, by simp [kind, Item.groups, Nat.add_comm]⟩
    | false =>
      obtain ⟨same, count⟩ := ih number
      obtain ⟨own, none⟩ := expressions_chars number segment.text.toList
      rw [body_cons_of_literal _ kind, expressions_append, groups_append, Expression.ofSegments,
        own, none, Nat.add_zero, Nat.zero_add, same, count]
      simp [kind]

/-- The items of segments read as the segments say. -/
theorem read?_of_segments (segments : List Segment) :
    Expression.read? (text (.start :: (body segments ++ closing))) =
        some (.anchored segments, segments.countP (·.isParam)) ∧
      Expression.series (expressions 0 (.start :: (body segments ++ closing))) =
        .anchored segments ∧
      groups (.start :: (body segments ++ closing)) = segments.countP (·.isParam) := by
  obtain ⟨same, count⟩ := expressions_body 0 segments
  have whole : Expression.series (expressions 0 (.start :: (body segments ++ closing))) =
      .anchored segments := by
    have start : 0 + Item.start.groups = 0 := rfl
    rw [expressions, start, expressions_append, same]
    rfl
  have number : groups (.start :: (body segments ++ closing)) =
      segments.countP (·.isParam) := by
    have start : Item.start.groups = 0 := rfl
    have none : groups closing = 0 := rfl
    rw [groups_cons, groups_append, count, start, none, Nat.zero_add, Nat.add_zero]
  exact ⟨by rw [read?_eq_series, whole, number], whole, number⟩

theorem ofFields?_fields (segment : Segment) :
    Part.ofFields? segment.fields = .ok (some (Part.ofSegment segment)) := by
  obtain ⟨text, start, stop, param, name⟩ := segment
  cases param <;> rfl

/-- Segments that are given by their fields mean what they mean themselves. -/
theorem ofSegments_fields (segments : List Segment) :
    Part.ofSegments (segments.map Segment.fields) = .ok (segments.map Part.ofSegment) := by
  have each : (segments.map Segment.fields).mapM Part.ofFields? =
      .ok (segments.map fun segment => some (Part.ofSegment segment)) := by
    induction segments with
    | nil => rfl
    | cons segment segments ih =>
      rw [List.map_cons, List.mapM_cons, ofFields?_fields, ih]
      rfl
  have there : (segments.map fun segment => some (Part.ofSegment segment)).idxOf? none = none := by
    rw [List.idxOf?_eq_none_iff]
    simp
  rw [Part.ofSegments, each]
  show Part.allTexts _ = _
  rw [Part.allTexts, there]
  simp

end Template

namespace Route

open Template Pattern

section Compiled

variable {template : String} {route : Route} (compiled : compile template = .ok route)

include compiled

theorem groups_eq_keys_length : route.groups = route.keys.length := by
  obtain ⟨-, -, keys, items, -⟩ := compile_eq_ok compiled
  rw [Route.groups, items, keys, count_keys]
  exact (read?_of_segments (segments template)).2.2

/-- The pattern of a route reads as the segments of its template. -/
theorem read?_pattern : Expression.read? route.pattern.toList =
    some (.anchored (segments template), route.keys.length) := by
  obtain ⟨-, -, keys, items, pattern⟩ := compile_eq_ok compiled
  rw [pattern, String.toList_ofList, items, keys, count_keys]
  exact (read?_of_segments (segments template)).1

/-- What a pattern reads as matches like the items of the route, all groups taking part. -/
theorem fullMatch?_pattern (candidate : String) :
    Expression.fullMatch? (.anchored (segments template)) route.keys.length candidate.toList =
      (route.items.match? candidate.toList).map (·.map some) := by
  obtain ⟨-, -, -, items, -⟩ := compile_eq_ok compiled
  rw [← groups_eq_keys_length compiled, ← fullMatch?_eq, Route.groups, items,
    (read?_of_segments (segments template)).2.1]

/-- As many texts are captured as a route has keys. -/
theorem length_captured {text : List Char} {captured : List (List Char)}
    (found : route.items.match? text = some captured) : captured.length = route.keys.length := by
  rw [length_of_matchFrom found, ← groups_eq_keys_length compiled, Route.groups]

/-- The values of a match are what the groups of the pattern hold. -/
theorem map_values_match? (candidate : String) :
    (route.match? candidate).map (fun found => found.params.map fun param => some param.2.toList) =
      Expression.fullMatch? (.anchored (segments template)) route.keys.length candidate.toList := by
  rw [fullMatch?_pattern compiled, match?, Option.map_map]
  cases found : route.items.match? candidate.toList with
  | none => rfl
  | some captured =>
    have size := length_captured compiled found
    have values : (route.keys.zip (captured.map String.ofList)).map Prod.snd =
        captured.map String.ofList := List.map_snd_zip (by simp [size])
    have texts := congrArg (List.map fun value => some value.toList) values
    simpa [Function.comp_def] using texts

end Compiled

/-- What a route answers when the groups of its expression hold texts, or when there is no match:
the text of each group under its key, or nothing. -/
def Answers (route : Route) (candidate : String) : Option (List (Option (List Char))) → Prop
  | none => route.match? candidate = none ∧ route.params? candidate = none ∧
      route.accepts candidate = false
  | some groups => ∃ values : List String, groups = values.map (fun value => some value.toList) ∧
      values.length = route.keys.length ∧
      route.match? candidate = some ⟨route, candidate, route.keys.zip values⟩ ∧
      route.params? candidate = some (route.keys.zip values) ∧
      (route.keys.zip values).map Prod.fst = route.keys ∧ route.accepts candidate = true

/-- The pattern of any segments, whatever their texts are, is a well-formed expression that reads as
the segments between anchors, with a group for each parameter. That of a route has a group for each
of its keys, which differ from each other; whenever it matches a candidate, all groups have a text,
and the route answers with these texts under its keys. Otherwise it answers with nothing. -/
theorem pattern_reads_as_segments :
    (∀ segments : List Segment,
      Part.ofSegments (segments.map Segment.fields) = .ok (segments.map Part.ofSegment) ∧
      Expression.read? (text (ofParts (segments.map Part.ofSegment))) =
        some (.anchored segments, segments.countP (·.isParam))) ∧
    ∀ (template : String) (route : Route), compile template = .ok route →
      ∃ segments, parse template = .ok segments ∧
        route.keys = Template.keys segments ∧ route.keys.Nodup ∧
        route.groups = route.keys.length ∧
        Expression.read? route.pattern.toList = some (.anchored segments, route.keys.length) ∧
        ∀ candidate : String, route.Answers candidate
          (Expression.fullMatch? (.anchored segments) route.keys.length candidate.toList) := by
  refine ⟨fun segments => ⟨ofSegments_fields segments, (read?_of_segments segments).1⟩, ?_⟩
  intro template route compiled
  obtain ⟨parsed, -, keys, -, -⟩ := compile_eq_ok compiled
  have distinct : route.keys.Nodup := by
    rw [keys]
    exact (parse_eq_ok parsed).2
  refine ⟨segments template, parsed, keys, distinct, groups_eq_keys_length compiled,
    read?_pattern compiled, fun candidate => ?_⟩
  rw [fullMatch?_pattern compiled]
  cases found : route.items.match? candidate.toList with
  | none =>
    have failed : route.match? candidate = none := by
      rw [match?, found]
      rfl
    exact ⟨failed, by rw [params?, failed]; rfl, by rw [accepts, failed]; rfl⟩
  | some captured =>
    have size := length_captured compiled found
    have answer : route.match? candidate =
        some ⟨route, candidate, route.keys.zip (captured.map String.ofList)⟩ := by
      rw [match?, found]
      rfl
    refine ⟨captured.map String.ofList, by simp, by simp [size], answer, ?_, ?_, ?_⟩
    · rw [params?, answer]
      rfl
    · exact List.map_fst_zip (by simp [size])
    · rw [accepts, answer]
      rfl

/-- A literal that looks like a group reads as its characters. -/
example : Expression.read? "^/\\(\\[\\^/\\]\\+\\)([^/]+)/?$".toList =
    some (.anchored [⟨"/([^/]+)", 0, 8, false, none⟩, ⟨":a", 8, 10, true, some "a"⟩], 1) := by
  decide

/-- A route accepts exactly the candidates that decompose into values. It then answers with the
candidate as the path and, under the keys in their order, with the values of the one decomposition
whose lengths are lexicographically greatest. Its pattern in notation is a regular expression that
matches the same candidates, with these values in its groups. -/
theorem match_eq_greatest_decomposition {template : String} {route : Route}
    (compiled : compile template = .ok route) :
    ∃ segments expression, parse template = .ok segments ∧
      Expression.read? route.pattern.toList = some (expression, route.keys.length) ∧
      ∀ candidate,
        (route.match? candidate).map
            (fun found => found.params.map fun param => some param.2.toList) =
          Expression.fullMatch? expression route.keys.length candidate.toList ∧
        (route.match? candidate ≠ none ↔ ∃ values, Decomposition segments values candidate) ∧
        ∀ found, route.match? candidate = some found →
          found.route = route ∧ found.path = candidate ∧
          found.params.map Prod.fst = Template.keys segments ∧
          GreatestDecomposition segments (found.params.map Prod.snd) candidate := by
  obtain ⟨parsed, -, keys, -, -⟩ := compile_eq_ok compiled
  refine ⟨segments template, _, parsed, read?_pattern compiled, fun candidate =>
    ⟨map_values_match? compiled candidate, ?_, fun found answer => ?_⟩⟩
  · rcases match?_cases compiled candidate with ⟨failed, nowhere⟩ | ⟨values, answer, best⟩
    · rw [failed]
      exact ⟨fun found => absurd rfl found, fun ⟨values, own⟩ => absurd own (nowhere values)⟩
    · rw [answer]
      exact ⟨fun _ => ⟨values, best.decomposes⟩, fun _ => by simp⟩
  · rw [← keys]
    exact params_of_match? compiled answer

/-- Two parameters side by side behind a literal that the notation has to escape. -/
theorem match_eq_greatest_decomposition_adjacent :
    ∃ route, compile "/v.:a:b" = .ok route ∧
      ∃ segments expression, parse "/v.:a:b" = .ok segments ∧
        Expression.read? route.pattern.toList = some (expression, route.keys.length) ∧
        ∀ candidate,
          (route.match? candidate).map
              (fun found => found.params.map fun param => some param.2.toList) =
            Expression.fullMatch? expression route.keys.length candidate.toList ∧
          (route.match? candidate ≠ none ↔ ∃ values, Decomposition segments values candidate) ∧
          ∀ found, route.match? candidate = some found →
            found.route = route ∧ found.path = candidate ∧
            found.params.map Prod.fst = Template.keys segments ∧
            GreatestDecomposition segments (found.params.map Prod.snd) candidate :=
  have compiled : compile "/v.:a:b" = .ok ⟨"/v.:a:b", "^/v\\.([^/]+)([^/]+)/?$", ["a", "b"],
      [.start, .char '/', .char 'v', .char '.', .capture, .capture, .optional '/', .finish]⟩ := rfl
  ⟨_, compiled, match_eq_greatest_decomposition compiled⟩

end Route

end Routebook
