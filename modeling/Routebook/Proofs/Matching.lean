import Routebook.Proofs.Filling
import Routebook.Proofs.Layout

/-!
# Matching

A search answers with a decomposition of the candidate exactly if there is one, and of several with
the one whose values are longest, the first value before the second and so on. The induction is on
the items of a pattern and follows the search: a capture tries the longest text first, so all longer
texts have failed when one succeeds.
-/
namespace Routebook

namespace Pattern

/-- What a search answers: the reading that prefers longer values, the earlier ones first, or
nothing if there is no reading. -/
def Greedy (items : Pattern) (text : List Char) : Option (List String) → Prop
  | none => ∀ values, ¬Reads items values text
  | some values => Reads items values text ∧ ∀ others, Reads items others text → others ≠ values →
      others.map String.length < values.map String.length

theorem matchFrom_closing (fresh : Bool) (text : List Char) :
    matchFrom closing fresh text = if text = [] ∨ text = [separator] then some [] else none := by
  match text with
  | [] => rfl
  | [c] =>
    by_cases slash : separator = c
    · simp [closing, matchFrom, slash]
    · simp [closing, matchFrom, slash, Ne.symm slash]
  | c :: d :: rest => by_cases slash : separator = c <;> simp [closing, matchFrom, slash]

/-- Of the numbers from `n` down, the first success is the greatest. -/
theorem findSome?_downFrom_eq_some {α : Type} {f : Nat → Option α} {n : Nat} {answer : α}
    (found : (downFrom n).findSome? f = some answer) :
    ∃ k, 0 < k ∧ k ≤ n ∧ f k = some answer ∧ ∀ m, k < m → m ≤ n → f m = none := by
  induction n with
  | zero => simp [downFrom] at found
  | succ n ih =>
    rw [downFrom, List.findSome?_cons] at found
    split at found
    next value here =>
      rw [Option.some.inj found] at here
      exact ⟨n + 1, by omega, by omega, here, fun m above below => by omega⟩
    next failed =>
      obtain ⟨k, positive, below, here, greatest⟩ := ih found
      refine ⟨k, positive, by omega, here, ?_⟩
      intro m above bound
      by_cases last : m = n + 1
      · rw [last]; exact failed
      · exact greatest m above (by omega)

theorem findSome?_downFrom_eq_none {α : Type} {f : Nat → Option α} {n : Nat}
    (failed : (downFrom n).findSome? f = none) {m : Nat} (positive : 0 < m) (bound : m ≤ n) :
    f m = none := by
  induction n with
  | zero => omega
  | succ n ih =>
    rw [downFrom, List.findSome?_cons] at failed
    split at failed
    · cases failed
    next here =>
      by_cases last : m = n + 1
      · rw [last]; exact here
      · exact ih failed (by omega)

/-- How much text a value at the front can take. -/
def room (text : List Char) : Nat := (text.takeWhile (· ≠ separator)).length

theorem takeWhile_value_append {value : String} (proper : IsValue value) (rest : List Char) :
    (value.toList ++ rest).takeWhile (· ≠ separator) =
      value.toList ++ rest.takeWhile (· ≠ separator) :=
  List.takeWhile_append_of_pos fun _ member =>
    decide_eq_true fun equal => proper.2 (equal ▸ member)

theorem length_le_room {value : String} (proper : IsValue value) (rest : List Char) :
    value.length ≤ room (value.toList ++ rest) := by
  rw [room, takeWhile_value_append proper, List.length_append, String.length_toList]
  omega

theorem room_le_length (text : List Char) : room text ≤ text.length :=
  (List.takeWhile_prefix _).length_le

theorem isValue_take {text : List Char} {n : Nat} (positive : 0 < n) (bound : n ≤ room text) :
    IsValue (String.ofList (text.take n)) := by
  have below := room_le_length text
  constructor
  · intro empty
    have none : (text.take n).length = 0 := by rw [String.ofList_eq_empty_iff.mp empty]; rfl
    rw [List.length_take] at none
    omega
  · -- What is taken lies within the run that has no separator.
    have front : text.take n = (text.takeWhile (· ≠ separator)).take n := by
      rw [List.prefix_iff_eq_take.mp (List.takeWhile_prefix (· ≠ separator)), List.take_take]
      exact congrArg (text.take ·) (Nat.min_eq_left bound).symm
    rw [String.toList_ofList, front]
    intro member
    have kept := List.all_eq_true.mp List.all_takeWhile _ (List.mem_of_mem_take member)
    simp at kept

theorem matchFrom_capture (items : Pattern) (fresh : Bool) (text : List Char) :
    matchFrom (.capture :: items) fresh text = (downFrom (room text)).findSome? fun n =>
      (matchFrom items false (text.drop n)).map (text.take n :: ·) := rfl

theorem greedy_char_iff {c : Char} {items : Pattern} {text : List Char}
    {answer : Option (List String)} :
    Greedy (.char c :: items) (c :: text) answer ↔ Greedy items text answer := by
  cases answer <;> simp [Greedy, reads_char_iff]

/-- A capture takes `n` characters, since longer values lead nowhere. -/
theorem greedy_capture {items : Pattern} {text : List Char} {n : Nat} {values : List String}
    (positive : 0 < n) (bound : n ≤ room text) (best : Greedy items (text.drop n) (some values))
    (longer : ∀ m, n < m → m ≤ room text → Greedy items (text.drop m) none) :
    Greedy (.capture :: items) text (some (String.ofList (text.take n) :: values)) := by
  obtain ⟨reads, greatest⟩ := best
  refine ⟨reads_capture_iff.mpr ⟨_, _, _, rfl, by simp, isValue_take positive bound, reads⟩, ?_⟩
  intro others other different
  obtain ⟨value, tail, rest, rfl, rfl, own, more⟩ := reads_capture_iff.mp other
  have taken : (String.ofList ((value.toList ++ rest).take n)).length = n := by
    have below := room_le_length (value.toList ++ rest)
    rw [String.length_ofList, List.length_take]
    omega
  rw [List.map_cons, List.map_cons, taken, List.cons_lt_cons_iff]
  -- Only a value of the same length leaves the choice to the rest.
  rcases Nat.lt_trichotomy value.length n with shorter | rfl | above
  · exact Or.inl shorter
  · right
    simp only [← String.length_toList, List.take_left, List.drop_left] at greatest different
    refine ⟨rfl, greatest tail more fun same => ?_⟩
    exact different (by rw [same, String.ofList_toList])
  · have failed := longer value.length above (length_le_room own rest)
    rw [← String.length_toList, List.drop_left] at failed
    exact absurd more (failed tail)

theorem greedy_capture_none {items : Pattern} {text : List Char}
    (failed : ∀ n, 0 < n → n ≤ room text → Greedy items (text.drop n) none) :
    Greedy (.capture :: items) text none := by
  intro values reads
  obtain ⟨value, tail, rest, rfl, rfl, proper, more⟩ := reads_capture_iff.mp reads
  have positive := length_pos_of_isValue proper
  have nothing := failed value.length positive (length_le_room proper rest)
  rw [← String.length_toList, List.drop_left] at nothing
  exact nothing tail more

theorem matchFrom_greedy {items : Pattern} (plain : Plain items) (fresh : Bool)
    (text : List Char) :
    Greedy items text
      ((matchFrom (items ++ closing) fresh text).map (·.map String.ofList)) := by
  -- For every text that can be left: a capture goes on behind each end that it tries.
  induction items generalizing fresh text with
  | nil =>
    rw [List.nil_append, matchFrom_closing]
    split
    next ended =>
      refine ⟨reads_nil_iff.mpr ⟨rfl, ended⟩, ?_⟩
      intro others other different
      exact absurd (reads_nil_iff.mp other).1 different
    next more =>
      intro values reads
      exact more (reads_nil_iff.mp reads).2
  | cons item items ih =>
    obtain ⟨own, tail⟩ := List.forall_mem_cons.mp plain
    rcases own with rfl | ⟨c, rfl⟩
    · rw [List.cons_append, matchFrom_capture]
      have reached (n : Nat) := ih tail false (text.drop n)
      cases search : (downFrom (room text)).findSome? fun n =>
          (matchFrom (items ++ closing) false (text.drop n)).map (text.take n :: ·) with
      | none =>
        refine greedy_capture_none fun n positive bound => ?_
        have failed := findSome?_downFrom_eq_none search positive bound
        rw [Option.map_eq_none_iff] at failed
        simpa [failed] using reached n
      | some captured =>
        obtain ⟨n, positive, bound, found, greatest⟩ := findSome?_downFrom_eq_some search
        obtain ⟨rest, here, rfl⟩ := Option.map_eq_some_iff.mp found
        refine greedy_capture positive bound (by simpa [here] using reached n) ?_
        -- All longer texts have been tried before.
        intro m above within
        have failed := greatest m above within
        rw [Option.map_eq_none_iff] at failed
        simpa [failed] using reached m
    · cases text with
      | nil =>
        intro values reads
        obtain ⟨rest, impossible, -⟩ := reads_char_iff.mp reads
        cases impossible
      | cons d text =>
        by_cases equal : c = d
        · subst equal
          simpa [matchFrom, greedy_char_iff] using ih tail false text
        · have failed : matchFrom (.char c :: items ++ closing) fresh (d :: text) = none := by
            simp [matchFrom, equal]
          rw [failed]
          intro values reads
          obtain ⟨rest, same, -⟩ := reads_char_iff.mp reads
          exact equal (List.cons.inj same).1.symm

end Pattern

namespace Template

open Pattern

/-- Of all decompositions of a candidate the one with the longest values, the first value before
the second and so on. -/
structure GreatestDecomposition (segments : List Segment) (values : List String)
    (candidate : String) : Prop where
  decomposes : Decomposition segments values candidate
  greatest : ∀ others, Decomposition segments others candidate → others ≠ values →
    others.map String.length < values.map String.length

/-- There is only one, also among segments that decompose a candidate alike. -/
theorem GreatestDecomposition.eq {segments segments' : List Segment} {values others : List String}
    {candidate : String} (one : GreatestDecomposition segments values candidate)
    (two : GreatestDecomposition segments' others candidate)
    (alike : ∀ values, Decomposition segments values candidate ↔
      Decomposition segments' values candidate) : values = others := by
  -- Of two that differ each would be the greater one.
  apply Classical.byContradiction
  intro different
  have above := one.greatest others ((alike others).mpr two.decomposes) (Ne.symm different)
  have below := two.greatest values ((alike values).mp one.decomposes) different
  exact List.lt_asymm above below

end Template

namespace Route

open Template Pattern

/-- All that compiling puts into a route. -/
theorem compile_eq_ok {template : String} {route : Route}
    (compiled : compile template = .ok route) :
    parse template = .ok (segments template) ∧ route.template = template ∧
      route.keys = Template.keys (segments template) ∧
      route.items = .start :: (body (segments template) ++ closing) ∧
      route.pattern = String.ofList route.items.text := by
  unfold compile Template.compile at compiled
  cases parsed : parse template with
  | error fault => simp [parsed, bind, Except.bind] at compiled
  | ok found =>
    simp only [parsed, bind, Except.bind, pure, Except.pure, Except.ok.injEq] at compiled
    subst compiled
    obtain ⟨same, -⟩ := parse_eq_ok parsed
    subst same
    exact ⟨rfl, rfl, rfl, rfl, rfl⟩

/-- A route answers with the greatest decomposition of a candidate, or there is none. -/
theorem match?_cases {template : String} {route : Route} (compiled : compile template = .ok route)
    (candidate : String) :
    (route.match? candidate = none ∧
      ∀ values, ¬Decomposition (segments template) values candidate) ∨
    ∃ values, route.match? candidate = some ⟨route, candidate, route.keys.zip values⟩ ∧
      GreatestDecomposition (segments template) values candidate := by
  obtain ⟨-, -, -, items, -⟩ := compile_eq_ok compiled
  have answer : route.items.match? candidate.toList =
      matchFrom (body (segments template) ++ closing) true candidate.toList := by
    rw [items]; rfl
  have greedy := matchFrom_greedy (plain_body (segments template)) true candidate.toList
  rw [match?, answer]
  cases searched : matchFrom (body (segments template) ++ closing) true candidate.toList with
  | none =>
    rw [searched] at greedy
    exact Or.inl ⟨rfl, fun values decomposes => greedy values (reads_body_iff.mpr decomposes)⟩
  | some captured =>
    rw [searched] at greedy
    obtain ⟨reads, greatest⟩ := greedy
    refine Or.inr ⟨_, rfl, reads_body_iff.mp reads, ?_⟩
    exact fun others decomposes => greatest others (reads_body_iff.mpr decomposes)

theorem keys_length_of_decomposition {template candidate : String} {route : Route}
    {values : List String} (compiled : compile template = .ok route)
    (decomposes : Decomposition (segments template) values candidate) :
    route.keys.length = values.length := by
  rw [(compile_eq_ok compiled).2.2.1, count_keys, decomposes.count]

/-- The keys in their order, with the values of the greatest decomposition. -/
theorem params_of_match? {template candidate : String} {route : Route} {found : Match}
    (compiled : compile template = .ok route) (answer : route.match? candidate = some found) :
    found.route = route ∧ found.path = candidate ∧ found.params.map Prod.fst = route.keys ∧
      GreatestDecomposition (segments template) (found.params.map Prod.snd) candidate := by
  rcases match?_cases compiled candidate with ⟨failed, -⟩ | ⟨values, own, best⟩
  · rw [failed] at answer
    cases answer
  · have count := keys_length_of_decomposition compiled best.decomposes
    rw [own] at answer
    cases answer
    dsimp only
    rw [List.map_fst_zip (by omega), List.map_snd_zip (by omega)]
    exact ⟨rfl, rfl, rfl, best⟩

end Route

end Routebook
