import Mathlib.Data.List.Forall2
import Routebook.Proofs.Assembly
import Routebook.Proofs.Matching

/-!
# Canonical patterns

The notation of a route's pattern, the candidates that the route accepts and the shape of its
template determine each other. The notation can be read back. The shortest accepted candidates have
one character for each item of the pattern: a place where they all agree belongs to a literal, and
at any other place a value can be every character but the separator. The items give the shape since
a template holds no two literals in a row.
-/
namespace Routebook

namespace Pattern

/-- The characters that can stand for an item in a text that is as short as can be. -/
def Fits : Item → Char → Prop
  | .char c, d => d = c
  | .capture, d => d ≠ separator
  | _, _ => False

/-- The character of an item, and one given character for a value. -/
def Item.sample (d : Char) : Item → Char
  | .char c => c
  | _ => d

/-- A text as short as can be, with the same character for all values. -/
def sample (d : Char) (items : Pattern) : List Char := items.map (Item.sample d)

theorem length_sample (d : Char) (items : Pattern) : (sample d items).length = items.length :=
  List.length_map _

theorem length_le_of_reads {items : Pattern} {values : List String} {text : List Char}
    (reads : Reads items values text) : items.length ≤ text.length := by
  induction reads with
  | done => exact Nat.le_refl 0
  | closed => exact Nat.zero_le _
  | char c more ih => exact Nat.succ_le_succ ih
  | capture proper more ih =>
    have positive := length_pos_of_isValue proper
    rw [List.length_cons, List.length_append, String.length_toList]
    omega

/-- Read as shortly as can be, each item has a character that fits it. -/
theorem fits_of_reads {items : Pattern} {values : List String} {text : List Char}
    (reads : Reads items values text) (short : text.length = items.length) :
    List.Forall₂ Fits items text := by
  induction reads with
  | done => exact .nil
  | closed =>
    -- No room is left for a separator at the end.
    cases short
  | char c more ih => exact .cons rfl (ih (Nat.succ.inj short))
  | @capture value items values rest proper more ih =>
    have positive := length_pos_of_isValue proper
    have below := length_le_of_reads more
    rw [List.length_append, List.length_cons, String.length_toList] at short
    have one : value.toList.length = 1 := by
      rw [String.length_toList]
      omega
    obtain ⟨d, single⟩ := List.length_eq_one_iff.mp one
    have outside : d ≠ separator := by
      rintro rfl
      exact proper.2 (by simp [single])
    rw [single]
    exact .cons outside (ih (by omega))

theorem reads_sample {d : Char} {items : Pattern} (outside : d ≠ separator)
    (plain : Plain items) : ∃ values, Reads items values (sample d items) := by
  induction items with
  | nil => exact ⟨[], .done⟩
  | cons item items ih =>
    obtain ⟨own, tail⟩ := List.forall_mem_cons.mp plain
    obtain ⟨values, reads⟩ := ih tail
    rcases own with rfl | ⟨c, rfl⟩
    · have proper : IsValue (String.singleton d) := by
        constructor
        · simp
        · simpa using Ne.symm outside
      have whole := Reads.capture proper reads
      exact ⟨String.singleton d :: values, by simpa [sample, Item.sample] using whole⟩
    · exact ⟨values, .char c reads⟩

/-- Items that fit each other's samples are the same: two samples of a value differ. -/
theorem item_eq_of_fits {left right : Item} (plain : left = .capture ∨ ∃ c, left = .char c)
    (plain' : right = .capture ∨ ∃ c, right = .char c)
    (one : ∀ d, d ≠ separator → Fits right (left.sample d))
    (two : ∀ d, d ≠ separator → Fits left (right.sample d)) : left = right := by
  -- A character would have to fit two samples that differ where a value stands.
  have outside : 'a' ≠ separator ∧ 'b' ≠ separator := by decide
  have different : 'a' ≠ 'b' := by decide
  rcases plain with rfl | ⟨c, rfl⟩
  · rcases plain' with rfl | ⟨c, rfl⟩
    · rfl
    · exact absurd ((one 'a' outside.1).trans (one 'b' outside.2).symm) different
  · rcases plain' with rfl | ⟨c', rfl⟩
    · exact absurd ((two 'a' outside.1).trans (two 'b' outside.2).symm) different
    · exact congrArg Item.char (one 'a' outside.1)

theorem eq_of_fits_samples {left right : Pattern} (plain : Plain left) (plain' : Plain right)
    (one : ∀ d, d ≠ separator → List.Forall₂ Fits right (sample d left))
    (two : ∀ d, d ≠ separator → List.Forall₂ Fits left (sample d right)) : left = right := by
  have outside : 'a' ≠ separator := by decide
  induction left generalizing right with
  | nil =>
    cases right with
    | nil => rfl
    | cons item right => cases one 'a' outside
  | cons item left ih =>
    cases right with
    | nil => cases two 'a' outside
    | cons other right =>
      have first (d : Char) (own : d ≠ separator) := List.forall₂_cons.mp (one d own)
      have second (d : Char) (own : d ≠ separator) := List.forall₂_cons.mp (two d own)
      obtain ⟨head, tail⟩ := List.forall_mem_cons.mp plain
      obtain ⟨head', tail'⟩ := List.forall_mem_cons.mp plain'
      have heads : item = other :=
        item_eq_of_fits head head' (fun d own => (first d own).1) (fun d own => (second d own).1)
      have tails : left = right :=
        ih tail tail' (fun d own => (first d own).2) (fun d own => (second d own).2)
      rw [heads, tails]

/-- Items are known by the texts that they can be read from. -/
theorem eq_of_same_texts {left right : Pattern} (plain : Plain left) (plain' : Plain right)
    (same : ∀ text, (∃ values, Reads left values text) ↔ ∃ values, Reads right values text) :
    left = right := by
  have outside : 'a' ≠ separator := by decide
  have crossed (d : Char) (own : d ≠ separator) : ∃ values, Reads right values (sample d left) :=
    (same _).mp (reads_sample own plain)
  have crossed' (d : Char) (own : d ≠ separator) : ∃ values, Reads left values (sample d right) :=
    (same _).mpr (reads_sample own plain')
  have size : left.length = right.length := by
    obtain ⟨_, reads⟩ := crossed 'a' outside
    obtain ⟨_, reads'⟩ := crossed' 'a' outside
    have below := length_le_of_reads reads
    have below' := length_le_of_reads reads'
    rw [length_sample] at below below'
    omega
  apply eq_of_fits_samples plain plain'
  · intro d own
    obtain ⟨_, reads⟩ := crossed d own
    exact fits_of_reads reads (by rw [length_sample, size])
  · intro d own
    obtain ⟨_, reads⟩ := crossed' d own
    exact fits_of_reads reads (by rw [length_sample, size])

end Pattern

namespace Template

open Pattern

/-- Parts from the items that they stand for; characters in a row make one literal. -/
def regroup : Pattern → List Part
  | [] => []
  | .char c :: items =>
    match regroup items with
    | .literal text :: parts => .literal (c :: text) :: parts
    | parts => .literal [c] :: parts
  | .capture :: items => .wildcard :: regroup items
  | _ :: items => regroup items

theorem regroup_char (c : Char) (items : Pattern) :
    regroup (.char c :: items) =
      match regroup items with
      | .literal text :: parts => .literal (c :: text) :: parts
      | parts => .literal [c] :: parts := rfl

theorem regroup_chars (c : Char) (chars : List Char) {items : Pattern}
    (other : ∀ text parts, regroup items ≠ .literal text :: parts) :
    regroup ((c :: chars).map .char ++ items) = .literal (c :: chars) :: regroup items := by
  induction chars generalizing c with
  | nil =>
    rw [List.map_singleton, List.singleton_append, regroup_char]
    split
    next text parts same => exact absurd same (other text parts)
    · rfl
  | cons d chars ih =>
    rw [List.map_cons, List.cons_append, regroup_char, ih]

theorem regroup_items {pieces : List Piece} (reduced : Reduced pieces) :
    regroup ((pieces.map Piece.part).flatMap Part.items) = pieces.map Piece.part := by
  induction reduced with
  | nil => rfl
  | parameter named more ih => exact congrArg (Part.wildcard :: ·) ih
  | @literal text pieces nonempty more last ih =>
    obtain ⟨c, chars, rfl⟩ := List.exists_cons_of_ne_nil nonempty
    -- No literal follows, so this one is not made longer by what comes behind it.
    have other (text : List Char) (parts : List Part) :
        regroup ((pieces.map Piece.part).flatMap Part.items) ≠ .literal text :: parts := by
      rw [ih]
      intro same
      cases pieces with
      | nil => cases same
      | cons piece rest =>
        cases piece with
        | literal text => exact last text rest rfl
        | parameter name => cases same
    have joined := regroup_chars c chars other
    rw [ih] at joined
    exact joined

/-- What the segments of a template mean is known by their items. -/
theorem map_ofSegment_eq_iff {left right : String} :
    (segments left).map Part.ofSegment = (segments right).map Part.ofSegment ↔
      body (segments left) = body (segments right) := by
  constructor
  · intro same
    rw [body, body, same]
  · intro same
    have grouped (template : String) :
        regroup (body (segments template)) = (segments template).map Part.ofSegment := by
      rw [body, segments, map_ofSegment_place, regroup_items (reduced_pieces _)]
    rw [← grouped left, ← grouped right, same]

end Template

namespace Route

open Template Pattern

theorem accepts_iff {template : String} {route : Route} (compiled : compile template = .ok route)
    (candidate : String) :
    route.accepts candidate = true ↔
      ∃ values, Reads (body (segments template)) values candidate.toList := by
  rw [accepts]
  rcases match?_cases compiled candidate with ⟨failed, nowhere⟩ | ⟨values, answer, best⟩
  · rw [failed]
    constructor
    · intro found
      cases found
    · rintro ⟨values, reads⟩
      exact absurd (reads_body_iff.mp reads) (nowhere values)
  · rw [answer]
    exact ⟨fun _ => ⟨values, reads_body_iff.mpr best.decomposes⟩, fun _ => rfl⟩

variable {left right : String} {one two : Route}

/-- Routes with the same items answer with the same values. -/
theorem params_of_same_items (compiled : compile left = .ok one)
    (compiled' : compile right = .ok two) (same : body (segments left) = body (segments right))
    {candidate : String} {params params' : List (String × String)}
    (found : one.params? candidate = some params)
    (found' : two.params? candidate = some params') :
    params.map Prod.fst = one.keys ∧ params'.map Prod.fst = two.keys ∧
      params.map Prod.snd = params'.map Prod.snd := by
  obtain ⟨taken, answer, rfl⟩ := Option.map_eq_some_iff.mp found
  obtain ⟨taken', answer', rfl⟩ := Option.map_eq_some_iff.mp found'
  obtain ⟨-, -, keys, best⟩ := params_of_match? compiled answer
  obtain ⟨-, -, keys', best'⟩ := params_of_match? compiled' answer'
  refine ⟨keys, keys', best.eq best' fun values => ?_⟩
  rw [← reads_body_iff, ← reads_body_iff, same]

/-- Two routes have the same pattern in notation, accept the same candidates, and have templates of
the same shape, all three or none. If they do, then what they both match gives the same values in
the same order, each under its own keys. -/
theorem pattern_eq_iff_same_shape (compiled : compile left = .ok one)
    (compiled' : compile right = .ok two) :
    ∃ segments segments', parse left = .ok segments ∧ parse right = .ok segments' ∧
      (one.pattern = two.pattern ↔
        segments.map Part.ofSegment = segments'.map Part.ofSegment) ∧
      ((∀ candidate, one.accepts candidate = two.accepts candidate) ↔
        segments.map Part.ofSegment = segments'.map Part.ofSegment) ∧
      (one.pattern = two.pattern → ∀ candidate params params',
        one.params? candidate = some params → two.params? candidate = some params' →
        params.map Prod.fst = Template.keys segments ∧
          params'.map Prod.fst = Template.keys segments' ∧
          params.map Prod.snd = params'.map Prod.snd) := by
  obtain ⟨parsed, -, keys, items, pattern⟩ := compile_eq_ok compiled
  obtain ⟨parsed', -, keys', items', pattern'⟩ := compile_eq_ok compiled'
  -- Everything is compared by the items: the notation gives them back, and so does the shape.
  have written_iff : one.pattern = two.pattern ↔ one.items = two.items := by
    rw [pattern, pattern', String.ofList_inj]
    exact ⟨fun same => text_injective same, fun same => by rw [same]⟩
  have items_iff : one.items = two.items ↔
      (segments left).map Part.ofSegment = (segments right).map Part.ofSegment := by
    rw [map_ofSegment_eq_iff, items, items', List.cons.injEq, List.append_left_inj]
    simp
  refine ⟨segments left, segments right, parsed, parsed', written_iff.trans items_iff, ?_, ?_⟩
  · constructor
    · intro agree
      rw [map_ofSegment_eq_iff]
      refine eq_of_same_texts (plain_body _) (plain_body _) fun text => ?_
      have here := agree (String.ofList text)
      rw [Bool.eq_iff_iff, accepts_iff compiled, accepts_iff compiled',
        String.toList_ofList] at here
      exact here
    · intro same candidate
      rw [Bool.eq_iff_iff, accepts_iff compiled, accepts_iff compiled',
        map_ofSegment_eq_iff.mp same]
  · intro same candidate params params' found found'
    rw [← keys, ← keys']
    have shape := items_iff.mp (written_iff.mp same)
    exact params_of_same_items compiled compiled' (map_ofSegment_eq_iff.mp shape) found found'

/-- A bracket in a literal is no part of a capture, and names do not count. -/
theorem pattern_eq_iff_same_shape_renamed :
    ∃ one two, compile "/(:a" = .ok one ∧ compile "/(:b" = .ok two ∧
      ∃ segments segments', parse "/(:a" = .ok segments ∧ parse "/(:b" = .ok segments' ∧
        (one.pattern = two.pattern ↔
          segments.map Part.ofSegment = segments'.map Part.ofSegment) ∧
        ((∀ candidate, one.accepts candidate = two.accepts candidate) ↔
          segments.map Part.ofSegment = segments'.map Part.ofSegment) ∧
        (one.pattern = two.pattern → ∀ candidate params params',
          one.params? candidate = some params → two.params? candidate = some params' →
          params.map Prod.fst = Template.keys segments ∧
            params'.map Prod.fst = Template.keys segments' ∧
            params.map Prod.snd = params'.map Prod.snd) :=
  have compiled : compile "/(:a" = .ok ⟨"/(:a", "^/\\(([^/]+)/?$", ["a"],
      [.start, .char '/', .char '(', .capture, .optional '/', .finish]⟩ := rfl
  have compiled' : compile "/(:b" = .ok ⟨"/(:b", "^/\\(([^/]+)/?$", ["b"],
      [.start, .char '/', .char '(', .capture, .optional '/', .finish]⟩ := rfl
  ⟨_, _, compiled, compiled', pattern_eq_iff_same_shape compiled compiled'⟩

end Route

end Routebook
