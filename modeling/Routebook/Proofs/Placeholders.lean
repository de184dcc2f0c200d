import Mathlib.Data.List.Nodup
import Mathlib.Data.List.TakeWhile
import Routebook.Proofs.Layout

/-!
# Placeholders

A placeholder is a colon and all name characters that follow it, at least one. No placeholder can
begin inside another, so a search from left to right that goes on behind each one it finds comes
upon all of them. The cut of a template into pieces, which reads from the right, has a parameter at
each of their places and nowhere else; a template is refused exactly if two have the same name.
-/
namespace Routebook

/-- Where a segment stands in its template. -/
def Segment.span (segment : Segment) : Nat × Nat := (segment.start, segment.stop)

namespace Template

/-- No name goes on at an index: there is no character, or one that names do not have. -/
def EndsName (text : List Char) (index : Nat) : Prop :=
  index = text.length ∨ ∃ c, text[index]? = some c ∧ isNameChar c = false

/-- A colon stands at `start` with a name character behind it, and `stop` is the first index after
that one where the name ends. -/
structure Placeholder (text : List Char) (start stop : Nat) : Prop where
  colon : text[start]? = some ':'
  named : ∃ c, text[start + 1]? = some c ∧ isNameChar c = true
  after : start + 1 < stop
  ends : EndsName text stop
  first : ∀ index, start + 1 < index → index < stop → ¬EndsName text index

/-- The spans that a search from left to right comes upon. -/
def spansFrom (position : Nat) : List Char → List (Nat × Nat)
  | [] => []
  | c :: rest =>
    let run := rest.takeWhile isNameChar
    if c = ':' ∧ run ≠ [] then
      let stop := position + 1 + run.length
      (position, stop) :: spansFrom stop (rest.dropWhile isNameChar)
    else spansFrom (position + 1) rest
  termination_by text => text.length
  decreasing_by
    · have shorter : (rest.dropWhile isNameChar).length ≤ rest.length :=
        (List.dropWhile_suffix _).length_le
      rw [List.length_cons]
      omega
    · simp

/-! ### Placeholders by their first character -/

theorem endsName_cons (c : Char) (text : List Char) (index : Nat) :
    EndsName (c :: text) (index + 1) ↔ EndsName text index := by
  simp [EndsName]

theorem placeholder_cons (c : Char) (text : List Char) (start stop : Nat) :
    Placeholder (c :: text) (start + 1) (stop + 1) ↔ Placeholder text start stop := by
  constructor
  · rintro ⟨colon, named, after, ends, first⟩
    refine ⟨by simpa using colon, by simpa using named, by omega, (endsName_cons _ _ _).mp ends, ?_⟩
    intro index above below none
    exact first (index + 1) (by omega) (by omega) ((endsName_cons _ _ _).mpr none)
  · rintro ⟨colon, named, after, ends, first⟩
    refine ⟨by simpa using colon, by simpa using named, by omega, (endsName_cons _ _ _).mpr ends,
      ?_⟩
    intro index above below none
    obtain ⟨index, rfl⟩ : ∃ before, index = before + 1 := ⟨index - 1, by omega⟩
    exact first index (by omega) (by omega) ((endsName_cons _ _ _).mp none)

/-- A run of name characters ends where it is as long as it can be. -/
theorem endsName_iff_eq_length_takeWhile {text : List Char} {stop : Nat}
    (inside : ∀ index < stop, ¬EndsName text index) :
    EndsName text stop ↔ stop = (text.takeWhile isNameChar).length := by
  induction text generalizing stop with
  | nil =>
    cases stop with
    | zero => simp [EndsName]
    | succ stop => exact absurd (Or.inl rfl) (inside 0 (by omega))
  | cons c text ih =>
    cases stop with
    | zero =>
      cases letter : isNameChar c <;> simp [EndsName, letter]
    | succ stop =>
      -- The first character is none where the name ends.
      have letter : isNameChar c = true := by
        cases letter : isNameChar c with
        | true => rfl
        | false => exact absurd (Or.inr ⟨c, rfl, letter⟩) (inside 0 (by omega))
      rw [endsName_cons, List.takeWhile_cons_of_pos letter, List.length_cons, Nat.succ_inj]
      apply ih
      intro index below none
      exact inside (index + 1) (by omega) ((endsName_cons _ _ _).mpr none)

theorem not_endsName_of_lt {text : List Char} {index : Nat}
    (below : index < (text.takeWhile isNameChar).length) : ¬EndsName text index := by
  induction text generalizing index with
  | nil => cases below
  | cons c text ih =>
    cases letter : isNameChar c with
    | false => simp [letter] at below
    | true =>
      cases index with
      | zero => simp [EndsName, letter]
      | succ index =>
        rw [endsName_cons]
        apply ih
        simpa [letter] using below

/-- At the front a placeholder takes its colon and the longest run of name characters. -/
theorem placeholder_zero (c : Char) (rest : List Char) (stop : Nat) :
    Placeholder (c :: rest) 0 stop ↔
      c = ':' ∧ rest.takeWhile isNameChar ≠ [] ∧ stop = 1 + (rest.takeWhile isNameChar).length := by
  constructor
  · rintro ⟨colon, ⟨d, second, letter⟩, after, ends, first⟩
    obtain ⟨stop, rfl⟩ : ∃ before, stop = before + 1 := ⟨stop - 1, by omega⟩
    -- The name does not end at its first character nor, by what is given, before the end.
    have run : ∀ index < stop, ¬EndsName rest index := by
      intro index below none
      by_cases front : index = 0
      · cases rest with
        | nil => cases second
        | cons e rest =>
          subst front
          cases second
          rcases none with short | ⟨f, here, other⟩
          · cases short
          · cases here
            rw [letter] at other
            cases other
      · exact first (index + 1) (by omega) (by omega) ((endsName_cons _ _ _).mpr none)
    have size := (endsName_iff_eq_length_takeWhile run).mp ((endsName_cons _ _ _).mp ends)
    refine ⟨by simpa using colon, ?_, by omega⟩
    intro empty
    rw [empty, List.length_nil] at size
    omega
  · rintro ⟨rfl, filled, rfl⟩
    have size := List.length_pos_iff.mpr filled
    have inside (index : Nat) (below : index < (rest.takeWhile isNameChar).length) :
        ¬EndsName rest index := not_endsName_of_lt below
    have ends := (endsName_iff_eq_length_takeWhile inside).mpr rfl
    refine ⟨rfl, ?_, by omega, ?_, ?_⟩
    · cases rest with
      | nil => exact absurd rfl filled
      | cons d rest =>
        refine ⟨d, rfl, ?_⟩
        cases letter : isNameChar d with
        | true => rfl
        | false => exact absurd (List.takeWhile_cons_of_neg (by simp [letter])) filled
    · rw [Nat.add_comm]
      exact (endsName_cons _ _ _).mpr ends
    · intro index above below none
      obtain ⟨index, rfl⟩ : ∃ before, index = before + 1 := ⟨index - 1, by omega⟩
      exact inside index (by omega) ((endsName_cons _ _ _).mp none)

/-- A placeholder stands at the front, or behind the first character. -/
theorem placeholder_cons_iff (c : Char) (rest : List Char) (start stop : Nat) :
    Placeholder (c :: rest) start stop ↔
      ((c = ':' ∧ rest.takeWhile isNameChar ≠ []) ∧ start = 0 ∧
        stop = 1 + (rest.takeWhile isNameChar).length) ∨
      ∃ start' stop', start = 1 + start' ∧ stop = 1 + stop' ∧ Placeholder rest start' stop' := by
  constructor
  · intro found
    have above := found.after
    cases start with
    | zero =>
      obtain ⟨colon, filled, size⟩ := (placeholder_zero _ _ _).mp found
      exact Or.inl ⟨⟨colon, filled⟩, rfl, size⟩
    | succ start =>
      obtain ⟨stop, rfl⟩ := Nat.exists_eq_add_of_lt (Nat.zero_lt_of_lt above)
      rw [Nat.zero_add, placeholder_cons] at found
      exact Or.inr ⟨start, stop, by omega, by omega, found⟩
  · rintro (⟨⟨colon, filled⟩, rfl, rfl⟩ | ⟨start, stop, rfl, rfl, found⟩)
    · exact (placeholder_zero _ _ _).mpr ⟨colon, filled, rfl⟩
    · rw [Nat.add_comm 1, Nat.add_comm 1, placeholder_cons]
      exact found

/-- None begins among name characters. -/
theorem placeholder_append_iff {run : List Char} (letters : ∀ c ∈ run, isNameChar c = true)
    (rest : List Char) (start stop : Nat) :
    Placeholder (run ++ rest) start stop ↔ ∃ start' stop', start = run.length + start' ∧
      stop = run.length + stop' ∧ Placeholder rest start' stop' := by
  induction run generalizing start stop with
  | nil => simp
  | cons c run ih =>
    obtain ⟨letter, letters⟩ := List.forall_mem_cons.mp letters
    have other : c ≠ ':' := by
      rintro rfl
      exact absurd letter (by decide)
    rw [List.cons_append, placeholder_cons_iff, List.length_cons]
    constructor
    · rintro (⟨⟨colon, -⟩, -⟩ | ⟨start', stop', rfl, rfl, found⟩)
      · exact absurd colon other
      · obtain ⟨start', stop', rfl, rfl, more⟩ := (ih letters _ _).mp found
        exact ⟨start', stop', by omega, by omega, more⟩
    · rintro ⟨start', stop', rfl, rfl, more⟩
      have inner := (ih letters _ _).mpr ⟨start', stop', rfl, rfl, more⟩
      exact Or.inr ⟨_, _, by omega, by omega, inner⟩

/-- The search finds all placeholders. -/
theorem mem_spansFrom_iff (position : Nat) (text : List Char) (span : Nat × Nat) :
    span ∈ spansFrom position text ↔ ∃ start stop,
      span = (position + start, position + stop) ∧ Placeholder text start stop := by
  -- The induction goes the way of the search, which skips the name behind a colon.
  induction position, text using spansFrom.induct with
  | case1 position =>
    rw [spansFrom]
    constructor
    · nofun
    · rintro ⟨start, stop, -, found⟩
      cases found.colon
  | case2 position c rest run here stop ih =>
    have letters : ∀ d ∈ run, isNameChar d = true := fun d => List.mem_takeWhile_imp
    have split : run ++ rest.dropWhile isNameChar = rest := List.takeWhile_append_dropWhile
    rw [spansFrom, if_pos here, List.mem_cons, ih]
    constructor
    · rintro (rfl | ⟨start, stop', rfl, found⟩)
      · exact ⟨0, 1 + run.length, by simp [run]; omega,
          (placeholder_cons_iff _ _ _ _).mpr (Or.inl ⟨here, rfl, rfl⟩)⟩
      · have inner := (placeholder_append_iff letters _ _ _).mpr ⟨start, stop', rfl, rfl, found⟩
        rw [split] at inner
        exact ⟨_, _, by simp [stop]; omega,
          (placeholder_cons_iff _ _ _ _).mpr (Or.inr ⟨_, _, rfl, rfl, inner⟩)⟩
    · rintro ⟨start, stop', rfl, found⟩
      rcases (placeholder_cons_iff _ _ _ _).mp found with
        ⟨-, rfl, rfl⟩ | ⟨start, stop', rfl, rfl, inner⟩
      · exact Or.inl (by simp; omega)
      -- None begins inside the name that was skipped.
      · rw [← split] at inner
        obtain ⟨start', stop'', rfl, rfl, more⟩ := (placeholder_append_iff letters _ _ _).mp inner
        exact Or.inr ⟨start', stop'', by simp [stop]; omega, more⟩
  | case3 position c rest run none ih =>
    rw [spansFrom, if_neg none, ih]
    constructor
    · rintro ⟨start, stop, rfl, found⟩
      exact ⟨1 + start, 1 + stop, by simp; omega,
        (placeholder_cons_iff _ _ _ _).mpr (Or.inr ⟨_, _, rfl, rfl, found⟩)⟩
    · rintro ⟨start, stop, rfl, found⟩
      rcases (placeholder_cons_iff _ _ _ _).mp found with
        ⟨here, -⟩ | ⟨start, stop, rfl, rfl, inner⟩
      · exact absurd here none
      · exact ⟨start, stop, by simp; omega, inner⟩

/-- The spans are found in ascending order. -/
theorem spansFrom_pairwise (position : Nat) (text : List Char) :
    (spansFrom position text).Pairwise fun before after => before.1 < after.1 := by
  induction position, text using spansFrom.induct with
  | case1 position =>
    rw [spansFrom]
    exact .nil
  | case2 position c rest run here stop ih =>
    rw [spansFrom, if_pos here]
    refine .cons (fun span later => ?_) ih
    obtain ⟨start, stop', rfl, -⟩ := (mem_spansFrom_iff _ _ _).mp later
    show position < stop + start
    omega
  | case3 position c rest run none ih =>
    rw [spansFrom, if_neg none]
    exact ih

theorem nodup_spansFrom (position : Nat) (text : List Char) : (spansFrom position text).Nodup := by
  refine (spansFrom_pairwise position text).imp ?_
  rintro span _ below rfl
  exact Nat.lt_irrefl _ below

/-! ### Pieces from left to right -/

theorem pieces_eq_scan (text : List Char) :
    pieces text = joinLiteral (scan text).1 (scan text).2 := rfl

theorem scan_fst (text : List Char) : (scan text).1 = text.takeWhile isNameChar := by
  induction text with
  | nil => rfl
  | cons c rest ih =>
    rw [scan_cons]
    by_cases letter : isNameChar c = true
    · rw [if_pos letter, List.takeWhile_cons_of_pos letter, ih]
    · rw [if_neg letter, List.takeWhile_cons_of_neg letter]
      split <;> rfl

theorem scan_snd (text : List Char) : (scan text).2 = pieces (text.dropWhile isNameChar) := by
  induction text with
  | nil => rfl
  | cons c rest ih =>
    by_cases letter : isNameChar c = true
    · rw [scan_cons, if_pos letter, List.dropWhile_cons_of_pos letter, ih]
    · -- Nothing is dropped, and there is no run to be joined.
      rw [List.dropWhile_cons_of_neg letter, pieces_eq_scan, scan_fst,
        List.takeWhile_cons_of_neg letter, joinLiteral]

theorem joinLiteral_cons (c : Char) (run : List Char) (pieces : List Piece) :
    joinLiteral [c] (joinLiteral run pieces) = joinLiteral (c :: run) pieces := by
  cases run with
  | nil => rfl
  | cons d run =>
    cases pieces with
    | nil => rfl
    | cons piece pieces => cases piece <;> rfl

/-- Either a template begins with a parameter, or its first character is literal. -/
theorem pieces_cons (c : Char) (rest : List Char) :
    pieces (c :: rest) =
      if c = ':' ∧ rest.takeWhile isNameChar ≠ [] then
        .parameter (rest.takeWhile isNameChar) :: pieces (rest.dropWhile isNameChar)
      else joinLiteral [c] (pieces rest) := by
  rw [pieces_eq_scan, pieces_eq_scan rest, scan_cons]
  by_cases letter : isNameChar c = true
  · have other : c ≠ ':' := by
      rintro rfl
      exact absurd letter (by decide)
    rw [if_pos letter, if_neg (fun here => other here.1), joinLiteral_cons]
  · rw [if_neg letter, scan_fst, scan_snd]
    split <;> rfl

/-! ### Parameters where the search finds placeholders -/

/-- Literal text in front only moves the parameters. -/
theorem filter_place_joinLiteral (start : Nat) (text : List Char) (pieces : List Piece) :
    (place start (joinLiteral text pieces)).filter (·.isParam) =
      (place (start + text.length) pieces).filter (·.isParam) := by
  unfold joinLiteral
  split
  · rfl
  next more pieces _ =>
    simp [place_cons, Piece.name?, pieceText, Nat.add_assoc]
  next text pieces _ _ =>
    simp [place_cons, Piece.name?, pieceText]

theorem map_span_place (start : Nat) (text : List Char) :
    ((place start (pieces text)).filter (·.isParam)).map Segment.span = spansFrom start text := by
  induction start, text using spansFrom.induct with
  | case1 start =>
    rw [spansFrom]
    rfl
  | case2 start c rest run here stop ih =>
    have size : start + (pieceText (.parameter run)).length = stop := by
      rw [pieceText, List.length_cons]
      omega
    rw [spansFrom, if_pos here, pieces_cons, if_pos here, place_cons, size]
    exact congrArg ((start, stop) :: ·) ih
  | case3 start c rest run none ih =>
    rw [spansFrom, if_neg none, pieces_cons, if_neg none, filter_place_joinLiteral]
    exact ih

/-- The placeholders of a template are what the search comes upon. -/
theorem map_span_placeholders (template : String) :
    (placeholders template).map Segment.span = spansFrom 0 template.toList :=
  map_span_place 0 template.toList

end Template

end Routebook
