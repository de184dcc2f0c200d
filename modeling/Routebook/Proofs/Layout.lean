import Routebook.Route

/-!
# Layout of templates

The pieces of a template are its text cut up: joined again they are the template. No literal among
them is empty or follows another literal, and every parameter has a name. Segments are the same
pieces with their places.
-/
namespace Routebook

/-- What a piece stands for in a match. -/
def Piece.part : Piece → Part
  | .literal text => .literal text
  | .parameter _ => .wildcard

def Piece.name? : Piece → Option String
  | .literal _ => none
  | .parameter name => some (String.ofList name)

namespace Template

/-- Literals are as long as they can be: none is empty, and none follows another. -/
inductive Reduced : List Piece → Prop where
  | nil : Reduced []
  | parameter {name pieces} (named : name ≠ []) (more : Reduced pieces) :
      Reduced (.parameter name :: pieces)
  | literal {text pieces} (nonempty : text ≠ []) (more : Reduced pieces)
      (last : ∀ other rest, pieces ≠ .literal other :: rest) : Reduced (.literal text :: pieces)

theorem flatMap_joinLiteral (text : List Char) (pieces : List Piece) :
    (joinLiteral text pieces).flatMap pieceText = text ++ pieces.flatMap pieceText := by
  unfold joinLiteral
  split <;> simp [pieceText]

theorem reduced_joinLiteral (text : List Char) {pieces : List Piece} (reduced : Reduced pieces) :
    Reduced (joinLiteral text pieces) := by
  unfold joinLiteral
  split
  · exact reduced
  next nonempty =>
    cases reduced with
    | literal _ more last =>
      exact .literal (List.append_ne_nil_of_left_ne_nil nonempty _) more last
  -- The text would have joined a literal in front.
  next nonempty other => exact .literal nonempty reduced other

theorem scan_cons (c : Char) (rest : List Char) :
    scan (c :: rest) =
      if isNameChar c then (c :: (scan rest).1, (scan rest).2)
      else if c = ':' ∧ (scan rest).1 ≠ [] then ([], .parameter (scan rest).1 :: (scan rest).2)
      else ([], joinLiteral [c] (joinLiteral (scan rest).1 (scan rest).2)) := rfl

/-- Cutting loses no text. -/
theorem flatMap_scan (text : List Char) :
    (scan text).1 ++ (scan text).2.flatMap pieceText = text := by
  induction text with
  | nil => rfl
  | cons c rest ih =>
    rw [scan_cons]
    split
    · simp [ih]
    · split
      next colon => simp [pieceText, colon.1, ih]
      · simp [flatMap_joinLiteral, ih]

theorem reduced_scan (text : List Char) : Reduced (scan text).2 := by
  induction text with
  | nil => exact .nil
  | cons c rest ih =>
    rw [scan_cons]
    split
    · exact ih
    · -- A colon without a name behind it is literal text like any other character.
      split
      next colon => exact .parameter colon.2 ih
      · exact reduced_joinLiteral _ (reduced_joinLiteral _ ih)

theorem flatMap_pieces (text : List Char) : (pieces text).flatMap pieceText = text := by
  rw [pieces, flatMap_joinLiteral, flatMap_scan]

theorem reduced_pieces (text : List Char) : Reduced (pieces text) :=
  reduced_joinLiteral _ (reduced_scan text)

theorem place_cons (start : Nat) (piece : Piece) (rest : List Piece) :
    place start (piece :: rest) =
      ⟨String.ofList (pieceText piece), start, start + (pieceText piece).length,
        piece.name?.isSome, piece.name?⟩ :: place (start + (pieceText piece).length) rest := by
  cases piece <;> rfl

/-- Places do not change what segments stand for. -/
theorem map_ofSegment_place (start : Nat) (pieces : List Piece) :
    (place start pieces).map Part.ofSegment = pieces.map Piece.part := by
  induction pieces generalizing start with
  | nil => rfl
  | cons piece pieces ih =>
    rw [place_cons, List.map_cons, List.map_cons, ih]
    cases piece <;> simp [Part.ofSegment, Piece.part, Piece.name?, pieceText]

theorem flatMap_text_place (start : Nat) (pieces : List Piece) :
    (place start pieces).flatMap (·.text.toList) = pieces.flatMap pieceText := by
  induction pieces generalizing start with
  | nil => rfl
  | cons piece pieces ih => simp [place_cons, ih]

theorem flatMap_text_segments (template : String) :
    (segments template).flatMap (·.text.toList) = template.toList := by
  rw [segments, flatMap_text_place, flatMap_pieces]

/-- What the text, the mark and the name of a segment have to do with each other. -/
structure Coherent (segment : Segment) : Prop where
  named : segment.isParam = segment.name.isSome
  colon : segment.isParam = true → ∃ name, segment.text.toList = ':' :: name

theorem coherent_of_mem_place {start : Nat} {pieces : List Piece} {segment : Segment}
    (member : segment ∈ place start pieces) : Coherent segment := by
  induction pieces generalizing start with
  | nil => cases member
  | cons piece pieces ih =>
    rw [place_cons] at member
    rcases List.mem_cons.mp member with rfl | later
    · constructor
      · rfl
      · cases piece <;> simp [Piece.name?, pieceText]
    · exact ih later

theorem length_keys {segments : List Segment}
    (coherent : ∀ segment ∈ segments, Coherent segment) :
    (keys segments).length = segments.countP (·.isParam) := by
  rw [keys, List.length_filterMap_eq_countP]
  exact List.countP_congr fun segment member => by rw [(coherent segment member).named]

theorem count_keys (template : String) :
    (keys (segments template)).length = (segments template).countP (·.isParam) :=
  length_keys fun _ member => coherent_of_mem_place member

theorem nodup_of_firstRepeated?_eq_none {α : Type} [DecidableEq α] {seen names : List α}
    (none : firstRepeated? seen names = none) :
    names.Nodup ∧ ∀ name ∈ names, name ∉ seen := by
  induction names generalizing seen with
  | nil => simp
  | cons name names ih =>
    rw [firstRepeated?] at none
    split at none
    · cases none
    next fresh =>
      -- The names behind this one have been compared with it.
      obtain ⟨unique, apart⟩ := ih none
      refine ⟨List.nodup_cons.mpr ⟨fun again => ?_, unique⟩, ?_⟩
      · exact apart name again List.mem_cons_self
      · intro other member
        rcases List.mem_cons.mp member with rfl | later
        · exact fresh
        · exact fun old => apart other later (List.mem_cons_of_mem _ old)

/-- Parsing answers with the segments as they are, and their names differ. -/
theorem parse_eq_ok {template : String} {found : List Segment}
    (parsed : parse template = .ok found) :
    found = segments template ∧ (keys (segments template)).Nodup := by
  unfold parse at parsed
  dsimp only at parsed
  split at parsed
  · cases parsed
  next none =>
    exact ⟨(Except.ok.inj parsed).symm, (nodup_of_firstRepeated?_eq_none none).1⟩

end Template

end Routebook
