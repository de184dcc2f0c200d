import Mathlib.Data.List.Chain
import Routebook.Proofs.Placeholders

/-!
# Tilings

The segments of a template tile it: they follow one another without gap or overlap, the parameters
among them stand exactly where the placeholders are, and no literal follows another. There is only
one such list, since two tilings that agree up to an index go on alike: with the same parameter, or
with literal text up to the same place.
-/
namespace Routebook.Template

/-- Segments that are not empty and follow one another from an index to another. -/
def Tiles : Nat → List Segment → Nat → Prop
  | start, [], stop => start = stop
  | start, segment :: rest, stop =>
    segment.start = start ∧ start < segment.stop ∧ Tiles segment.stop rest stop

/-- Segments that tile a text from an index on, cut as little as its placeholders allow. -/
structure Tiling (text : List Char) (position : Nat) (found : List Segment) : Prop where
  contiguous : Tiles position found text.length
  spelled : ∀ segment ∈ found,
    segment.text = String.ofList (text.extract segment.start segment.stop)
  placeholders : ∀ start stop, position ≤ start →
    ((∃ segment ∈ found, segment.isParam = true ∧ segment.start = start ∧ segment.stop = stop) ↔
      Placeholder text start stop)
  apart : found.IsChain fun before after => before.isParam = true ∨ after.isParam = true
  marked : ∀ segment ∈ found, (segment.isParam = true ↔ segment.name ≠ none)
  named : ∀ segment ∈ found, ∀ name, segment.name = some name → name = nameOf segment.text

/-! ### The segments of a template -/

theorem tiles_place (start : Nat) {pieces : List Piece} (reduced : Reduced pieces) :
    Tiles start (place start pieces) (start + (pieces.flatMap pieceText).length) := by
  induction reduced generalizing start with
  | nil => rfl
  | @parameter name pieces named more ih =>
    have rest := ih (start + (pieceText (.parameter name)).length)
    rw [place_cons, List.flatMap_cons, List.length_append, ← Nat.add_assoc]
    exact ⟨rfl, by simp [pieceText], rest⟩
  | @literal text pieces nonempty more last ih =>
    have rest := ih (start + (pieceText (.literal text)).length)
    have size : 0 < text.length := List.length_pos_iff.mpr nonempty
    rw [place_cons, List.flatMap_cons, List.length_append, ← Nat.add_assoc]
    exact ⟨rfl, by simpa [pieceText] using size, rest⟩

theorem spelled_of_mem_place (before : List Char) {pieces : List Piece} {segment : Segment}
    (member : segment ∈ place before.length pieces) :
    segment.text = String.ofList
      ((before ++ pieces.flatMap pieceText).extract segment.start segment.stop) := by
  induction pieces generalizing before with
  | nil => cases member
  | cons piece pieces ih =>
    rw [place_cons] at member
    rcases List.mem_cons.mp member with rfl | later
    · simp [List.extract_eq_take_drop]
    · -- The text of the first piece joins what stands before.
      have inner := ih (before ++ pieceText piece) (by simpa using later)
      simpa using inner

theorem apart_place (start : Nat) {pieces : List Piece} (reduced : Reduced pieces) :
    (place start pieces).IsChain fun before after =>
      before.isParam = true ∨ after.isParam = true := by
  induction reduced generalizing start with
  | nil => exact .nil
  | @parameter name pieces named more ih =>
    have rest := ih (start + (pieceText (.parameter name)).length)
    rw [place_cons]
    exact rest.cons fun _ _ => Or.inl rfl
  | @literal text pieces nonempty more last ih =>
    have rest := ih (start + (pieceText (.literal text)).length)
    rw [place_cons]
    refine rest.cons fun next first => Or.inr ?_
    -- The next segment is of a piece that is no literal, since the pieces are reduced.
    cases pieces with
    | nil => cases first
    | cons piece pieces =>
      rw [place_cons] at first
      cases first
      cases piece with
      | literal other => exact absurd rfl (last other pieces)
      | parameter name => rfl

theorem name_of_mem_place {start : Nat} {pieces : List Piece} {segment : Segment}
    (member : segment ∈ place start pieces) :
    (segment.isParam = true ↔ segment.name ≠ none) ∧
      ∀ name, segment.name = some name → name = nameOf segment.text := by
  induction pieces generalizing start with
  | nil => cases member
  | cons piece pieces ih =>
    rw [place_cons] at member
    rcases List.mem_cons.mp member with rfl | later
    · cases piece with
      | literal text => simp [Piece.name?]
      | parameter name => simp [Piece.name?, nameOf, pieceText]
    · exact ih later

/-- The segments of a template tile it. -/
theorem tiling_segments (template : String) :
    Tiling template.toList 0 (segments template) where
  contiguous := by
    have whole := tiles_place 0 (reduced_pieces template.toList)
    rw [flatMap_pieces, Nat.zero_add] at whole
    exact whole
  spelled segment member := by
    have own := spelled_of_mem_place [] member
    rw [List.nil_append, flatMap_pieces] at own
    exact own
  placeholders start stop _ := by
    have spans := map_span_place 0 template.toList
    have here : (start, stop) ∈ spansFrom 0 template.toList ↔
        Placeholder template.toList start stop := by
      simp [mem_spansFrom_iff]
    rw [← here, ← spans]
    simp [Segment.span, segments, and_assoc]
  apart := apart_place 0 (reduced_pieces template.toList)
  marked segment member := (name_of_mem_place member).1
  named segment member := (name_of_mem_place member).2

/-! ### Only one tiling -/

variable {text : List Char} {start stop : Nat} {segment other : Segment}
  {found others : List Segment}

theorem Tiles.le (tiles : Tiles start found stop) : start ≤ stop := by
  induction found generalizing start with
  | nil => exact Nat.le_of_eq tiles
  | cons segment found ih =>
    obtain ⟨-, nonempty, rest⟩ := tiles
    have := ih rest
    omega

theorem Tiles.le_start (tiles : Tiles start found stop) :
    ∀ segment ∈ found, start ≤ segment.start := by
  induction found generalizing start with
  | nil => nofun
  | cons segment found ih =>
    obtain ⟨rfl, nonempty, rest⟩ := tiles
    refine List.forall_mem_cons.mpr ⟨Nat.le_refl _, fun later member => ?_⟩
    have := ih rest later member
    omega

/-- The first of the segments is the only one at its place. -/
theorem Tiles.eq_head (tiles : Tiles start (segment :: found) stop)
    (member : other ∈ segment :: found) (here : other.start < segment.stop) :
    other = segment := by
  rcases List.mem_cons.mp member with same | later
  · exact same
  · have := tiles.2.2.le_start other later
    omega

theorem Tiling.name_eq (tiling : Tiling text start found) (member : segment ∈ found) :
    segment.name = if segment.isParam then some (nameOf segment.text) else none := by
  have marked := tiling.marked segment member
  cases name : segment.name with
  | none =>
    rw [if_neg]
    intro param
    exact marked.mp param name
  | some own =>
    have param := marked.mpr (by rw [name]; simp)
    rw [if_pos param, tiling.named segment member own name]

theorem Tiling.tail (tiling : Tiling text start (segment :: found)) :
    Tiling text segment.stop found where
  contiguous := tiling.contiguous.2.2
  spelled other member := tiling.spelled other (List.mem_cons_of_mem _ member)
  placeholders start' stop' above := by
    obtain ⟨rfl, nonempty, -⟩ := tiling.contiguous
    rw [← tiling.placeholders start' stop' (by omega)]
    constructor
    · rintro ⟨other, member, own⟩
      exact ⟨other, List.mem_cons_of_mem _ member, own⟩
    · rintro ⟨other, member, param, rfl, rfl⟩
      -- The first segment begins before all places that are looked at here.
      rcases List.mem_cons.mp member with rfl | later
      · omega
      · exact ⟨other, later, param, rfl, rfl⟩
  apart := tiling.apart.tail
  marked other member := tiling.marked other (List.mem_cons_of_mem _ member)
  named other member := tiling.named other (List.mem_cons_of_mem _ member)

/-- Where one tiling goes on with a parameter, any other does so too. -/
theorem Tiling.head_of_param (one : Tiling text start (segment :: found))
    (two : Tiling text start (other :: others)) (param : segment.isParam = true) :
    other.isParam = true ∧ other.stop = segment.stop := by
  obtain ⟨here, -, -⟩ := one.contiguous
  obtain ⟨there, nonempty, -⟩ := two.contiguous
  have own := (one.placeholders start segment.stop (Nat.le_refl _)).mp
    ⟨segment, List.mem_cons_self, param, here, rfl⟩
  obtain ⟨same, member, param', begins, ends⟩ :=
    (two.placeholders start segment.stop (Nat.le_refl _)).mpr own
  obtain rfl := two.contiguous.eq_head member (by omega)
  exact ⟨param', ends⟩

/-- Literal text goes on up to a placeholder or to the end, past which no other tiling has it. -/
theorem Tiling.stop_le_of_literal (one : Tiling text start (segment :: found))
    (two : Tiling text start (other :: others)) (literal : segment.isParam = false)
    (literal' : other.isParam = false) : other.stop ≤ segment.stop := by
  have inside := two.contiguous.2.2.le
  cases found with
  | nil =>
    have all : segment.stop = text.length := one.contiguous.2.2
    omega
  | cons next found =>
    have param : next.isParam = true := by
      rcases (List.isChain_cons_cons.mp one.apart).1 with own | after
      · rw [literal] at own
        cases own
      · exact after
    -- The other tiling has the same parameter, and not within its first segment.
    obtain ⟨begins, -, -⟩ := one.tail.contiguous
    have above := one.contiguous.2.1
    have own := (one.placeholders segment.stop next.stop (by omega)).mp
      ⟨next, List.mem_cons_of_mem _ List.mem_cons_self, param, begins, rfl⟩
    obtain ⟨same, member, param', begins', -⟩ :=
      (two.placeholders segment.stop next.stop (by omega)).mpr own
    apply Nat.le_of_not_lt
    intro below
    rw [two.contiguous.eq_head member (by omega), literal'] at param'
    cases param'

theorem Tiling.head_eq (one : Tiling text start (segment :: found))
    (two : Tiling text start (other :: others)) : segment = other := by
  have alike : segment.isParam = other.isParam ∧ segment.stop = other.stop := by
    cases kind : segment.isParam with
    | true =>
      obtain ⟨param, same⟩ := one.head_of_param two kind
      exact ⟨param.symm, same.symm⟩
    | false =>
      cases kind' : other.isParam with
      | true =>
        rw [(two.head_of_param one kind').1] at kind
        cases kind
      | false =>
        exact ⟨rfl, Nat.le_antisymm (two.stop_le_of_literal one kind' kind)
          (one.stop_le_of_literal two kind kind')⟩
  obtain ⟨kind, stop⟩ := alike
  have start : segment.start = other.start := one.contiguous.1.trans two.contiguous.1.symm
  -- Where a segment stands and whether it is a parameter decides all of it.
  have text : segment.text = other.text := by
    rw [one.spelled segment List.mem_cons_self, two.spelled other List.mem_cons_self, start, stop]
  have name : segment.name = other.name := by
    rw [one.name_eq List.mem_cons_self, two.name_eq List.mem_cons_self, kind, text]
  cases segment
  cases other
  cases start
  cases stop
  cases kind
  cases text
  cases name
  rfl

theorem Tiling.unique (one : Tiling text start found) (two : Tiling text start others) :
    found = others := by
  -- Either both are at the end, or both go on with the same segment.
  induction found generalizing start others with
  | nil =>
    have done : start = text.length := one.contiguous
    cases others with
    | nil => rfl
    | cons other others =>
      obtain ⟨-, nonempty, rest⟩ := two.contiguous
      have := rest.le
      omega
  | cons segment found ih =>
    cases others with
    | nil =>
      have done : start = text.length := two.contiguous
      obtain ⟨-, nonempty, rest⟩ := one.contiguous
      have := rest.le
      omega
    | cons other others =>
      obtain rfl := one.head_eq two
      rw [ih one.tail two.tail]

/-! ### Names -/

/-- The name of a placeholder: its text without the colon. -/
def nameAt (text : List Char) (span : Nat × Nat) : String :=
  String.ofList (text.extract (span.1 + 1) span.2)

/-- No two placeholders of a template have the same name. -/
def NamesDiffer (template : String) : Prop :=
  ∀ one two : Nat × Nat, Placeholder template.toList one.1 one.2 →
    Placeholder template.toList two.1 two.2 →
    nameAt template.toList one = nameAt template.toList two → one = two

theorem Tiling.keys_eq (tiling : Tiling text start found) :
    keys found = ((found.filter (·.isParam)).map Segment.span).map (nameAt text) := by
  induction found generalizing start with
  | nil => rfl
  | cons segment found ih =>
    have rest := ih tiling.tail
    have name := tiling.name_eq List.mem_cons_self
    rw [keys] at rest ⊢
    cases kind : segment.isParam with
    | false =>
      rw [kind, if_neg (by decide)] at name
      rw [List.filterMap_cons_none name, List.filter_cons_of_neg (by simp [kind]), rest]
    | true =>
      rw [kind, if_pos rfl] at name
      rw [List.filterMap_cons_some name, List.filter_cons_of_pos kind, List.map_cons,
        List.map_cons, rest, nameOf, tiling.spelled segment List.mem_cons_self]
      simp [nameAt, Segment.span, List.extract_eq_take_drop, List.drop_take, Nat.sub_sub]

/-- The keys of a template are the names of its placeholders, from left to right. -/
theorem keys_eq_map_nameAt (template : String) :
    keys (segments template) = (spansFrom 0 template.toList).map (nameAt template.toList) := by
  rw [(tiling_segments template).keys_eq, ← map_span_place]
  rfl

theorem namesDiffer_iff {template : String} :
    NamesDiffer template ↔ (keys (segments template)).Nodup := by
  have spans (span : Nat × Nat) : span ∈ spansFrom 0 template.toList ↔
      Placeholder template.toList span.1 span.2 := by
    simp [mem_spansFrom_iff, Prod.ext_iff]
  rw [keys_eq_map_nameAt, List.nodup_map_iff_inj_on (nodup_spansFrom _ _)]
  simp only [spans, NamesDiffer]
  constructor
  · exact fun differ one here two there => differ one two here there
  · exact fun differ one two here there => differ one here two there

instance (template : String) : Decidable (NamesDiffer template) :=
  decidable_of_iff _ namesDiffer_iff.symm

theorem firstRepeated?_eq_none {α : Type} [DecidableEq α] {seen names : List α}
    (unique : names.Nodup) (apart : ∀ name ∈ names, name ∉ seen) :
    firstRepeated? seen names = none := by
  induction names generalizing seen with
  | nil => rfl
  | cons name names ih =>
    obtain ⟨fresh, unique⟩ := List.nodup_cons.mp unique
    obtain ⟨new, apart⟩ := List.forall_mem_cons.mp apart
    rw [firstRepeated?, if_neg new]
    apply ih unique
    intro other member again
    rcases List.mem_cons.mp again with rfl | old
    · exact fresh member
    · exact apart other member old

theorem parse_of_namesDiffer {template : String} (differ : NamesDiffer template) :
    parse template = .ok (segments template) := by
  have none : firstRepeated? [] (keys (segments template)) = none :=
    firstRepeated?_eq_none (namesDiffer_iff.mp differ) (by simp)
  rw [parse]
  simp only [none]

theorem parse_of_not_namesDiffer {template : String} (same : ¬NamesDiffer template) :
    ∃ cause, parse template = .error cause ∧ cause.route = template := by
  cases parsed : parse template with
  | error cause =>
    refine ⟨cause, rfl, ?_⟩
    rw [parse] at parsed
    split at parsed
    · cases parsed
      rfl
    · cases parsed
  | ok found => exact absurd (namesDiffer_iff.mpr (parse_eq_ok parsed).2) same

/-- A template whose placeholders have different names is parsed into the one list of segments that
tiles it. The placeholders that a search from left to right comes upon are its parameters. -/
theorem parse_eq_unique_tiling {template : String} (differ : NamesDiffer template) :
    ∃ found, parse template = .ok found ∧ Tiling template.toList 0 found ∧
      (∀ other, Tiling template.toList 0 other → other = found) ∧
      (placeholders template).map Segment.span = (found.filter (·.isParam)).map Segment.span ∧
      (placeholders template).map Segment.span = spansFrom 0 template.toList :=
  ⟨segments template, parse_of_namesDiffer differ, tiling_segments template,
    fun _ tiling => tiling.unique (tiling_segments template), rfl, map_span_placeholders template⟩

/-- A colon before a colon, one behind a name and one at the end belong to no placeholder. -/
theorem parse_eq_unique_tiling_colons :
    NamesDiffer "/::id:/:x-1:" ∧
    ∃ found, parse "/::id:/:x-1:" = .ok found ∧ Tiling "/::id:/:x-1:".toList 0 found ∧
      (∀ other, Tiling "/::id:/:x-1:".toList 0 other → other = found) ∧
      (placeholders "/::id:/:x-1:").map Segment.span =
        (found.filter (·.isParam)).map Segment.span ∧
      (placeholders "/::id:/:x-1:").map Segment.span = spansFrom 0 "/::id:/:x-1:".toList :=
  have differ : NamesDiffer "/::id:/:x-1:" := by decide
  ⟨differ, parse_eq_unique_tiling differ⟩

end Routebook.Template

namespace Routebook.Route

/-- A template gives a route exactly if its placeholders have different names. -/
theorem compile_cases (template : String) :
    (Template.NamesDiffer template ∧ ∃ route, compile template = .ok route ∧
      route.template = template) ∨
    (¬Template.NamesDiffer template ∧ ∃ cause, compile template = .error cause ∧
      cause.route = template) := by
  by_cases differ : Template.NamesDiffer template
  · have compiled := compile.eq_def template
    rw [Template.compile, Template.parse_of_namesDiffer differ] at compiled
    exact Or.inl ⟨differ, _, compiled, rfl⟩
  · obtain ⟨cause, failed, same⟩ := Template.parse_of_not_namesDiffer differ
    refine Or.inr ⟨differ, cause, ?_, same⟩
    rw [compile, Template.compile, failed]
    rfl

/-- The parts of a route are those of its template. -/
theorem parts_of_compile {template : String} {route : Route}
    (compiled : compile template = .ok route) :
    Template.compile template = .ok (route.items, route.keys) ∧ route.template = template ∧
      route.pattern = String.ofList route.items.text := by
  rw [compile] at compiled
  cases parts : Template.compile template with
  | error cause =>
    rw [parts] at compiled
    cases compiled
  | ok found =>
    rw [parts] at compiled
    cases compiled
    exact ⟨rfl, rfl, rfl⟩

end Routebook.Route
