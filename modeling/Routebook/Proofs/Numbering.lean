import Mathlib.Data.List.DropRight
import Mathlib.Data.List.Forall2
import Routebook.Proofs.Declarations
import Routebook.Proofs.Rows

/-!
# Numbering

Where the declarations of a table stand in its text, and on which lines. A declaration begins at
each word with only blanks before it on its line, and its number counts all characters before it
that end lines. A file has a line for each line feed, so the numbers are those of the file, and what
follows a comment sign in the file declares nothing, exactly if no other character of that kind
stands before a declaration.
-/
namespace Routebook.Table

open Text (isBlank isBoundary lines)

variable {ends : Char → Bool} {line text rest : List Char} {b : Char} {index start : Nat}

/-! ### Places in a text -/

/-- The only character that ends a line of a file. -/
def isLineFeed (c : Char) : Bool := c = '\n'

/-- What stands before an index on its line, if lines end at the characters of a kind. -/
def frontOf (ends : Char → Bool) (text : List Char) (index : Nat) : List Char :=
  (text.take index).rtakeWhile (!ends ·)

/-- The number of the line that an index is on. -/
def lineAt (ends : Char → Bool) (text : List Char) (index : Nat) : Int :=
  1 + (text.take index).countP ends

/-- The word that begins at an index, if one does. -/
def wordAt (text : List Char) (index : Nat) : List Char := (text.drop index).takeWhile isSolid

/-- A blank that does not end the line it stands on. -/
def isGap (c : Char) : Bool := isBlank c && !isBoundary c

/-- Where a component can begin: behind a template and the blanks that follow it on the line. -/
def behind (text : List Char) (start : Nat) : Nat :=
  let stop := start + (wordAt text start).length
  stop + ((text.drop stop).takeWhile isGap).length

/-- A word begins at an index, with only blanks before it on its line. -/
def Opens (text : List Char) (start : Nat) : Prop :=
  wordAt text start ≠ [] ∧ ∀ c ∈ frontOf isBoundary text start, isBlank c = true

-- Only the characters of the front are looked at, not all there are.
instance (text : List Char) (start : Nat) : Decidable (Opens text start) :=
  decidable_of_iff (wordAt text start ≠ [] ∧ (frontOf isBoundary text start).all isBlank = true)
    (and_congr_right' List.all_eq_true)

/-- The indices where declarations begin, in their order. -/
def openings (text : List Char) : List Nat :=
  (List.range text.length).filter fun start => decide (Opens text start)

/-- The declaration that begins at an index, if lines are counted on from a number. -/
def declarationFrom (number : Int) (text : List Char) (start : Nat) : Entry Int where
  line := number + (text.take start).countP isBoundary
  template := String.ofList (wordAt text start)
  component :=
    let component := wordAt text (behind text start)
    if component = [] then none else some (String.ofList component)

/-- The lines of the file are those of the table: each declaration has the number of its line in the
file, no two have the same, and neither a template nor a component stands behind a comment sign on
its line in the file. -/
structure FileLines (text : List Char) : Prop where
  numbered : List.Forall₂ (fun start entry => entry.line = lineAt isLineFeed text start)
    (openings text) (read (String.ofList text))
  single : (openings text).Pairwise fun one other =>
    lineAt isLineFeed text one ≠ lineAt isLineFeed text other
  uncommented : ∀ start ∈ openings text, commentSign ∉ frontOf isLineFeed text start ∧
    commentSign ∉ frontOf isLineFeed text (behind text start)

/-! ### The words of a line from the left -/

theorem drop_length_takeWhile {α : Type} (p : α → Bool) (l : List α) :
    l.drop (l.takeWhile p).length = l.dropWhile p := by
  induction l with
  | nil => rfl
  | cons a l ih => cases own : p a <;> simp [own, ih]

theorem of_head_dropWhile {α : Type} {p : α → Bool} {l : List α} {a : α}
    (first : a ∈ (l.dropWhile p).head?) : p a = false := by
  have stop := List.head?_dropWhile_not p l
  rwa [Option.mem_def.mp first] at stop

/-- The first word of a line stands behind its blanks, and all others behind that one. -/
theorem declaredWords_eq (plain : ∀ c ∈ line, isBoundary c = false) :
    declaredWords line =
      if (line.dropWhile isGap).takeWhile isSolid = [] then []
      else (line.dropWhile isGap).takeWhile isSolid ::
        declaredWords ((line.dropWhile isGap).dropWhile isSolid) := by
  have blank : ∀ c ∈ line.takeWhile isGap, isBlank c = true := by
    intro c member
    have gap := List.mem_takeWhile_imp member
    simp only [isGap, Bool.and_eq_true] at gap
    exact gap.1
  have stop : ∀ c ∈ (line.dropWhile isGap).head?, isBlank c = false := by
    intro c first
    have gap := of_head_dropWhile first
    have inside := plain c ((List.dropWhile_suffix isGap).mem (List.mem_of_mem_head? first))
    simpa [isGap, inside] using gap
  conv => lhs; rw [← List.takeWhile_append_dropWhile (p := isGap) (l := line)]
  rw [declaredWords_append_of_blanks blank]
  generalize line.dropWhile isGap = rest at stop ⊢
  split
  next none =>
    -- What is no blank and begins no word is a comment sign.
    cases rest with
    | nil => rfl
    | cons c rest =>
      have sign : c = commentSign := by
        by_contra other
        rw [List.takeWhile_cons_of_pos (isSolid_iff.mpr ⟨stop c rfl, other⟩)] at none
        cases none
      rw [sign, declaredWords_commentSign]
  next filled =>
    conv => lhs; rw [← List.takeWhile_append_dropWhile (p := isSolid) (l := rest)]
    exact declaredWords_append_of_word filled (fun c => List.mem_takeWhile_imp)
      fun c => of_head_dropWhile

/-! ### One line -/

theorem takeWhile_append_cons {α : Type} {p : α → Bool} {a : α} (stop : p a = false)
    (front rest : List α) : (front ++ a :: rest).takeWhile p = front.takeWhile p := by
  induction front with
  | nil => simp [stop]
  | cons c front ih => cases own : p c <;> simp [own, ih]

/-- The words of a line begin where the lines of a text without boundaries do. -/
theorem frontOf_of_plain (plain : ∀ c ∈ line, isBoundary c = false) (index : Nat) :
    frontOf isBoundary line index = line.take index := by
  apply List.rtakeWhile_eq_self_iff.mpr
  intro c member
  simpa using plain c (List.mem_of_mem_take member)

theorem opens_cons_succ (plain : ∀ c ∈ b :: line, isBoundary c = false) :
    Opens (b :: line) (start + 1) ↔ isBlank b = true ∧ Opens line start := by
  have inside := (List.forall_mem_cons.mp plain).2
  rw [Opens, Opens, frontOf_of_plain plain, frontOf_of_plain inside, List.take_succ_cons,
    List.forall_mem_cons]
  exact and_left_comm

theorem opens_cons_zero : Opens (b :: text) 0 ↔ isSolid b = true := by
  cases solid : isSolid b <;> simp [Opens, wordAt, frontOf, solid]

theorem openings_cons (plain : ∀ c ∈ b :: line, isBoundary c = false) :
    openings (b :: line) =
      if isBlank b = true then (openings line).map Nat.succ
      else if isSolid b = true then [0] else [] := by
  have later : ((fun start => decide (Opens (b :: line) start)) ∘ Nat.succ) =
      fun start => isBlank b && decide (Opens line start) := by
    funext start
    rw [Function.comp_apply, Bool.eq_iff_iff, decide_eq_true_eq, opens_cons_succ plain,
      Bool.and_eq_true, decide_eq_true_eq]
  rw [openings, List.length_cons, List.range_succ_eq_map, List.filter_cons, List.filter_map, later]
  simp only [decide_eq_true_eq, opens_cons_zero]
  cases blank : isBlank b with
  | true =>
    have other : ¬isSolid b = true := by simp [isSolid, blank]
    rw [if_neg other, if_pos rfl, openings]
    rfl
  | false => simp

/-- A declaration begins where the first word does. -/
theorem openings_of_plain (plain : ∀ c ∈ line, isBoundary c = false) :
    openings line =
      if (line.dropWhile isGap).takeWhile isSolid = [] then []
      else [(line.takeWhile isGap).length] := by
  induction line with
  | nil => rfl
  | cons c line ih =>
    obtain ⟨inside, later⟩ := List.forall_mem_cons.mp plain
    rw [openings_cons plain]
    cases blank : isBlank c with
    | true =>
      have gap : isGap c = true := by simp [isGap, blank, inside]
      rw [if_pos rfl, ih later, List.dropWhile_cons_of_pos gap, List.takeWhile_cons_of_pos gap,
        apply_ite (List.map Nat.succ)]
      rfl
    | false =>
      have gap : ¬isGap c = true := by simp [isGap, blank]
      rw [if_neg (by decide), List.dropWhile_cons_of_neg gap, List.takeWhile_cons_of_neg gap]
      cases solid : isSolid c <;> simp [solid]

/-- A line declares what begins in it. -/
theorem ofLine?_eq (plain : ∀ c ∈ line, isBoundary c = false) (number : Int) :
    (Entry.ofLine? number line).toList = (openings line).map (declarationFrom number line) := by
  have none : (line.take (line.takeWhile isGap).length).countP isBoundary = 0 :=
    List.countP_eq_zero.mpr fun c member => by simp [plain c (List.mem_of_mem_take member)]
  have template : wordAt line (line.takeWhile isGap).length =
      (line.dropWhile isGap).takeWhile isSolid := by
    rw [wordAt, drop_length_takeWhile]
  have component : wordAt line (behind line (line.takeWhile isGap).length) =
      (((line.dropWhile isGap).dropWhile isSolid).dropWhile isGap).takeWhile isSolid := by
    rw [wordAt, behind, template, ← List.drop_drop, ← List.drop_drop, drop_length_takeWhile,
      drop_length_takeWhile, drop_length_takeWhile]
  have rest : ∀ c ∈ (line.dropWhile isGap).dropWhile isSolid, isBoundary c = false :=
    fun c member => plain c
      ((List.dropWhile_suffix _).mem ((List.dropWhile_suffix _).mem member))
  rw [openings_of_plain plain, Entry.ofLine?, declaredWords_eq plain]
  by_cases empty : (line.dropWhile isGap).takeWhile isSolid = []
  · rw [if_pos empty, if_pos empty]
    rfl
  · rw [if_neg empty, if_neg empty, List.map_singleton, declarationFrom, none, template, component,
      declaredWords_eq rest]
    dsimp only
    rw [Int.natCast_zero, Int.add_zero]
    split <;> rfl

/-! ### Several lines -/

/-- A text is a line or goes on behind its first line. -/
theorem plain_or_split (text : List Char) : (∀ c ∈ text, isBoundary c = false) ∨
    ∃ line b rest, text = line ++ b :: rest ∧ (∀ c ∈ line, isBoundary c = false) ∧
      isBoundary b = true := by
  induction text with
  | nil => exact Or.inl nofun
  | cons c text ih =>
    cases ends : isBoundary c with
    | true => exact Or.inr ⟨[], c, text, rfl, nofun, ends⟩
    | false =>
      rcases ih with plain | ⟨line, b, rest, rfl, plain, last⟩
      · exact Or.inl (List.forall_mem_cons.mpr ⟨ends, plain⟩)
      · exact Or.inr ⟨c :: line, b, rest, rfl, List.forall_mem_cons.mpr ⟨ends, plain⟩, last⟩

theorem length_wordAt_le (inside : start ≤ text.length) :
    start + (wordAt text start).length ≤ text.length := by
  have size := (List.takeWhile_prefix (l := text.drop start) isSolid).length_le
  rw [List.length_drop] at size
  rw [wordAt]
  omega

theorem behind_le (inside : start ≤ text.length) : behind text start ≤ text.length := by
  have within := length_wordAt_le inside
  have size := (List.takeWhile_prefix
    (l := text.drop (start + (wordAt text start).length)) isGap).length_le
  rw [List.length_drop] at size
  rw [behind]
  omega

theorem wordAt_append_left (last : isBoundary b = true) (inside : index ≤ line.length) :
    wordAt (line ++ b :: rest) index = wordAt line index := by
  have stop : isSolid b = false := by simp [isSolid, Text.isBlank_of_isBoundary last]
  rw [wordAt, List.drop_append_of_le_length inside, takeWhile_append_cons stop, wordAt]

theorem wordAt_append_right (line rest : List Char) (b : Char) (index : Nat) :
    wordAt (line ++ b :: rest) (line.length + (index + 1)) = wordAt rest index := by
  rw [wordAt, List.drop_length_add_append, List.drop_succ_cons, wordAt]

theorem behind_append_left (last : isBoundary b = true) (inside : start ≤ line.length) :
    behind (line ++ b :: rest) start = behind line start := by
  have stop : isGap b = false := by simp [isGap, last]
  rw [behind, wordAt_append_left last inside,
    List.drop_append_of_le_length (length_wordAt_le inside), takeWhile_append_cons stop, behind]

theorem behind_append_right (line rest : List Char) (b : Char) (start : Nat) :
    behind (line ++ b :: rest) (line.length + (start + 1)) =
      line.length + (behind rest start + 1) := by
  have stop : line.length + (start + 1) + (wordAt rest start).length =
      line.length + (start + (wordAt rest start).length + 1) := by omega
  rw [behind, wordAt_append_right, stop, List.drop_length_add_append, List.drop_succ_cons, behind]
  omega

theorem frontOf_append_left (inside : index ≤ line.length) (more : List Char) :
    frontOf ends (line ++ more) index = frontOf ends line index := by
  rw [frontOf, List.take_append_of_le_length inside, frontOf]

theorem frontOf_append_right (last : ends b = true) (line rest : List Char) (index : Nat) :
    frontOf ends (line ++ b :: rest) (line.length + (index + 1)) = frontOf ends rest index := by
  have stop : (!ends b) = false := by simp [last]
  rw [frontOf, frontOf, List.take_length_add_append, List.take_succ_cons, List.rtakeWhile,
    List.reverse_append, List.reverse_cons, List.append_assoc, List.singleton_append,
    takeWhile_append_cons (p := (!ends ·)) stop, List.rtakeWhile]

theorem openings_append (last : isBoundary b = true) (line rest : List Char) :
    openings (line ++ b :: rest) =
      openings line ++ (openings rest).map fun start => line.length + (start + 1) := by
  have left : ∀ start ∈ List.range line.length,
      decide (Opens (line ++ b :: rest) start) = decide (Opens line start) := by
    intro start member
    have inside := Nat.le_of_lt (List.mem_range.mp member)
    rw [decide_eq_decide, Opens, wordAt_append_left last inside, frontOf_append_left inside, Opens]
  have between : ¬Opens (line ++ b :: rest) (line.length + 0) := by
    intro opens
    apply opens.1
    rw [Nat.add_zero, wordAt_append_left last (Nat.le_refl _), wordAt, List.drop_length]
    rfl
  have right (start : Nat) : decide (Opens (line ++ b :: rest) (line.length + (start + 1))) =
      decide (Opens rest start) := by
    rw [decide_eq_decide, Opens, wordAt_append_right, frontOf_append_right last, Opens]
  rw [openings, List.length_append, List.length_cons, List.range_add, List.filter_append,
    List.filter_congr left, List.range_succ_eq_map, List.map_cons, List.filter_cons_of_neg
    (by simpa using between), List.map_map, List.filter_map]
  refine congrArg (openings line ++ ·) ?_
  rw [openings]
  refine congrArg (List.map _) (List.filter_congr fun start _ => ?_)
  exact right start

theorem declarationFrom_append_left (last : isBoundary b = true) (number : Int)
    (inside : start ≤ line.length) :
    declarationFrom number (line ++ b :: rest) start = declarationFrom number line start := by
  rw [declarationFrom, declarationFrom, wordAt_append_left last inside,
    behind_append_left last inside, wordAt_append_left last (behind_le inside),
    List.take_append_of_le_length inside]

theorem declarationFrom_append_right (last : isBoundary b = true) (number : Int)
    (plain : ∀ c ∈ line, isBoundary c = false) (rest : List Char) (start : Nat) :
    declarationFrom number (line ++ b :: rest) (line.length + (start + 1)) =
      declarationFrom (number + 1) rest start := by
  have none : line.countP isBoundary = 0 :=
    List.countP_eq_zero.mpr fun c member => by simp [plain c member]
  have count : number + ((line ++ b :: rest.take start).countP isBoundary : Int) =
      number + 1 + ((rest.take start).countP isBoundary : Int) := by
    rw [List.countP_append, none, List.countP_cons_of_pos last]
    omega
  rw [declarationFrom, declarationFrom, wordAt_append_right, behind_append_right,
    wordAt_append_right, List.take_length_add_append, List.take_succ_cons, count]

/-- The declarations of a table are those that begin in its text. -/
theorem entriesFrom_lines (translated : '\r' ∉ text) (number : Int) :
    entriesFrom number (lines text) = (openings text).map (declarationFrom number text) := by
  induction size : text.length using Nat.strongRecOn generalizing text number with
  | ind n ih =>
    subst size
    rcases plain_or_split text with plain | ⟨line, b, rest, rfl, plain, last⟩
    · by_cases empty : text = []
      · rw [empty]
        rfl
      · rw [Text.lines_line plain empty, entriesFrom, ofLine?_eq plain, entriesFrom,
          List.append_nil]
    · have other : b ≠ '\r' := by
        rintro rfl
        exact translated (by simp)
      have inside : ∀ start ∈ openings line, start ≤ line.length := fun start member =>
        Nat.le_of_lt (List.mem_range.mp (List.mem_of_mem_filter member))
      have later := ih rest.length (by simp; omega)
        (fun member => translated (by simp [member])) (number + 1) rfl
      rw [Text.lines_append_boundary plain last other, entriesFrom, later, ofLine?_eq plain,
        openings_append last, List.map_append, List.map_map]
      congr 1
      · exact List.map_congr_left fun start member =>
          (declarationFrom_append_left last number (inside start member)).symm
      · exact List.map_congr_left fun start _ =>
          (declarationFrom_append_right last number plain rest start).symm

/-! ### The lines of the file -/

theorem isBoundary_eq_isLineFeed_iff {c : Char} :
    isBoundary c = isLineFeed c ↔ (isBoundary c = true → c = '\n') := by
  by_cases feed : c = '\n'
  · simp [feed, isLineFeed, Text.isBoundary_lineFeed]
  · simp [feed, isLineFeed]

/-- Line feeds end lines, so two counts agree only if nothing else does. -/
theorem countP_eq_iff {front : List Char} :
    front.countP isBoundary = front.countP isLineFeed ↔
      ∀ c ∈ front, isBoundary c = isLineFeed c := by
  constructor
  · intro same
    induction front with
    | nil => nofun
    | cons c front ih =>
      have fewer : front.countP isLineFeed ≤ front.countP isBoundary := by
        apply List.countP_mono_left
        intro d _ feed
        have same : d = '\n' := by simpa [isLineFeed] using feed
        rw [same, Text.isBoundary_lineFeed]
      rw [List.countP_cons, List.countP_cons] at same
      by_cases here : isBoundary c = isLineFeed c
      · rw [here] at same
        exact List.forall_mem_cons.mpr ⟨here, ih (Nat.add_right_cancel same)⟩
      · -- The character counts once, and the counts of the others cannot make up for it.
        rw [isBoundary_eq_isLineFeed_iff, Classical.not_imp] at here
        have other : isLineFeed c = false := by simpa [isLineFeed] using here.2
        rw [here.1, other, if_pos rfl, if_neg (by decide)] at same
        omega
  · intro alike
    exact List.countP_congr fun c member => by rw [alike c member]

theorem takeWhile_congr {α : Type} {p q : α → Bool} {l : List α} (alike : ∀ a ∈ l, p a = q a) :
    l.takeWhile p = l.takeWhile q := by
  induction l with
  | nil => rfl
  | cons a l ih =>
    obtain ⟨own, later⟩ := List.forall_mem_cons.mp alike
    rw [List.takeWhile_cons, List.takeWhile_cons, own, ih later]

theorem mem_rtakeWhile_append {α : Type} {p : α → Bool} {front back : List α} {a : α}
    (member : a ∈ (front ++ back).rtakeWhile p) : a ∈ front.rtakeWhile p ∨ a ∈ back := by
  rw [List.rtakeWhile, List.mem_reverse, List.reverse_append, List.takeWhile_append] at member
  split at member
  · rw [List.mem_append, List.mem_reverse] at member
    exact member.symm.imp_left List.mem_reverse.mpr
  · exact Or.inr (List.mem_reverse.mp (List.takeWhile_subset _ member))

/-- Between the front of a declaration and its component are its template and blanks. -/
theorem mem_frontOf_behind {c : Char} (member : c ∈ frontOf ends text (behind text start)) :
    c ∈ frontOf ends text start ∨ isSolid c = true ∨ isGap c = true := by
  have front (p : Char → Bool) (l : List Char) :
      l.take (l.takeWhile p).length = l.takeWhile p :=
    (List.prefix_iff_eq_take.mp (List.takeWhile_prefix p)).symm
  have split : text.take (behind text start) = text.take start ++ (wordAt text start ++
      (text.drop (start + (wordAt text start).length)).takeWhile isGap) := by
    rw [behind, List.take_add, List.take_add, front, List.append_assoc, wordAt, front]
  rw [frontOf, split] at member
  rcases mem_rtakeWhile_append member with before | between
  · exact Or.inl before
  · refine Or.inr ((List.mem_append.mp between).imp ?_ ?_)
    · exact List.mem_takeWhile_imp
    · exact List.mem_takeWhile_imp

theorem frontOf_congr {ends' : Char → Bool} (alike : ∀ c ∈ text.take index, ends c = ends' c) :
    frontOf ends text index = frontOf ends' text index := by
  refine congrArg List.reverse (takeWhile_congr fun c before => ?_)
  rw [alike c (List.mem_reverse.mp before)]

/-- Blanks alone stand before a declaration on its line, and a comment sign is none. -/
theorem commentSign_not_mem_frontOf (member : start ∈ openings text) :
    commentSign ∉ frontOf isBoundary text start := by
  intro sign
  have opens : Opens text start := of_decide_eq_true (List.mem_filter.mp member).2
  exact ne_commentSign_of_blank (opens.2 _ sign) rfl

/-- In a text without carriage returns the declarations that are read are those that begin in it,
with the numbers that all characters count which end lines. The lines are those of the file exactly
if nothing but line feeds ends a line before any declaration. -/
theorem fileLines_iff (translated : '\r' ∉ text) :
    read (String.ofList text) = (openings text).map (declarationFrom 1 text) ∧
    (FileLines text ↔
      ∀ start ∈ openings text, ∀ c ∈ text.take start, isBoundary c = true → c = '\n') := by
  have whole : read (String.ofList text) = (openings text).map (declarationFrom 1 text) := by
    rw [read, String.toList_ofList, entriesFrom_lines translated]
  refine ⟨whole, ?_, fun feeds => ?_⟩
  · rintro ⟨numbered, -, -⟩
    rw [whole, List.forall₂_map_right_iff, List.forall₂_same] at numbered
    intro start member c before
    have same := numbered start member
    have count : (text.take start).countP isBoundary = (text.take start).countP isLineFeed := by
      simp only [declarationFrom, lineAt] at same
      omega
    exact isBoundary_eq_isLineFeed_iff.mp (countP_eq_iff.mp count c before)
  · have alike (start : Nat) (member : start ∈ openings text) :
        ∀ c ∈ text.take start, isBoundary c = isLineFeed c :=
      fun c before => isBoundary_eq_isLineFeed_iff.mpr (feeds start member c before)
    have number (start : Nat) (member : start ∈ openings text) :
        (declarationFrom 1 text start).line = lineAt isLineFeed text start := by
      rw [declarationFrom, lineAt, countP_eq_iff.mpr (alike start member)]
    have uncommented (start : Nat) (member : start ∈ openings text) :
        commentSign ∉ frontOf isLineFeed text start := by
      rw [← frontOf_congr (alike start member)]
      exact commentSign_not_mem_frontOf member
    constructor
    · rw [whole, List.forall₂_map_right_iff, List.forall₂_same]
      exact number
    · -- Entries stand in the order of their lines, so no two of them have the same one.
      have ascending := read_ascending (String.ofList text)
      rw [whole, List.pairwise_map] at ascending
      refine ascending.imp_of_mem fun one other before => ?_
      rw [number _ one, number _ other] at before
      exact Int.ne_of_lt before
    · intro start member
      refine ⟨uncommented start member, fun sign => ?_⟩
      rcases mem_frontOf_behind sign with before | solid | gap
      · exact uncommented start member before
      · exact absurd solid (by decide)
      · exact absurd gap (by decide)

/-- A comment behind a template, a comment alone and an empty line. -/
theorem fileLines_with_comments :
    let text := "/a A # x\n# y\n\n\t/b # z\n".toList
    '\r' ∉ text ∧ FileLines text ∧
      read (String.ofList text) = [⟨1, "/a", some "A"⟩, ⟨4, "/b", none⟩] := by
  intro text
  have translated : '\r' ∉ text := by decide
  obtain ⟨whole, lines⟩ := fileLines_iff translated
  have feeds : text.all (fun c => !isBoundary c || c == '\n') = true := by decide
  refine ⟨translated, lines.mpr fun start _ c before boundary => ?_, whole.trans (by decide)⟩
  simpa [boundary] using List.all_eq_true.mp feeds c (List.mem_of_mem_take before)

/-- A line separator ends a comment, but no line of the file: the text behind it is declared. -/
theorem not_fileLines_of_separator :
    let text := "/a # old:\u2028/b".toList
    '\r' ∉ text ∧ ¬FileLines text ∧
      read (String.ofList text) = [⟨1, "/a", none⟩, ⟨2, "/b", none⟩] ∧
      openings text = [0, 10] ∧ lineAt isLineFeed text 0 = 1 ∧ lineAt isLineFeed text 10 = 1 ∧
      commentSign ∈ frontOf isLineFeed text 10 := by
  intro text
  have openings : openings text = [0, 10] := by decide
  have sign : commentSign ∈ frontOf isLineFeed text 10 := by decide
  refine ⟨by decide, fun file => ?_, by decide, openings, by decide, by decide, sign⟩
  have member : 10 ∈ Table.openings text := by rw [openings]; decide
  exact (file.uncommented 10 member).1 sign

end Routebook.Table
