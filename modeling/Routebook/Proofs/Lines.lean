import Routebook.Text.Blank

/-!
# Lines

No line of a text holds a character that ends lines, so lines can be joined by line feeds and are
found again. Only a last line without characters is lost, since nothing begins behind the line feed
that ends a text.
-/
namespace Routebook.Text

variable {c : Char} {line text : List Char}

theorem isBoundary_lineFeed : isBoundary '\n' = true := by decide

/-- A carriage return ends a line with or without a line feed behind it. -/
theorem ne_carriageReturn (plain : isBoundary c = false) : c ≠ '\r' := by
  rintro rfl
  exact absurd plain (by decide)

theorem lines_cons (rest : List Char) (other : c ≠ '\r') :
    lines (c :: rest) = if isBoundary c then [] :: lines rest else putInLine c (lines rest) := by
  rw [lines]
  intro more same
  exact absurd same other

theorem mem_putInLine {lines : List (List Char)} (member : line ∈ putInLine c lines)
    (own : ∀ line ∈ lines, ∀ d ∈ line, isBoundary d = false) (plain : isBoundary c = false) :
    ∀ d ∈ line, isBoundary d = false := by
  cases lines with
  | nil =>
    rw [List.mem_singleton.mp member]
    exact List.forall_mem_singleton.mpr plain
  | cons first rest =>
    obtain ⟨inside, others⟩ := List.forall_mem_cons.mp own
    rcases List.mem_cons.mp member with rfl | later
    · exact List.forall_mem_cons.mpr ⟨plain, inside⟩
    · exact others line later

/-- What ends a line is no part of it. -/
theorem isBoundary_of_mem_lines (member : line ∈ lines text) :
    ∀ d ∈ line, isBoundary d = false := by
  induction text using lines.induct generalizing line with
  | case1 => cases member
  | case2 rest ih =>
    rcases List.mem_cons.mp member with rfl | later
    · nofun
    · exact ih later
  | case3 c rest apart ends ih =>
    rw [lines.eq_3 c rest apart, if_pos ends] at member
    rcases List.mem_cons.mp member with rfl | later
    · nofun
    · exact ih later
  | case4 c rest apart inside ih =>
    rw [lines.eq_3 c rest apart, if_neg inside] at member
    exact mem_putInLine member (fun _ => ih) (by simpa using inside)

theorem lines_line (plain : ∀ d ∈ line, isBoundary d = false) (filled : line ≠ []) :
    lines line = [line] := by
  induction line with
  | nil => exact absurd rfl filled
  | cons c line ih =>
    obtain ⟨first, plain⟩ := List.forall_mem_cons.mp plain
    rw [lines_cons line (ne_carriageReturn first), if_neg (by simp [first])]
    cases line with
    | nil => rfl
    | cons d line => rw [ih plain (List.cons_ne_nil _ _), putInLine]

/-- A line ends at the first boundary character behind it. -/
theorem lines_append_boundary {b : Char} (plain : ∀ d ∈ line, isBoundary d = false)
    (ends : isBoundary b = true) (other : b ≠ '\r') (text : List Char) :
    lines (line ++ b :: text) = line :: lines text := by
  induction line with
  | nil => rw [List.nil_append, lines_cons text other, if_pos ends]
  | cons c line ih =>
    obtain ⟨first, plain⟩ := List.forall_mem_cons.mp plain
    rw [List.cons_append, lines_cons _ (ne_carriageReturn first), if_neg (by simp [first]),
      ih plain, putInLine]

theorem lines_line_append (plain : ∀ d ∈ line, isBoundary d = false) (text : List Char) :
    lines (line ++ '\n' :: text) = line :: lines text :=
  lines_append_boundary plain isBoundary_lineFeed (by decide) text

/-- Lines joined by line feeds are found again, but for a last line without characters. -/
theorem lines_intercalate {found : List (List Char)}
    (plain : ∀ line ∈ found, ∀ d ∈ line, isBoundary d = false) :
    lines (List.intercalate ['\n'] found) = found ∨
      lines (List.intercalate ['\n'] found) ++ [[]] = found := by
  induction found with
  | nil => exact Or.inl rfl
  | cons line found ih =>
    obtain ⟨first, plain⟩ := List.forall_mem_cons.mp plain
    cases found with
    | nil =>
      -- Nothing comes behind the last line, so without characters it is no line.
      rw [List.intercalate_singleton]
      by_cases empty : line = []
      · exact Or.inr (by rw [empty]; rfl)
      · exact Or.inl (lines_line first empty)
    | cons next found =>
      rw [List.intercalate_cons_cons, List.append_assoc, List.singleton_append,
        lines_line_append first]
      exact (ih plain).imp (congrArg (line :: ·)) (congrArg (line :: ·))

/-- A line feed behind the last line keeps it from being lost. -/
theorem lines_intercalate_ended {found : List (List Char)} (filled : found ≠ [])
    (plain : ∀ line ∈ found, ∀ d ∈ line, isBoundary d = false) :
    lines (List.intercalate ['\n'] found ++ ['\n']) = found := by
  induction found with
  | nil => exact absurd rfl filled
  | cons line found ih =>
    obtain ⟨first, plain⟩ := List.forall_mem_cons.mp plain
    cases found with
    | nil => rw [List.intercalate_singleton, lines_line_append first, lines]
    | cons next found =>
      rw [List.intercalate_cons_cons, List.append_assoc, List.append_assoc, List.singleton_append,
        lines_line_append first, ih (List.cons_ne_nil _ _) plain]

/-- What holds of a separator and of all parts holds of the parts joined. -/
theorem forall_mem_intercalate {α : Type} {P : α → Prop} {separator : List α}
    {parts : List (List α)} (own : ∀ a ∈ separator, P a)
    (inside : ∀ part ∈ parts, ∀ a ∈ part, P a) :
    ∀ a ∈ List.intercalate separator parts, P a := by
  induction parts with
  | nil => nofun
  | cons part parts ih =>
    obtain ⟨first, more⟩ := List.forall_mem_cons.mp inside
    cases parts with
    | nil => rwa [List.intercalate_singleton]
    | cons next parts =>
      rw [List.intercalate_cons_cons, List.forall_mem_append, List.forall_mem_append]
      exact ⟨⟨first, own⟩, ih more⟩

theorem unifyNewlines_of_forall_ne (free : ∀ d ∈ text, d ≠ '\r') : unifyNewlines text = text := by
  induction text with
  | nil => rfl
  | cons c text ih =>
    obtain ⟨other, free⟩ := List.forall_mem_cons.mp free
    rw [unifyNewlines, if_neg other, ih free]
    intro more same
    exact absurd same other

/-- Joined lines hold line feeds alone, so nothing in them is translated. -/
theorem unifyNewlines_intercalate {found : List (List Char)}
    (plain : ∀ line ∈ found, ∀ d ∈ line, isBoundary d = false) :
    unifyNewlines (List.intercalate ['\n'] found) = List.intercalate ['\n'] found := by
  apply unifyNewlines_of_forall_ne
  apply forall_mem_intercalate
  · exact List.forall_mem_singleton.mpr (by decide)
  · intro line member d inside
    exact ne_carriageReturn (plain line member d inside)

end Routebook.Text
