import Routebook.Proofs.Expressions

/-!
# Assembled patterns

The notation of a pattern is a well-formed regular expression and reads as its items, one after the
other: no character of a literal is read as anything but itself, since those that the notation uses
stand behind a backslash, and every group that an item opens is closed by it. Different items read
differently, so patterns with the same notation are equal.
-/
namespace Routebook.Pattern

open Expression (Token Frame tokens? token? build? series)

/-! ### Items as expressions -/

/-- The tokens that an item is written with. -/
def Item.tokens : Item → List Token
  | .start => [.start]
  | .finish => [.finish]
  | .char c => [.one (.only c)]
  | .optional c => [.one (.only c), .times 0 (some 1)]
  | .capture => [.opening, .one (.except [separator]), .times 1 none, .closing]

/-- One or more characters other than the separator, as the group of a number. -/
def captureGroup (number : Nat) : Expression :=
  .group number (series [.chars (.except [separator]) 1 none])

/-- What an item reads as when the next group has a number. -/
def Item.expression (number : Nat) : Item → Expression
  | .start => .start
  | .finish => .finish
  | .char c => .chars (.only c) 1 (some 1)
  | .optional c => .chars (.only c) 0 (some 1)
  | .capture => captureGroup number

/-- How many groups an item opens. -/
def Item.groups : Item → Nat
  | .capture => 1
  | _ => 0

/-- What items read as, one after the other. -/
def expressions : Nat → Pattern → List Expression
  | _, [] => []
  | number, item :: items => item.expression number :: expressions (number + item.groups) items

theorem groups_cons (item : Item) (items : Pattern) :
    groups (item :: items) = item.groups + groups items := by
  cases item <;> simp [groups, Item.groups, Nat.add_comm]

theorem groups_append (left right : Pattern) :
    groups (left ++ right) = groups left + groups right := List.count_append

theorem expressions_append (number : Nat) (left right : Pattern) :
    expressions number (left ++ right) =
      expressions number left ++ expressions (number + groups left) right := by
  induction left generalizing number with
  | nil => rfl
  | cons item items ih =>
    rw [List.cons_append, expressions, expressions, ih, groups_cons, Nat.add_assoc,
      List.cons_append]

/-! ### Reading -/

/-- A character that is not special stands for itself. -/
theorem token?_of_plain {c : Char} (plain : isSpecial c ≠ true) :
    token? c = some (.one (.only c)) := by
  unfold token?
  split <;> first | rfl | exact absurd (by decide) plain

/-- A character that opens neither an escape nor a set is a token of its own. -/
theorem tokens?_cons {c : Char} {token : Token} (own : token? c = some token)
    (outside : c ≠ '\\' ∧ c ≠ '[') (rest : List Char) :
    tokens? .item (c :: rest) = (tokens? .item rest).map (token :: ·) := by
  conv => lhs; unfold tokens?
  split
  next same => cases same
  next same => exact absurd (List.cons.inj same).1 outside.1
  next same => exact absurd (List.cons.inj same).1 outside.2
  next same => exact absurd (List.cons.inj same).1 outside.2
  next same =>
    cases same
    rw [own]
    cases tokens? .item rest <;> rfl
  all_goals contradiction

/-- Whatever a character is, its notation reads as the character. -/
theorem tokens?_escape (c : Char) (rest : List Char) :
    tokens? .item (escape c ++ rest) = (tokens? .item rest).map (.one (.only c) :: ·) := by
  unfold escape
  split
  next special =>
    -- Letters and digits would not be read behind a backslash, but none of them is special.
    have letterless : specialChars.all (! ·.isAlphanum) = true := by decide
    have other : c.isAlphanum = false := by
      simpa using List.all_eq_true.mp letterless c (List.contains_iff_mem.mp special)
    simp [tokens?, other]
  next plain =>
    have other {d : Char} (special : isSpecial d = true) : c ≠ d := by
      rintro rfl
      exact plain special
    exact tokens?_cons (token?_of_plain plain) ⟨other (by decide), other (by decide)⟩ rest

theorem tokens?_wildcard (rest : List Char) :
    tokens? .item (wildcard ++ rest) =
      (tokens? .item rest).map ([.one (.except [separator]), .times 1 none] ++ ·) := by
  cases follow : tokens? .item rest <;>
    simp [wildcard, separator, tokens?, token?, Expression.isSetOperator, follow]

/-- An item's notation has its tokens, whatever follows. -/
theorem tokens?_item (item : Item) (rest : List Char) :
    tokens? .item (item.text ++ rest) = (tokens? .item rest).map (item.tokens ++ ·) := by
  cases item with
  | start => exact tokens?_cons rfl (by decide) rest
  | finish => exact tokens?_cons rfl (by decide) rest
  | char c => exact tokens?_escape c rest
  | optional c =>
    rw [Item.text, List.append_assoc, tokens?_escape, List.singleton_append,
      tokens?_cons rfl (by decide), Option.map_map]
    rfl
  | capture =>
    rw [Item.text, List.cons_append, List.cons_append, tokens?_cons rfl (by decide),
      List.append_assoc, tokens?_wildcard, List.singleton_append, tokens?_cons rfl (by decide),
      Option.map_map, Option.map_map]
    rfl

theorem tokens?_text (pattern : Pattern) :
    tokens? .item (text pattern) = some (pattern.flatMap Item.tokens) := by
  induction pattern with
  | nil => rfl
  | cons item items ih =>
    rw [text, List.flatMap_cons, tokens?_item, ← text, ih]
    rfl

/-- The tokens of an item add its expression, and close every group that they open. -/
theorem build?_item (opened : Nat) (frame : Frame) (stack : List (Nat × Frame)) (item : Item)
    (rest : List Token) :
    build? opened frame stack (item.tokens ++ rest) =
      build? (opened + item.groups) (frame.push (item.expression opened)) stack rest := by
  cases item <;>
    simp [Item.tokens, Item.groups, Item.expression, captureGroup, build?, Frame.push,
      Frame.repeat?, Frame.empty, Frame.close]

theorem build?_tokens (opened : Nat) (frame : Frame) (items : Pattern) :
    build? opened frame [] (items.flatMap Item.tokens) =
      some ({ frame with sequence := (expressions opened items).reverse ++ frame.sequence }.close,
        opened + groups items) := by
  induction items generalizing opened frame with
  | nil => rfl
  | cons item items ih =>
    rw [List.flatMap_cons, build?_item, ih, groups_cons, Nat.add_assoc]
    simp [Frame.push, expressions]

/-- The notation of a pattern reads as its items, one after the other. -/
theorem read?_eq_series (pattern : Pattern) :
    Expression.read? (text pattern) = some (series (expressions 0 pattern), groups pattern) := by
  rw [Expression.read?, tokens?_text]
  have built := build?_tokens 0 .empty pattern
  simpa [Frame.empty, Frame.close] using built

/-! ### Patterns with the same notation -/

theorem series_injective {left right : List Expression} (same : series left = series right) :
    left = right := by
  induction left generalizing right with
  | nil =>
    cases right with
    | nil => rfl
    | cons => cases same
  | cons first rest ih =>
    cases right with
    | nil => cases same
    | cons second others =>
      obtain ⟨heads, tails⟩ := Expression.both.inj same
      rw [heads, ih tails]

theorem Item.expression_injective {number : Nat} {one other : Item}
    (same : one.expression number = other.expression number) : one = other := by
  cases one <;> cases other <;> cases same <;> rfl

theorem expressions_injective {number : Nat} {left right : Pattern}
    (same : expressions number left = expressions number right) : left = right := by
  induction left generalizing number right with
  | nil =>
    cases right with
    | nil => rfl
    | cons => cases same
  | cons item items ih =>
    cases right with
    | nil => cases same
    | cons other others =>
      -- Equal items open as many groups, so what follows is numbered alike.
      obtain ⟨heads, tails⟩ := List.cons.inj same
      cases Item.expression_injective heads
      rw [ih tails]

/-- No two patterns have the same notation. -/
theorem text_injective {left right : Pattern} (same : text left = text right) : left = right := by
  have reads := read?_eq_series left
  rw [same, read?_eq_series right, Option.some.injEq, Prod.mk.injEq] at reads
  exact (expressions_injective (series_injective reads.1)).symm

end Routebook.Pattern
