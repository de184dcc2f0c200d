import Routebook.Json.Text
import Routebook.Proofs.Utf8

/-!
# Strings of JSON

A text between quotes is read back as the text, and nothing beyond ASCII is written. A character
beyond the first 2^16 is written as two units of UTF-16; since no character is a surrogate, no unit
of one character can be taken for a half of another.
-/
namespace Routebook.Json

open Text (hexDigits)

theorem hexValue?_digitChar : ∀ n < 16, Text.Percent.hexValue? (Nat.digitChar n) = some n := by
  decide

theorem unit?_digits {a b c d : Nat} (first : a < 16) (second : b < 16) (third : c < 16)
    (fourth : d < 16) :
    unit? (Nat.digitChar a) (Nat.digitChar b) (Nat.digitChar c) (Nat.digitChar d) =
      some (256 * (16 * a + b) + (16 * c + d)) := by
  simp [unit?, hexValue?_digitChar, first, second, third, fourth]

/-- The four digits of a unit stand for it. -/
theorem unit?_hexDigits {unit : Nat} (bound : unit < 0x10000) :
    ∃ a b c d, hexDigits 4 unit = [a, b, c, d] ∧ unit? a b c d = some unit := by
  refine ⟨_, _, _, _, rfl, ?_⟩
  rw [unit?_digits (by omega) (by omega) (by omega) (by omega), Option.some.injEq]
  omega

theorem readChar?_unit {unit : Nat} (rest : List Char) (bound : unit < 0x10000)
    (notHigh : isHighHalf unit = false) (notLow : isLowHalf unit = false) :
    readChar? (escapeUnit unit ++ rest) = some (Char.ofNat unit, rest) := by
  obtain ⟨a, b, c, d, digits, value⟩ := unit?_hexDigits bound
  simp [escapeUnit, digits, readChar?, value, notHigh, notLow]

theorem readChar?_halves {high low : Nat} (rest : List Char) (bound : high < 0x10000)
    (bound' : low < 0x10000) (isHigh : isHighHalf high = true) (isLow : isLowHalf low = true) :
    readChar? (escapeUnit high ++ (escapeUnit low ++ rest)) =
      some (joinHalves high low, rest) := by
  obtain ⟨a, b, c, d, digits, value⟩ := unit?_hexDigits bound
  obtain ⟨e, f, g, h, digits', value'⟩ := unit?_hexDigits bound'
  simp [escapeUnit, digits, digits', readChar?, value, value', isHigh, isLow]

theorem readChar?_short {letter : Char} (rest : List Char) (other : letter ≠ 'u') :
    readChar? ('\\' :: letter :: rest) = (unescape? letter).map (·, rest) := by
  -- The reader looks for a unit first, which begins with the letter `u`.
  rw [readChar?.eq_def]
  split
  next same => exact absurd (List.cons.inj (List.cons.inj same).2).1 other
  next same =>
    cases same
    rfl
  next notShort same =>
    cases same
    exact (notShort _ _ rfl rfl).elim
  next same => cases same

theorem readChar?_plain {c : Char} (rest : List Char) (other : c ≠ '\\') (visible : ' ' ≤ c) :
    readChar? (c :: rest) = some (c, rest) := by
  rw [readChar?.eq_def]
  split
  next same => exact absurd (List.cons.inj same).1 other
  next same => exact absurd (List.cons.inj same).1 other
  next same =>
    cases same
    rw [if_neg (not_or.mpr ⟨Char.not_lt.mpr visible, other⟩)]
  next same => cases same

/-- The ways in which a character is written. -/
theorem escapeChar_cases (c : Char) :
    (∃ escape ∈ shortEscapes, escape.2 = c ∧ escapeChar c = ['\\', escape.1]) ∨
    ((∀ escape ∈ shortEscapes, escape.2 ≠ c) ∧ isVisible c = true ∧ escapeChar c = [c]) ∨
    (c.toNat < 0x10000 ∧ escapeChar c = escapeUnit c.toNat) ∨
    (0x10000 ≤ c.toNat ∧ escapeChar c =
      escapeUnit (0xd800 + (c.toNat - 0x10000) / 0x400) ++
        escapeUnit (0xdc00 + (c.toNat - 0x10000) % 0x400)) := by
  -- Short escapes are looked up first, and only what has none is written in another way.
  cases found : shortEscapes.find? fun escape => escape.2 = c with
  | some escape =>
    have same : escape.2 = c := by simpa using List.find?_some found
    exact Or.inl ⟨escape, List.mem_of_find?_eq_some found, same, by simp [escapeChar, found]⟩
  | none =>
    have free : ∀ escape ∈ shortEscapes, escape.2 ≠ c := by
      simpa using List.find?_eq_none.mp found
    by_cases visible : isVisible c = true
    · exact Or.inr (Or.inl ⟨free, visible, by simp [escapeChar, found, visible]⟩)
    · by_cases small : c.toNat < 0x10000
      · exact Or.inr (Or.inr (Or.inl ⟨small, by simp [escapeChar, found, visible, small]⟩))
      · exact Or.inr (Or.inr (Or.inr ⟨by omega, by simp [escapeChar, found, visible, small]⟩))

/-- A written character is read as itself, whatever follows, and does not begin with a quote. -/
theorem readChar?_escapeChar (c : Char) (rest : List Char) :
    readChar? (escapeChar c ++ rest) = some (c, rest) ∧
      (escapeChar c ++ rest).head? ≠ some '"' := by
  have scalar := Text.Utf8.not_surrogate c
  have bound := Text.Utf8.toNat_lt c
  rcases escapeChar_cases c with ⟨escape, member, same, written⟩ | ⟨free, visible, written⟩ |
    ⟨small, written⟩ | ⟨large, written⟩
  · have own : ∀ escape ∈ shortEscapes, unescape? escape.1 = some escape.2 ∧ escape.1 ≠ 'u' := by
      decide
    obtain ⟨stands, letter⟩ := own escape member
    rw [written, List.cons_append, List.singleton_append, readChar?_short rest letter, stands, same]
    exact ⟨rfl, by simp⟩
  · have quote : ('"', '"') ∈ shortEscapes := by decide
    have backslash : ('\\', '\\') ∈ shortEscapes := by decide
    have above : ' ' ≤ c := by simpa using (Bool.and_eq_true_iff.mp visible).1
    rw [written, List.singleton_append,
      readChar?_plain rest (free _ backslash).symm above]
    exact ⟨rfl, by simpa using (free _ quote).symm⟩
  · -- A single unit is read alone only if it is no half of another character.
    have notHigh : isHighHalf c.toNat = false := by simp [isHighHalf]; omega
    have notLow : isLowHalf c.toNat = false := by simp [isLowHalf]; omega
    rw [written, readChar?_unit rest small notHigh notLow, Char.ofNat_toNat]
    exact ⟨rfl, by simp [escapeUnit]⟩
  · -- Ten bits of the code in each half; the largest code just fits.
    have isHigh : isHighHalf (0xd800 + (c.toNat - 0x10000) / 0x400) = true := by
      simp [isHighHalf]; omega
    have isLow : isLowHalf (0xdc00 + (c.toNat - 0x10000) % 0x400) = true := by
      simp [isLowHalf]; omega
    have joined : joinHalves (0xd800 + (c.toNat - 0x10000) / 0x400)
        (0xdc00 + (c.toNat - 0x10000) % 0x400) = c := by
      rw [joinHalves]
      have code : 0x10000 + (0xd800 + (c.toNat - 0x10000) / 0x400 - 0xd800) * 0x400 +
          (0xdc00 + (c.toNat - 0x10000) % 0x400 - 0xdc00) = c.toNat := by omega
      rw [code, Char.ofNat_toNat]
    rw [written, List.append_assoc,
      readChar?_halves rest (by omega) (by omega) isHigh isLow, joined]
    exact ⟨rfl, by simp [escapeUnit]⟩

theorem readText?_of_readChar? {text rest : List Char} {c : Char}
    (found : readChar? text = some (c, rest)) (inside : text.head? ≠ some '"') :
    readText? text = (readText? rest).map fun (more, after) => (c :: more, after) := by
  rw [readText?, if_neg inside]
  split
  next failed => rw [failed] at found; cases found
  next same =>
    rw [same] at found
    cases found
    rfl

theorem readText?_encoded (text rest : List Char) :
    readText? (text.flatMap escapeChar ++ '"' :: rest) = some (text, rest) := by
  induction text with
  | nil => simp [readText?]
  | cons c text ih =>
    obtain ⟨first, inside⟩ := readChar?_escapeChar c (text.flatMap escapeChar ++ '"' :: rest)
    rw [← List.append_assoc, ← List.flatMap_cons] at first inside
    rw [readText?_of_readChar? first inside, ih]
    rfl

theorem ascii_of_mem_hexDigits {width n : Nat} {c : Char} (member : c ∈ hexDigits width n) :
    c.toNat < 0x80 := by
  induction width generalizing n with
  | zero => cases member
  | succ width ih =>
    rw [hexDigits, List.mem_append, List.mem_singleton] at member
    have small : ∀ d < 16, (Nat.digitChar d).toNat < 0x80 := by decide
    rcases member with front | rfl
    · exact ih front
    · exact small _ (by omega)

theorem ascii_of_mem_escapeUnit {unit : Nat} {c : Char} (member : c ∈ escapeUnit unit) :
    c.toNat < 0x80 := by
  rw [escapeUnit, List.mem_cons, List.mem_cons] at member
  rcases member with rfl | rfl | digit
  · decide
  · decide
  · exact ascii_of_mem_hexDigits digit

theorem ascii_of_mem_escapeChar {c d : Char} (member : d ∈ escapeChar c) : d.toNat < 0x80 := by
  rcases escapeChar_cases c with ⟨escape, own, -, written⟩ | ⟨-, visible, written⟩ |
    ⟨-, written⟩ | ⟨-, written⟩
  · have small : ∀ escape ∈ shortEscapes, escape.1.toNat < 0x80 := by decide
    rw [written, List.mem_cons, List.mem_singleton] at member
    rcases member with rfl | rfl
    · decide
    · exact small escape own
  · rw [written, List.mem_singleton] at member
    have below : c ≤ '~' := by simpa using (Bool.and_eq_true_iff.mp visible).2
    rw [member]
    exact Nat.lt_of_le_of_lt below (by decide)
  · exact ascii_of_mem_escapeUnit (written ▸ member)
  · rw [written, List.mem_append] at member
    exact member.elim ascii_of_mem_escapeUnit ascii_of_mem_escapeUnit

/-- Nothing beyond ASCII is written. -/
theorem ascii_of_mem_encodeText {text : List Char} {c : Char} (member : c ∈ encodeText text) :
    c.toNat < 0x80 := by
  rw [encodeText, List.mem_append, List.mem_cons, List.mem_flatMap, List.mem_singleton] at member
  rcases member with (rfl | ⟨d, -, inside⟩) | rfl
  · decide
  · exact ascii_of_mem_escapeChar inside
  · decide

end Routebook.Json
