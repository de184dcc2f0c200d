import Mathlib.Data.List.TakeWhile
import Routebook.Json.Reader
import Routebook.Proofs.Escaping

/-!
# Tokens read back

Each token is read from its own text, up to a character that cannot belong to it. Words and numbers
go on as long as letters or characters of numbers follow, all others end by themselves.
-/
namespace Routebook.Json

/-- What may follow a word or a number without being taken for a part of it. -/
def EndsToken (rest : List Char) : Prop :=
  ∀ c ∈ rest.head?, c.isAlpha = false ∧ isNumberChar c = false

theorem takeWhile_append_stop {α : Type} {p : α → Bool} {front rest : List α}
    (inside : ∀ a ∈ front, p a = true) (stop : ∀ a ∈ rest.head?, p a = false) :
    (front ++ rest).takeWhile p = front ∧ (front ++ rest).dropWhile p = rest := by
  rw [List.takeWhile_append_of_pos inside, List.dropWhile_append_of_pos inside]
  cases rest with
  | nil => simp
  | cons a rest => simp [stop a rfl]

/-! ### Whole numbers -/

theorem head_toDigits {n : Nat} (positive : 0 < n) : (Nat.toDigits 10 n).head? ≠ some '0' := by
  induction n using Nat.strongRecOn with
  | ind n ih =>
    rw [Nat.toDigits_eq_if (by decide)]
    split
    next small =>
      have other : ∀ d < 10, 0 < d → Nat.digitChar d ≠ '0' := by decide
      simpa using other n small positive
    next large =>
      -- A tenth of the number begins with the same digit.
      have front := ih (n / 10) (by omega) (by omega)
      cases digits : Nat.toDigits 10 (n / 10) with
      | nil => exact absurd digits Nat.toDigits_ne_nil
      | cons c rest =>
        rw [digits] at front
        exact front

/-- A number is written without zeros in front. -/
theorem isWholeNumber_toDigits (n : Nat) : isWholeNumber (Nat.toDigits 10 n) = true := by
  have digits : (Nat.toDigits 10 n).all Char.isDigit = true :=
    List.all_eq_true.mpr fun c => Nat.isDigit_of_mem_toDigits (by decide) (by decide)
  have front : (Nat.toDigits 10 n).length = 1 ∨ (Nat.toDigits 10 n).head? ≠ some '0' := by
    by_cases zero : n = 0
    · exact Or.inl (by rw [zero]; rfl)
    · exact Or.inr (head_toDigits (by omega))
  simpa [isWholeNumber, digits] using front

theorem digitsValue_toDigits (n : Nat) : Binary64.digitsValue (Nat.toDigits 10 n) = n :=
  Nat.ofDigitChars_ten_toDigits

theorem number?_digits {digits : List Char} (whole : isWholeNumber digits = true) :
    number? digits = some (.int (Binary64.digitsValue digits)) ∧
      number? ('-' :: digits) = some (.int (-(Binary64.digitsValue digits : Int))) := by
  have inside : ∀ c ∈ digits, c.isDigit = true := by
    simp only [isWholeNumber, Bool.and_eq_true, List.all_eq_true] at whole
    exact whole.1.2
  have taken : digits.takeWhile Char.isDigit = digits := List.takeWhile_eq_self_iff.mpr inside
  have left : digits.dropWhile Char.isDigit = [] := List.dropWhile_eq_nil_iff.mpr inside
  constructor
  · unfold number?
    split
    next negative magnitude found =>
      split at found
      next rest =>
        -- No digit is a sign.
        exact absurd (inside '-' List.mem_cons_self) (by decide)
      · cases found
        simp [taken, left, whole]
  · simp [number?, taken, left, whole]

/-- A whole number is read from its decimal digits. -/
theorem number?_toString (value : Int) :
    number? (toString value).toList = some (.int value) := by
  rw [Int.toString_eq_repr, Int.repr_eq_if]
  split
  next positive =>
    rw [Nat.toList_repr, (number?_digits (isWholeNumber_toDigits _)).1, digitsValue_toDigits,
      Int.toNat_of_nonneg positive]
  next negative =>
    have minus : "-".toList = ['-'] := rfl
    rw [String.toList_append, Nat.toList_repr, minus, List.singleton_append,
      (number?_digits (isWholeNumber_toDigits _)).2, digitsValue_toDigits,
      Int.toNat_of_nonneg (by omega), Int.neg_neg]

/-! ### Single tokens -/

theorem readToken?_text (text rest : List Char) :
    readToken? (encodeText text ++ rest) = some (.text text, rest) := by
  have found := readText?_encoded text rest
  rw [encodeText, List.append_assoc, List.cons_append, List.singleton_append, readToken?, found]
  rfl

theorem readToken?_mark {mark : Char × Token} (rest : List Char) (member : mark ∈ punctuation) :
    readToken? (mark.1 :: rest) = some (mark.2, rest) := by
  simp only [punctuation, List.mem_cons, List.not_mem_nil, or_false] at member
  rcases member with rfl | rfl | rfl | rfl | rfl | rfl <;> rfl

theorem head_of_mem_words : ∀ entry ∈ words, ∃ c more, entry.1 = c :: more ∧
    punctuation.find? (fun mark => mark.1 = c) = none ∧ c ≠ '"' ∧
    entry.1.all Char.isAlpha = true := by
  simp only [words, List.forall_mem_cons]
  exact ⟨⟨_, _, rfl, by decide⟩, ⟨_, _, rfl, by decide⟩, ⟨_, _, rfl, by decide⟩, nofun⟩

theorem readToken?_word {entry : List Char × Atom} {rest : List Char} (member : entry ∈ words)
    (ends : EndsToken rest) : readToken? (entry.1 ++ rest) = some (.atom entry.2, rest) := by
  have own : ∀ entry ∈ words, words.find? (fun other => other.1 = entry.1) = some entry := by
    decide
  have word := own entry member
  -- The letters of the word are taken, and no more, since no letter follows.
  obtain ⟨c, more, shape, mark, quote, letters⟩ := head_of_mem_words entry member
  rw [shape] at letters word ⊢
  obtain ⟨letter, inside⟩ := List.forall_mem_cons.mp (List.all_eq_true.mp letters)
  obtain ⟨taken, left⟩ := takeWhile_append_stop inside fun d first => (ends d first).1
  rw [List.cons_append, readToken?]
  · simp [mark, letter, taken, left, word]
  · exact quote

theorem digit_range {c : Char} (digit : c.isDigit = true) : 48 ≤ c.toNat ∧ c.toNat ≤ 57 := by
  simpa [Char.isDigit, UInt32.le_iff_toNat_le] using digit

/-- A sign or a digit begins neither a word nor a mark nor a string. -/
theorem number_start {c : Char} (start : c = '-' ∨ c.isDigit = true) :
    punctuation.find? (fun mark => mark.1 = c) = none ∧ c ≠ '"' ∧ c.isAlpha = false := by
  have digits : ∀ n < 10, punctuation.find? (fun mark => mark.1 = Nat.digitChar n) = none ∧
      Nat.digitChar n ≠ '"' ∧ (Nat.digitChar n).isAlpha = false := by decide
  rcases start with rfl | digit
  · decide
  · obtain ⟨above, below⟩ := digit_range digit
    have same : Nat.digitChar (c.toNat - 48) = c := by
      apply Char.toNat_inj.mp
      rw [Nat.toNat_digitChar_of_lt_ten (by omega)]
      omega
    rw [← same]
    exact digits _ (by omega)

theorem chars_toString (value : Int) : ∃ c more, (toString value).toList = c :: more ∧
    (c = '-' ∨ c.isDigit = true) ∧ ∀ d ∈ more, d.isDigit = true := by
  have digits (n : Nat) : ∀ c ∈ Nat.toDigits 10 n, c.isDigit = true :=
    fun c => Nat.isDigit_of_mem_toDigits (by decide) (by decide)
  rw [Int.toString_eq_repr, Int.repr_eq_if]
  split
  · rw [Nat.toList_repr]
    cases shape : Nat.toDigits 10 value.toNat with
    | nil => exact absurd shape Nat.toDigits_ne_nil
    | cons c more =>
      obtain ⟨first, rest⟩ := List.forall_mem_cons.mp (shape ▸ digits value.toNat)
      exact ⟨c, more, rfl, Or.inr first, rest⟩
  · -- Below zero the sign comes first.
    rw [String.toList_append, Nat.toList_repr]
    exact ⟨'-', _, rfl, Or.inl rfl, digits _⟩

theorem readToken?_int {rest : List Char} (value : Int) (ends : EndsToken rest) :
    readToken? ((toString value).toList ++ rest) = some (.atom (.int value), rest) := by
  have number := number?_toString value
  obtain ⟨c, more, shape, start, digits⟩ := chars_toString value
  obtain ⟨mark, quote, letter⟩ := number_start start
  -- The digits are taken, and no more, since no character of numbers follows.
  have inside : ∀ d ∈ more, isNumberChar d = true :=
    fun d member => by simp [isNumberChar, digits d member]
  obtain ⟨taken, left⟩ := takeWhile_append_stop inside fun d first => (ends d first).2
  rw [shape] at number ⊢
  rw [List.cons_append, readToken?]
  · simp [mark, letter, taken, left, number]
  · exact quote

/-! ### Sequences of tokens -/

/-- No token begins with a blank. -/
theorem readToken?_blank {c : Char} (rest : List Char) (blank : isJsonBlank c = true) :
    readToken? (c :: rest) = none := by
  simp only [isJsonBlank, Bool.or_eq_true, decide_eq_true_eq] at blank
  rcases blank with ((rfl | rfl) | rfl) | rfl <;>
    simp [readToken?, punctuation, number?, isWholeNumber]

theorem tokens?_blank {c : Char} (rest : List Char) (blank : isJsonBlank c = true) :
    tokens? (c :: rest) = tokens? rest := by
  have same : (c :: rest).dropWhile isJsonBlank = rest.dropWhile isJsonBlank :=
    List.dropWhile_cons_of_pos blank
  rw [tokens?.eq_def (c :: rest), same, ← tokens?.eq_def rest]

theorem tokens?_of_readToken? {text rest : List Char} {token : Token}
    (found : readToken? text = some (token, rest)) :
    tokens? text = (tokens? rest).map (token :: ·) := by
  cases text with
  | nil => cases found
  | cons c text =>
    -- Nothing is dropped in front of a token.
    have start : ¬isJsonBlank c = true := by
      intro blank
      rw [readToken?_blank text blank] at found
      cases found
    have same : (c :: text).dropWhile isJsonBlank = c :: text := List.dropWhile_cons_of_neg start
    rw [tokens?]
    split
    next none =>
      rw [same] at none
      cases none
    · split
      next failed =>
        rw [same, found] at failed
        cases failed
      next again =>
        rw [same, found] at again
        cases again
        rfl

end Routebook.Json
