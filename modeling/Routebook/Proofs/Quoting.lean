import Mathlib.Algebra.Group.Nat.Defs
import Routebook.Proofs.Escaping
import Routebook.Text.Blank
import Routebook.Text.Quoted

/-!
# Quoted text read back

Between its quotes each character can be read back, whatever follows it, and the closing quote
cannot be taken for one of them. So quoted text tells its own end: a text that begins with quoted
text begins so in one way only. No character that ends a line is printable, so none is left in
quotes.
-/
namespace Routebook.Text

variable {quote c : Char} {text other rest more : List Char}

/-! ### A reader for quoted characters -/

/-- Reads so many hexadecimal digits on to a number. -/
def readHex? : Nat → Nat → List Char → Option (Nat × List Char)
  | 0, value, rest => some (value, rest)
  | _ + 1, _, [] => none
  | width + 1, value, c :: rest => do readHex? width (16 * value + (← Percent.hexValue? c)) rest

/-- The letters behind a backslash that begin a code point, each with its number of digits. -/
def codeLetters : List (Char × Nat) := [('x', 2), ('u', 4), ('U', 8)]

/-- The controls that have a name, each with the letter behind the backslash. -/
def controlLetters : List (Char × Char) := [('\n', 'n'), ('\r', 'r'), ('\t', 't')]

/-- What a letter or sign stands for behind a backslash. -/
def unescaped (letter : Char) : Char :=
  match controlLetters.find? (·.2 = letter) with
  | some control => control.1
  | none => letter

/-- The character that comes next between quotes, and what follows it. -/
def readQuotedChar? : List Char → Option (Char × List Char)
  | [] => none
  | c :: rest =>
    if c ≠ '\\' then some (c, rest)
    else match rest with
      | [] => none
      | letter :: rest =>
        match codeLetters.lookup letter with
        | none => some (unescaped letter, rest)
        | some width => (readHex? width 0 rest).map fun read => (Char.ofNat read.1, read.2)

/-- Digits are read on to a number as long as there are any, and then those that follow. -/
theorem readHex?_hexDigits (width further value n : Nat) (rest : List Char) :
    readHex? (width + further) value (hexDigits width n ++ rest) =
      readHex? further (16 ^ width * value + n % 16 ^ width) rest := by
  induction width generalizing further n rest with
  | zero => simp [hexDigits, Nat.mod_one]
  | succ width ih =>
    -- The lowest digit is read after all others, like a digit that follows them.
    have last : n % 16 < 16 := Nat.mod_lt _ (by decide)
    have digits : 16 * (16 ^ width * value + n / 16 % 16 ^ width) + n % 16 =
        16 ^ (width + 1) * value + n % 16 ^ (width + 1) := by
      rw [Nat.pow_succ', Nat.mod_mul, Nat.mul_add, Nat.mul_assoc]
      omega
    rw [hexDigits, List.append_assoc, List.singleton_append, Nat.add_assoc, Nat.add_comm 1 further,
      ih, readHex?, Json.hexValue?_digitChar _ last, Option.bind_eq_bind, Option.bind_some, digits]

theorem readQuotedChar?_code {code : Char × Nat} (rest : List Char) (listed : code ∈ codeLetters)
    (bound : c.toNat < 16 ^ code.2) :
    readQuotedChar? ('\\' :: code.1 :: hexDigits code.2 c.toNat ++ rest) = some (c, rest) := by
  have counts : ∀ code ∈ codeLetters, codeLetters.lookup code.1 = some code.2 := by decide
  have read := readHex?_hexDigits code.2 0 0 c.toNat rest
  rw [Nat.add_zero, Nat.mul_zero, Nat.zero_add, Nat.mod_eq_of_lt bound, readHex?] at read
  simp [readQuotedChar?, counts code listed, read]

theorem escapeCode_eq {code : Nat} (bound : code < 0x110000) : ∃ letter ∈ codeLetters,
    code < 16 ^ letter.2 ∧ escapeCode code = '\\' :: letter.1 :: hexDigits letter.2 code := by
  by_cases short : code ≤ 0xff
  · exact ⟨('x', 2), by decide, Nat.lt_succ_of_le short, if_pos short⟩
  by_cases medium : code ≤ 0xffff
  · refine ⟨('u', 4), by decide, Nat.lt_succ_of_le medium, ?_⟩
    rw [escapeCode, if_neg short, if_pos medium]
  · refine ⟨('U', 8), by decide, Nat.lt_trans bound (by decide), ?_⟩
    rw [escapeCode, if_neg short, if_neg medium]

theorem namedControl?_eq_some {name : Char} (named : namedControl? c = some name) :
    (c, name) ∈ controlLetters := by
  unfold namedControl? at named
  split at named
  next same => cases named; subst same; decide
  split at named
  next same => cases named; subst same; decide
  split at named
  next same => cases named; subst same; decide
  cases named

/-- The ways in which a character is written between quotes. -/
theorem escapeChar_cases (quote c : Char) :
    ((c = quote ∨ c = '\\') ∧ escapeChar quote c = ['\\', c]) ∨
    (∃ name, (c, name) ∈ controlLetters ∧ escapeChar quote c = ['\\', name]) ∨
    (c ≠ quote ∧ c ≠ '\\' ∧ isPrintable c = true ∧ escapeChar quote c = [c]) ∨
    ∃ code ∈ codeLetters, c.toNat < 16 ^ code.2 ∧
      escapeChar quote c = '\\' :: code.1 :: hexDigits code.2 c.toNat := by
  by_cases own : c = quote ∨ c = '\\'
  · exact Or.inl ⟨own, if_pos own⟩
  obtain ⟨notQuote, notSlash⟩ := not_or.mp own
  rw [escapeChar, if_neg own]
  cases named : namedControl? c with
  | some name => exact Or.inr (Or.inl ⟨name, namedControl?_eq_some named, rfl⟩)
  | none =>
    dsimp only
    by_cases visible : isPrintable c = true
    · exact Or.inr (Or.inr (Or.inl ⟨notQuote, notSlash, visible, if_pos visible⟩))
    · rw [if_neg visible]
      exact Or.inr (Or.inr (Or.inr (escapeCode_eq (Utf8.toNat_lt c))))

/-- What encloses a text is one of the two quotes. -/
theorem quoteFor_cases (text : List Char) :
    quoteFor text = singleQuote ∨ quoteFor text = doubleQuote := by
  rw [quoteFor]
  split
  · exact Or.inr rfl
  · exact Or.inl rfl

/-- A quoted character is read back, whatever follows it. -/
theorem readQuotedChar?_escapeChar (quotes : quote = singleQuote ∨ quote = doubleQuote) (c : Char)
    (rest : List Char) : readQuotedChar? (escapeChar quote c ++ rest) = some (c, rest) := by
  rcases escapeChar_cases quote c with ⟨own, same⟩ | ⟨name, control, same⟩ | ⟨-, other, -, same⟩ |
    ⟨code, listed, bound, same⟩
  · -- Neither quotes nor the backslash begin a code point or name a control.
    have cases : c = singleQuote ∨ c = doubleQuote ∨ c = '\\' := by
      rcases own with rfl | rfl
      · exact quotes.imp_right Or.inl
      · exact Or.inr (Or.inr rfl)
    rw [same]
    rcases cases with rfl | rfl | rfl <;> rfl
  · have stands : ∀ control ∈ controlLetters,
        codeLetters.lookup control.2 = none ∧ unescaped control.2 = control.1 := by decide
    rw [same]
    simp [readQuotedChar?, stands _ control]
  · rw [same]
    simp [readQuotedChar?, other]
  · rw [same]
    exact readQuotedChar?_code rest listed bound

/-! ### Quoted text tells its end -/

/-- The closing quote is not what a quoted character begins with. -/
theorem head?_escapeChar_ne (other : quote ≠ '\\') (c : Char) (rest : List Char) :
    (escapeChar quote c ++ rest).head? ≠ some quote := by
  rcases escapeChar_cases quote c with ⟨-, same⟩ | ⟨name, -, same⟩ | ⟨differ, -, -, same⟩ |
    ⟨code, -, -, same⟩
  · simpa [same] using Ne.symm other
  · simpa [same] using Ne.symm other
  · simpa [same] using differ
  · simpa [same] using Ne.symm other

theorem escaped_append_inj (quotes : quote = singleQuote ∨ quote = doubleQuote)
    (same : text.flatMap (escapeChar quote) ++ quote :: rest =
      other.flatMap (escapeChar quote) ++ quote :: more) : text = other ∧ rest = more := by
  have notSlash : quote ≠ '\\' := by rcases quotes with rfl | rfl <;> decide
  induction text generalizing other with
  | nil =>
    cases other with
    | nil => exact ⟨rfl, (List.cons.inj same).2⟩
    | cons d other =>
      rw [List.flatMap_cons, List.append_assoc] at same
      exact absurd (congrArg List.head? same).symm (head?_escapeChar_ne notSlash d _)
  | cons c text ih =>
    rw [List.flatMap_cons, List.append_assoc] at same
    cases other with
    | nil => exact absurd (congrArg List.head? same) (head?_escapeChar_ne notSlash c _)
    | cons d other =>
      -- The first characters are read off, and the rest is shorter.
      rw [List.flatMap_cons, List.append_assoc] at same
      have read := readQuotedChar?_escapeChar quotes c
        (text.flatMap (escapeChar quote) ++ quote :: rest)
      rw [same, readQuotedChar?_escapeChar quotes] at read
      obtain ⟨rfl, behind⟩ := Prod.mk.inj (Option.some.inj read)
      obtain ⟨rfl, rest⟩ := ih behind.symm
      exact ⟨rfl, rest⟩

/-- A text begins with quoted text in one way only. -/
theorem quoteChars_append_inj (same : quoteChars text ++ rest = quoteChars other ++ more) :
    text = other ∧ rest = more := by
  simp only [quoteChars, List.cons_append, List.append_assoc, List.cons.injEq,
    List.nil_append] at same
  obtain ⟨quotes, same⟩ := same
  rw [← quotes] at same
  exact escaped_append_inj (quoteFor_cases text) same

theorem quoteChars_injective : Function.Injective quoteChars := by
  intro text other same
  have ended : quoteChars text ++ [] = quoteChars other ++ [] := by rw [same]
  exact (quoteChars_append_inj ended).1

/-! ### Ends of lines -/

/-- What ends a line is not printable. -/
theorem isPrintable_eq_false (ends : isBoundary c = true) : isPrintable c = false := by
  have codes : ∀ code ∈ [0xa, 0xb, 0xc, 0xd, 0x1c, 0x1d, 0x1e, 0x85, 0x2028, 0x2029],
      inRanges code unprintableRanges = true := by decide +kernel
  have listed : c.toNat ∈ [0xa, 0xb, 0xc, 0xd, 0x1c, 0x1d, 0x1e, 0x85, 0x2028, 0x2029] := by
    simp only [isBoundary, boundaryRanges, inRanges, Bool.and_eq_true, Bool.or_eq_true,
      decide_eq_true_eq, Bool.or_false] at ends
    simp only [List.mem_cons, List.not_mem_nil, or_false]
    omega
  rw [isPrintable, codes _ listed]
  rfl

theorem isBoundary_of_mem_hexDigits {width n : Nat} (member : c ∈ hexDigits width n) :
    isBoundary c = false := by
  induction width generalizing n with
  | zero => cases member
  | succ width ih =>
    rw [hexDigits, List.mem_append, List.mem_singleton] at member
    rcases member with front | rfl
    · exact ih front
    · have digits : ∀ d < 16, isBoundary (Nat.digitChar d) = false := by decide
      exact digits _ (Nat.mod_lt _ (by decide))

theorem isBoundary_of_mem_escapeChar (plain : isBoundary quote = false) (c : Char) :
    ∀ d ∈ escapeChar quote c, isBoundary d = false := by
  have slash : isBoundary '\\' = false := by decide
  rcases escapeChar_cases quote c with ⟨own, same⟩ | ⟨name, control, same⟩ |
    ⟨-, -, visible, same⟩ | ⟨code, listed, -, same⟩
  all_goals rw [same]
  · rcases own with rfl | rfl <;> simp [plain, slash]
  · have names : ∀ control ∈ controlLetters, isBoundary control.2 = false := by decide
    simp [slash, names _ control]
  · refine List.forall_mem_singleton.mpr (Bool.eq_false_iff.mpr fun ends => ?_)
    rw [isPrintable_eq_false ends] at visible
    cases visible
  · have letters : ∀ code ∈ codeLetters, isBoundary code.1 = false := by decide
    simp only [List.forall_mem_cons]
    exact ⟨slash, letters code listed, fun d => isBoundary_of_mem_hexDigits⟩

/-- Quoted text holds nothing that ends a line. -/
theorem isBoundary_of_mem_quoteChars : ∀ d ∈ quoteChars text, isBoundary d = false := by
  have plain : isBoundary (quoteFor text) = false := by
    rcases quoteFor_cases text with same | same <;> rw [same] <;> decide
  intro d member
  rw [quoteChars, List.cons_append, List.mem_cons, List.mem_append, List.mem_singleton,
    List.mem_flatMap] at member
  rcases member with rfl | ⟨c, -, inside⟩ | rfl
  · exact plain
  · exact isBoundary_of_mem_escapeChar plain c d inside
  · exact plain

end Routebook.Text
