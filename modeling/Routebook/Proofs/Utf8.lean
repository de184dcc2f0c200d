import Routebook.Text.Utf8

/-!
# Decoding of UTF-8

The octets of a character, followed by any others, are read as that character and no octet more, and
no other octets are read as a character. The first octet fixes the ranges for those behind it; the
two narrow ranges at either end of a length leave out overlong octets, surrogates and codes beyond
the last character, none of which a character has. So a text is decoded from its own octets alone,
and what is malformed begins behind whole characters.
-/
namespace Routebook.Text.Utf8

theorem toNat_ofNat {n : Nat} (bound : n < 256) : (UInt8.ofNat n).toNat = n := by
  rw [UInt8.toNat_ofNat']
  omega

/-- An octet behind the first one, in its range. -/
theorem readTail_cons {code n : Nat} {low high : UInt8} (ranges : List (UInt8 × UInt8))
    (rest : List UInt8) (bound : n < 64) (above : low.toNat ≤ n + 0x80)
    (below : n + 0x80 ≤ high.toNat) :
    readTail code ((low, high) :: ranges) (UInt8.ofNat (n + 0x80) :: rest) =
      ((readTail (code * 64 + n) ranges rest).1, (readTail (code * 64 + n) ranges rest).2 + 1) := by
  have value : (UInt8.ofNat (n + 0x80)).toNat = n + 0x80 := toNat_ofNat (by omega)
  have inside : low ≤ UInt8.ofNat (n + 0x80) ∧ UInt8.ofNat (n + 0x80) ≤ high := by
    rw [UInt8.le_iff_toNat_le, UInt8.le_iff_toNat_le, value]
    exact ⟨above, below⟩
  rw [readTail, if_pos inside, value, Nat.add_sub_cancel]

/-- The octets after the first one that may have any six bits. -/
def anyTail : UInt8 × UInt8 := (0x80, 0xbf)

/-- The second octet, whose range is cut at the bottom behind the first of the octets that begin a
length, and at the top behind the `last` one. -/
def secondTail (last : Nat) (lowest highest : UInt8) (n : Nat) : UInt8 × UInt8 :=
  if n = 0 then (lowest, 0xbf) else if n = last then (0x80, highest) else anyTail

theorem secondTail_range {last n m : Nat} {lowest highest : UInt8} (bound : m < 64)
    (shortest : n = 0 → lowest.toNat ≤ m + 0x80)
    (scalar : n = last → m + 0x80 ≤ highest.toNat) :
    (secondTail last lowest highest n).1.toNat ≤ m + 0x80 ∧
      m + 0x80 ≤ (secondTail last lowest highest n).2.toNat := by
  have low : (0x80 : UInt8).toNat = 0x80 := rfl
  have high : (0xbf : UInt8).toNat = 0xbf := rfl
  unfold secondTail
  split
  next first => exact ⟨shortest first, by rw [high]; omega⟩
  · split
    next final => exact ⟨by rw [low]; omega, scalar final⟩
    · exact ⟨by rw [anyTail, low]; omega, by rw [anyTail, high]; omega⟩

theorem follow?_one : ∀ n < 0x80, follow? (UInt8.ofNat n) = some (n, []) := by decide

theorem follow?_two {n : Nat} (above : 2 ≤ n) (below : n < 32) :
    follow? (UInt8.ofNat (n + 0xc0)) = some (n, [anyTail]) := by
  have all : ∀ n < 32, n < 2 ∨ follow? (UInt8.ofNat (n + 0xc0)) = some (n, [anyTail]) := by decide
  exact (all n below).resolve_left (by omega)

theorem follow?_three :
    ∀ n < 16, follow? (UInt8.ofNat (n + 0xe0)) =
      some (n, [secondTail 13 0xa0 0x9f n, anyTail]) := by decide

theorem follow?_four :
    ∀ n < 5, follow? (UInt8.ofNat (n + 0xf0)) =
      some (n, [secondTail 4 0x90 0x8f n, anyTail, anyTail]) := by decide

theorem readTail_any {code n : Nat} (ranges : List (UInt8 × UInt8)) (rest : List UInt8)
    (bound : n < 64) :
    readTail code (anyTail :: ranges) (UInt8.ofNat (n + 0x80) :: rest) =
      ((readTail (code * 64 + n) ranges rest).1, (readTail (code * 64 + n) ranges rest).2 + 1) := by
  have low : (0x80 : UInt8).toNat = 0x80 := rfl
  have high : (0xbf : UInt8).toNat = 0xbf := rfl
  exact readTail_cons ranges rest bound (by omega) (by omega)

theorem readUnit_one {n : Nat} (rest : List UInt8) (bound : n < 0x80) :
    readUnit (UInt8.ofNat n) rest = (.ok (Char.ofNat n), 0) := by
  rw [readUnit, follow?_one n bound]
  rfl

theorem readUnit_two {n m : Nat} (rest : List UInt8) (above : 2 ≤ n) (below : n < 32)
    (bound : m < 64) :
    readUnit (UInt8.ofNat (n + 0xc0)) (UInt8.ofNat (m + 0x80) :: rest) =
      (.ok (Char.ofNat (n * 64 + m)), 1) := by
  rw [readUnit, follow?_two above below]
  dsimp only
  rw [readTail_any [] rest bound]
  rfl

/-- The narrow ranges leave out what two octets can say, and the surrogates. -/
theorem readUnit_three {n m k : Nat} (rest : List UInt8) (below : n < 16) (bound : m < 64)
    (bound' : k < 64) (shortest : n = 0 → 32 ≤ m) (scalar : n = 13 → m < 32) :
    readUnit (UInt8.ofNat (n + 0xe0)) (UInt8.ofNat (m + 0x80) :: UInt8.ofNat (k + 0x80) :: rest) =
      (.ok (Char.ofNat ((n * 64 + m) * 64 + k)), 2) := by
  have low : (0xa0 : UInt8).toNat = 0xa0 := rfl
  have high : (0x9f : UInt8).toNat = 0x9f := rfl
  obtain ⟨above, within⟩ : (secondTail 13 0xa0 0x9f n).1.toNat ≤ m + 0x80 ∧
      m + 0x80 ≤ (secondTail 13 0xa0 0x9f n).2.toNat :=
    secondTail_range bound (by omega) (by omega)
  rw [readUnit, follow?_three n below]
  dsimp only
  rw [readTail_cons _ _ bound above within, readTail_any [] rest bound']
  rfl

/-- The narrow ranges leave out what three octets can say, and what no character has. -/
theorem readUnit_four {n m k l : Nat} (rest : List UInt8) (below : n < 5) (bound : m < 64)
    (bound' : k < 64) (bound'' : l < 64) (shortest : n = 0 → 16 ≤ m) (scalar : n = 4 → m < 16) :
    readUnit (UInt8.ofNat (n + 0xf0)) (UInt8.ofNat (m + 0x80) :: UInt8.ofNat (k + 0x80) ::
        UInt8.ofNat (l + 0x80) :: rest) =
      (.ok (Char.ofNat (((n * 64 + m) * 64 + k) * 64 + l)), 3) := by
  have low : (0x90 : UInt8).toNat = 0x90 := rfl
  have high : (0x8f : UInt8).toNat = 0x8f := rfl
  obtain ⟨above, within⟩ : (secondTail 4 0x90 0x8f n).1.toNat ≤ m + 0x80 ∧
      m + 0x80 ≤ (secondTail 4 0x90 0x8f n).2.toNat :=
    secondTail_range bound (by omega) (by omega)
  rw [readUnit, follow?_four n below]
  dsimp only
  rw [readTail_cons _ _ bound above within, readTail_any _ _ bound',
    readTail_any [] rest bound'']
  rfl

/-- The codes of characters leave out the surrogates. -/
theorem not_surrogate (c : Char) : c.toNat < 0xd800 ∨ 0xdfff < c.toNat := by
  rcases c.valid with low | high
  · exact Or.inl low
  · exact Or.inr high.1

theorem toNat_lt (c : Char) : c.toNat < 0x110000 := by
  rcases c.valid with low | high
  · exact Nat.lt_trans low (by decide)
  · exact high.2

/-- The octets of a character are read as that character, whatever follows them. -/
theorem readUnit_utf8EncodeChar (c : Char) (rest : List UInt8) :
    ∃ first more, String.utf8EncodeChar c = first :: more ∧
      readUnit first (more ++ rest) = (.ok c, more.length) := by
  have scalar := not_surrogate c
  have bound := toNat_lt c
  have back (n : Nat) (same : n = c.toNat) : Char.ofNat n = c := by rw [same, Char.ofNat_toNat]
  have code : c.val.toNat = c.toNat := rfl
  unfold String.utf8EncodeChar
  dsimp only
  rw [code]
  -- One case for each length; every digit to the base 64 is below 64 by itself.
  generalize c.toNat = n at *
  split
  · refine ⟨_, _, rfl, ?_⟩
    rw [readUnit_one _ (by omega), back _ rfl]
    rfl
  · split
    · refine ⟨_, _, rfl, ?_⟩
      rw [List.singleton_append, readUnit_two rest (by omega) (by omega) (by omega),
        back _ (by omega)]
      rfl
    · split
      · refine ⟨_, _, rfl, ?_⟩
        rw [List.cons_append, List.singleton_append,
          readUnit_three rest (by omega) (by omega) (by omega) (by omega) (by omega),
          back _ (by omega)]
        rfl
      · refine ⟨_, _, rfl, ?_⟩
        rw [List.cons_append, List.cons_append, List.singleton_append,
          readUnit_four rest (by omega) (by omega) (by omega) (by omega) (by omega) (by omega),
          back _ (by omega)]
        rfl

theorem decodeLossy_utf8EncodeChar (c : Char) (rest : List UInt8) :
    decodeLossy (String.utf8EncodeChar c ++ rest) = c :: decodeLossy rest := by
  obtain ⟨first, more, octets, unit⟩ := readUnit_utf8EncodeChar c rest
  rw [octets, List.cons_append, decodeLossy, unit]
  dsimp only
  rw [List.drop_left]

theorem decodeLossy_flatMap (text : List Char) :
    decodeLossy (text.flatMap String.utf8EncodeChar) = text := by
  induction text with
  | nil => simp [decodeLossy]
  | cons c text ih => rw [List.flatMap_cons, decodeLossy_utf8EncodeChar, ih]

/-- Every text can be decoded from its octets. -/
theorem decode_flatMap (text : List Char) :
    decode (text.flatMap String.utf8EncodeChar) = .ok text := by
  -- Positions are only told of what is malformed, so any will do.
  have general (position : Nat) :
      decodeFrom position (text.flatMap String.utf8EncodeChar) = .ok text := by
    induction text generalizing position with
    | nil => rw [List.flatMap_nil, decodeFrom]
    | cons c text ih =>
      obtain ⟨first, more, octets, unit⟩ :=
        readUnit_utf8EncodeChar c (text.flatMap String.utf8EncodeChar)
      rw [List.flatMap_cons, octets, List.cons_append, decodeFrom, unit]
      dsimp only
      rw [List.drop_left, ih]
      rfl
  exact general 0

/-! ### What is read as a character -/

theorem follow?_none_low : ∀ n < 0x42, follow? (UInt8.ofNat (n + 0x80)) = none := by decide

theorem follow?_none_high : ∀ n < 0x0b, follow? (UInt8.ofNat (n + 0xf5)) = none := by decide

/-- The first octets that a character can have, and the ranges that they fix. -/
theorem follow?_cases {first : UInt8} {code : Nat} {ranges : List (UInt8 × UInt8)}
    (found : follow? first = some (code, ranges)) :
    (first = UInt8.ofNat code ∧ code < 0x80 ∧ ranges = []) ∨
    (first = UInt8.ofNat (code + 0xc0) ∧ 2 ≤ code ∧ code < 32 ∧ ranges = [anyTail]) ∨
    (first = UInt8.ofNat (code + 0xe0) ∧ code < 16 ∧
      ranges = [secondTail 13 0xa0 0x9f code, anyTail]) ∨
    (first = UInt8.ofNat (code + 0xf0) ∧ code < 5 ∧
      ranges = [secondTail 4 0x90 0x8f code, anyTail, anyTail]) := by
  have bound := first.toNat_lt
  have own : UInt8.ofNat first.toNat = first := UInt8.ofNat_toNat
  generalize first.toNat = n at bound own
  subst own
  have moved (base : Nat) (above : base ≤ n) : ∃ m, n = m + base := ⟨n - base, by omega⟩
  by_cases one : n < 0x80
  · rw [follow?_one n one] at found
    cases found
    exact Or.inl ⟨rfl, one, rfl⟩
  by_cases low : n < 0xc2
  · obtain ⟨m, rfl⟩ := moved 0x80 (by omega)
    rw [follow?_none_low m (by omega)] at found
    cases found
  by_cases two : n < 0xe0
  · obtain ⟨m, rfl⟩ := moved 0xc0 (by omega)
    rw [follow?_two (by omega) (by omega)] at found
    cases found
    exact Or.inr (Or.inl ⟨rfl, by omega, by omega, rfl⟩)
  by_cases three : n < 0xf0
  · obtain ⟨m, rfl⟩ := moved 0xe0 (by omega)
    rw [follow?_three m (by omega)] at found
    cases found
    exact Or.inr (Or.inr (Or.inl ⟨rfl, by omega, rfl⟩))
  by_cases four : n < 0xf5
  · obtain ⟨m, rfl⟩ := moved 0xf0 (by omega)
    rw [follow?_four m (by omega)] at found
    cases found
    exact Or.inr (Or.inr (Or.inr ⟨rfl, by omega, rfl⟩))
  · obtain ⟨m, rfl⟩ := moved 0xf5 (by omega)
    rw [follow?_none_high m (by omega)] at found
    cases found

/-- An octet that was taken lies in its range. -/
theorem readTail_cons_eq_ok {code taken : Nat} {low high : UInt8} {ranges : List (UInt8 × UInt8)}
    {octets : List UInt8} {c : Char}
    (found : readTail code ((low, high) :: ranges) octets = (.ok c, taken)) :
    ∃ octet rest more, octets = octet :: rest ∧ taken = more + 1 ∧
      low.toNat ≤ octet.toNat ∧ octet.toNat ≤ high.toNat ∧
      readTail (code * 64 + (octet.toNat - 0x80)) ranges rest = (.ok c, more) := by
  cases octets with
  | nil => cases found
  | cons octet rest =>
    rw [readTail] at found
    split at found
    next inside =>
      rw [UInt8.le_iff_toNat_le, UInt8.le_iff_toNat_le] at inside
      obtain ⟨same, rfl⟩ := Prod.mk.inj found
      exact ⟨octet, rest, _, rfl, rfl, inside.1, inside.2, Prod.ext same rfl⟩
    · cases found

theorem readTail_nil_eq_ok {code taken : Nat} {octets : List UInt8} {c : Char}
    (found : readTail code [] octets = (.ok c, taken)) : c = Char.ofNat code ∧ taken = 0 := by
  rw [readTail] at found
  cases found
  exact ⟨rfl, rfl⟩

/-- What the range of a second octet says of it. -/
theorem secondTail_bounds {last n k : Nat} {lowest highest : UInt8} (apart : last ≠ 0)
    (tail : 0x80 ≤ lowest.toNat) (top : highest.toNat ≤ 0xbf)
    (above : (secondTail last lowest highest n).1.toNat ≤ k)
    (below : k ≤ (secondTail last lowest highest n).2.toNat) :
    0x80 ≤ k ∧ k ≤ 0xbf ∧ (n = 0 → lowest.toNat ≤ k) ∧ (n = last → k ≤ highest.toNat) := by
  have low : (0x80 : UInt8).toNat = 0x80 := rfl
  have high : (0xbf : UInt8).toNat = 0xbf := rfl
  by_cases first : n = 0
  · rw [secondTail, if_pos first] at above below
    dsimp only at above below
    exact ⟨by omega, by omega, fun _ => above, by omega⟩
  by_cases final : n = last
  · rw [secondTail, if_neg first, if_pos final] at above below
    dsimp only at above below
    exact ⟨by omega, by omega, by omega, fun _ => below⟩
  · rw [secondTail, if_neg first, if_neg final, anyTail] at above below
    dsimp only at above below
    exact ⟨by omega, by omega, by omega, by omega⟩

theorem val_toNat_ofNat {code : Nat} (valid : code.isValidChar) :
    (Char.ofNat code).val.toNat = code := by
  rw [Char.ofNat, dif_pos valid]
  rfl

theorem ofNat_eq {octet : UInt8} {n : Nat} (same : n = octet.toNat) : UInt8.ofNat n = octet := by
  rw [same, UInt8.ofNat_toNat]

section Octets

variable {n : Nat} {one two three : UInt8}

theorem utf8EncodeChar_one (bound : n < 0x80) :
    String.utf8EncodeChar (Char.ofNat n) = [UInt8.ofNat n] := by
  rw [String.utf8EncodeChar, val_toNat_ofNat (Or.inl (by omega)), if_pos (by omega)]

theorem utf8EncodeChar_two (above : 2 ≤ n) (below : n < 32)
    (second : 0x80 ≤ one.toNat ∧ one.toNat ≤ 0xbf) :
    String.utf8EncodeChar (Char.ofNat (n * 64 + (one.toNat - 0x80))) =
      [UInt8.ofNat (n + 0xc0), one] := by
  rw [String.utf8EncodeChar, val_toNat_ofNat (Or.inl (by omega)), if_neg (by omega),
    if_pos (by omega)]
  exact List.cons_eq_cons.mpr ⟨congrArg UInt8.ofNat (by omega),
    List.cons_eq_cons.mpr ⟨ofNat_eq (by omega), rfl⟩⟩

/-- No code needs fewer octets, and none is a surrogate. -/
theorem utf8EncodeChar_three (below : n < 16) (second : 0x80 ≤ one.toNat ∧ one.toNat ≤ 0xbf)
    (shortest : n = 0 → 0xa0 ≤ one.toNat) (scalar : n = 13 → one.toNat ≤ 0x9f)
    (third : 0x80 ≤ two.toNat ∧ two.toNat ≤ 0xbf) :
    String.utf8EncodeChar
        (Char.ofNat ((n * 64 + (one.toNat - 0x80)) * 64 + (two.toNat - 0x80))) =
      [UInt8.ofNat (n + 0xe0), one, two] := by
  rw [String.utf8EncodeChar, val_toNat_ofNat (by unfold Nat.isValidChar; omega),
    if_neg (by omega), if_neg (by omega), if_pos (by omega)]
  exact List.cons_eq_cons.mpr ⟨congrArg UInt8.ofNat (by omega),
    List.cons_eq_cons.mpr ⟨ofNat_eq (by omega),
      List.cons_eq_cons.mpr ⟨ofNat_eq (by omega), rfl⟩⟩⟩

/-- No code needs fewer octets, and none lies beyond the last character. -/
theorem utf8EncodeChar_four (below : n < 5) (second : 0x80 ≤ one.toNat ∧ one.toNat ≤ 0xbf)
    (shortest : n = 0 → 0x90 ≤ one.toNat) (scalar : n = 4 → one.toNat ≤ 0x8f)
    (third : 0x80 ≤ two.toNat ∧ two.toNat ≤ 0xbf)
    (fourth : 0x80 ≤ three.toNat ∧ three.toNat ≤ 0xbf) :
    String.utf8EncodeChar
        (Char.ofNat (((n * 64 + (one.toNat - 0x80)) * 64 + (two.toNat - 0x80)) * 64 +
          (three.toNat - 0x80))) =
      [UInt8.ofNat (n + 0xf0), one, two, three] := by
  rw [String.utf8EncodeChar, val_toNat_ofNat (by unfold Nat.isValidChar; omega),
    if_neg (by omega), if_neg (by omega), if_neg (by omega)]
  exact List.cons_eq_cons.mpr ⟨congrArg UInt8.ofNat (by omega),
    List.cons_eq_cons.mpr ⟨ofNat_eq (by omega),
      List.cons_eq_cons.mpr ⟨ofNat_eq (by omega),
        List.cons_eq_cons.mpr ⟨ofNat_eq (by omega), rfl⟩⟩⟩⟩

end Octets

/-- The octets of which a character is read are those of the character. -/
theorem utf8EncodeChar_of_readUnit {first : UInt8} {rest : List UInt8} {c : Char} {taken : Nat}
    (found : readUnit first rest = (.ok c, taken)) :
    String.utf8EncodeChar c = first :: rest.take taken := by
  rw [readUnit] at found
  split at found
  · cases found
  next code ranges known =>
    -- One case for each length; the octets behind the first are taken one after the other.
    rcases follow?_cases known with ⟨rfl, bound, rfl⟩ | ⟨rfl, low, bound, rfl⟩ |
      ⟨rfl, bound, rfl⟩ | ⟨rfl, bound, rfl⟩
    · obtain ⟨char, none⟩ := readTail_nil_eq_ok found
      rw [char, none, List.take_zero, utf8EncodeChar_one bound]
    · obtain ⟨one, rest, more, rfl, rfl, above, below, found⟩ := readTail_cons_eq_ok found
      obtain ⟨char, none⟩ := readTail_nil_eq_ok found
      rw [char, none, utf8EncodeChar_two low bound ⟨above, below⟩]
      rfl
    · obtain ⟨one, rest, more, rfl, rfl, above, below, found⟩ := readTail_cons_eq_ok found
      obtain ⟨two, rest, more, rfl, rfl, above', below', found⟩ := readTail_cons_eq_ok found
      obtain ⟨char, none⟩ := readTail_nil_eq_ok found
      obtain ⟨above, below, shortest, scalar⟩ :=
        secondTail_bounds (by decide) (by decide) (by decide) above below
      rw [char, none, utf8EncodeChar_three bound ⟨above, below⟩ shortest scalar ⟨above', below'⟩]
      rfl
    · obtain ⟨one, rest, more, rfl, rfl, above, below, found⟩ := readTail_cons_eq_ok found
      obtain ⟨two, rest, more, rfl, rfl, above', below', found⟩ := readTail_cons_eq_ok found
      obtain ⟨three, rest, more, rfl, rfl, above'', below'', found⟩ := readTail_cons_eq_ok found
      obtain ⟨char, none⟩ := readTail_nil_eq_ok found
      obtain ⟨above, below, shortest, scalar⟩ :=
        secondTail_bounds (by decide) (by decide) (by decide) above below
      rw [char, none, utf8EncodeChar_four bound ⟨above, below⟩ shortest scalar ⟨above', below'⟩
        ⟨above'', below''⟩]
      rfl

/-- As many octets are taken as the character has. -/
theorem cons_eq_of_readUnit {first : UInt8} {rest : List UInt8} {c : Char} {taken : Nat}
    (found : readUnit first rest = (.ok c, taken)) :
    first :: rest = String.utf8EncodeChar c ++ rest.drop taken ∧
      (String.utf8EncodeChar c).length = 1 + taken := by
  have own := utf8EncodeChar_of_readUnit found
  have whole : first :: rest = String.utf8EncodeChar c ++ rest.drop taken := by
    rw [own, List.cons_append, List.take_append_drop]
  -- The octets of the character are read again, and both readings take as many.
  obtain ⟨first', more, octets, again⟩ := readUnit_utf8EncodeChar c (rest.drop taken)
  have front := whole
  rw [octets, List.cons_append] at front
  obtain ⟨rfl, same⟩ := List.cons_eq_cons.mp front
  rw [← same, found] at again
  have taken' : taken = more.length := congrArg Prod.snd again
  exact ⟨whole, by rw [octets, List.length_cons, taken', Nat.add_comm]⟩

/-- Characters are read from the front of the octets, up to the end or to the first octet that
begins none. -/
theorem decodeFrom_cases (position : Nat) (octets : List UInt8) :
    ∃ (text : List Char) (back : List UInt8),
      octets = text.flatMap String.utf8EncodeChar ++ back ∧
      ((back = [] ∧ decodeFrom position octets = .ok text) ∨
        ∃ cause rest reason taken, back = cause.first :: rest ∧
          cause.start = position + (text.flatMap String.utf8EncodeChar).length ∧
          readUnit cause.first rest = (.error reason, taken) ∧
          decodeFrom position octets = .error cause) := by
  induction position, octets using decodeFrom.induct with
  | case1 position => exact ⟨[], [], rfl, Or.inl ⟨rfl, by rw [decodeFrom]⟩⟩
  | case2 position first rest unit next c own ih =>
    obtain ⟨text, back, split, answer⟩ := ih
    obtain ⟨whole, length⟩ := cons_eq_of_readUnit (Prod.ext own rfl : unit = (.ok c, unit.2))
    have step : decodeFrom position (first :: rest) =
        (decodeFrom next (rest.drop unit.2)).map (c :: ·) := by
      rw [decodeFrom, own]
    refine ⟨c :: text, back, ?_, answer.imp ?_ ?_⟩
    · rw [whole, split, List.flatMap_cons, List.append_assoc]
    · rintro ⟨none, decoded⟩
      exact ⟨none, by rw [step, decoded]; rfl⟩
    · rintro ⟨cause, more, reason, taken, begins, start, failed, malformed⟩
      refine ⟨cause, more, reason, taken, begins, ?_, failed, by rw [step, malformed]; rfl⟩
      rw [start, List.flatMap_cons, List.length_append, length]
      omega
  | case3 position first rest unit reason failed =>
    have found : unit = (.error reason, unit.2) := Prod.ext failed rfl
    refine ⟨[], first :: rest, rfl, Or.inr
      ⟨⟨position, position + 1 + unit.2, first, reason⟩, rest, reason, unit.2, rfl, rfl, found, ?_⟩⟩
    rw [decodeFrom, failed]

/-- A text is decoded from its own octets and from no others. -/
theorem decode_eq_ok_iff {octets : List UInt8} {text : List Char} :
    decode octets = .ok text ↔ octets = text.flatMap String.utf8EncodeChar := by
  constructor
  · intro decoded
    obtain ⟨own, back, split, ⟨none, read⟩ | ⟨cause, -, -, -, -, -, -, malformed⟩⟩ :=
      decodeFrom_cases 0 octets
    · cases decoded.symm.trans read
      rwa [none, List.append_nil] at split
    · cases decoded.symm.trans malformed
  · rintro rfl
    exact decode_flatMap text

/-- What is malformed begins right behind the characters that were read, and no character begins
there. -/
theorem decode_eq_error {octets : List UInt8} {cause : Malformed}
    (malformed : decode octets = .error cause) :
    ∃ (text : List Char) (rest : List UInt8),
      octets = text.flatMap String.utf8EncodeChar ++ cause.first :: rest ∧
      cause.start = (text.flatMap String.utf8EncodeChar).length ∧
      ∀ c more, cause.first :: rest ≠ String.utf8EncodeChar c ++ more := by
  obtain ⟨text, back, split, ⟨-, decoded⟩ |
    ⟨cause', rest, reason, taken, begins, start, failed, same⟩⟩ := decodeFrom_cases 0 octets
  · cases malformed.symm.trans decoded
  · cases malformed.symm.trans same
    rw [begins] at split
    rw [Nat.zero_add] at start
    refine ⟨text, rest, split, start, fun c more own => ?_⟩
    obtain ⟨first, tail, octets, found⟩ := readUnit_utf8EncodeChar c more
    rw [octets] at own
    obtain ⟨rfl, rfl⟩ := List.cons_eq_cons.mp own
    cases failed.symm.trans found

end Routebook.Text.Utf8
