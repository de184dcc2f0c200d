import Mathlib.Data.List.SplitBy
import Routebook.Proofs.Utf8
import Routebook.Text.Percent

/-!
# Percent-encoding

Every percent-encoding of a text decodes to the text. Decoding goes from run to run of characters on
either side of ASCII. The octets of a character are escaped all or not at all, so a run of an
encoding ends between two characters, and what has been decoded never changes.
-/
namespace Routebook.Text.Percent

/-- The hexadecimal digit of a value, in small or capital letters. -/
def IsHexDigit (value : Nat) (c : Char) : Prop :=
  "0123456789abcdef".toList[value]? = some c ∨ "0123456789ABCDEF".toList[value]? = some c

instance (value : Nat) (c : Char) : Decidable (IsHexDigit value c) :=
  inferInstanceAs (Decidable (_ ∨ _))

/-- A percent sign and two digits for each octet. -/
inductive Escapes : List UInt8 → List Char → Prop where
  | nil : Escapes [] []
  | cons {octet high low octets escapes} (upper : IsHexDigit (octet.toNat / 16) high)
      (lower : IsHexDigit (octet.toNat % 16) low) (more : Escapes octets escapes) :
      Escapes (octet :: octets) ('%' :: high :: low :: escapes)

/-- `Encodes text encoded`: each character is written raw, unless it is the percent sign, or by the
escapes of its octets. -/
inductive Encodes : List Char → List Char → Prop where
  | nil : Encodes [] []
  | raw {c text encoded} (other : c ≠ '%') (more : Encodes text encoded) :
      Encodes (c :: text) (c :: encoded)
  | escaped {c escapes text encoded} (octets : Escapes (String.utf8EncodeChar c) escapes)
      (more : Encodes text encoded) : Encodes (c :: text) (escapes ++ encoded)

theorem Encodes.append {first second left right : List Char} (one : Encodes first left)
    (two : Encodes second right) : Encodes (first ++ second) (left ++ right) := by
  induction one with
  | nil => exact two
  | raw other more ih => exact .raw other ih
  | escaped octets more ih =>
    rw [List.append_assoc]
    exact .escaped octets ih

/-- A digit stands for its value, and is an ASCII character. -/
theorem hexValue?_of_isHexDigit {value : Nat} {c : Char} (digit : IsHexDigit value c) :
    hexValue? c = some value ∧ isAscii c = true := by
  -- The digits are decided all at once, sixteen in each writing.
  have small : ∀ n < 16, ("0123456789abcdef".toList[n]?).all
      (fun d => hexValue? d = some n ∧ isAscii d) = true := by decide
  have capital : ∀ n < 16, ("0123456789ABCDEF".toList[n]?).all
      (fun d => hexValue? d = some n ∧ isAscii d) = true := by decide
  rcases digit with found | found
  · have own := small value (List.getElem?_eq_some_iff.mp found).1
    rw [found] at own
    exact of_decide_eq_true own
  · have own := capital value (List.getElem?_eq_some_iff.mp found).1
    rw [found] at own
    exact of_decide_eq_true own

theorem octet?_of_isHexDigit {octet : UInt8} {high low : Char}
    (upper : IsHexDigit (octet.toNat / 16) high) (lower : IsHexDigit (octet.toNat % 16) low) :
    octet? high low = some octet := by
  have whole : 16 * (octet.toNat / 16) + octet.toNat % 16 = octet.toNat := by omega
  rw [octet?, (hexValue?_of_isHexDigit upper).1, (hexValue?_of_isHexDigit lower).1]
  simp only [bind, Option.bind, pure]
  rw [whole, UInt8.ofNat_toNat]

theorem octets_cons_of_ne {c : Char} (rest : List Char) (other : c ≠ '%') :
    octets (c :: rest) = c.toUInt8 :: octets rest := by
  rw [octets.eq_def]
  split
  next same => cases same
  next same => exact absurd (List.cons.inj same).1 other
  next same =>
    cases same
    rfl

theorem octets_escapes {codes : List UInt8} {escapes : List Char} (escaped : Escapes codes escapes)
    (rest : List Char) : octets (escapes ++ rest) = codes ++ octets rest := by
  induction escaped with
  | nil => rfl
  | cons upper lower more ih => simp [octets, octet?_of_isHexDigit upper lower, ih]

theorem mem_escapes {codes : List UInt8} {escapes : List Char} (escaped : Escapes codes escapes)
    {c : Char} (member : c ∈ escapes) : c = '%' ∨ ∃ value, IsHexDigit value c := by
  induction escaped with
  | nil => cases member
  | cons upper lower more ih =>
    simp only [List.mem_cons] at member
    rcases member with rfl | rfl | rfl | later
    · exact Or.inl rfl
    · exact Or.inr ⟨_, upper⟩
    · exact Or.inr ⟨_, lower⟩
    · exact ih later

theorem isAscii_of_mem_escapes {codes : List UInt8} {escapes : List Char}
    (escaped : Escapes codes escapes) {c : Char} (member : c ∈ escapes) : isAscii c = true := by
  rcases mem_escapes escaped member with rfl | ⟨value, digit⟩
  · rfl
  · exact (hexValue?_of_isHexDigit digit).2

/-- An ASCII character has one octet, its own code. -/
theorem utf8EncodeChar_of_isAscii {c : Char} (ascii : isAscii c = true) :
    String.utf8EncodeChar c = [c.toUInt8] := by
  have small : c.val.toNat < 0x80 := of_decide_eq_true ascii
  unfold String.utf8EncodeChar
  dsimp only
  rw [if_pos (by omega)]
  rfl

/-- The octets of an encoding without raw characters beyond ASCII. -/
theorem octets_of_encodes {text encoded : List Char} (encodes : Encodes text encoded)
    (ascii : ∀ c ∈ encoded, isAscii c = true) :
    octets encoded = text.flatMap String.utf8EncodeChar := by
  induction encodes with
  | nil => rfl
  | raw other more ih =>
    obtain ⟨first, rest⟩ := List.forall_mem_cons.mp ascii
    rw [octets_cons_of_ne _ other, ih rest, List.flatMap_cons, utf8EncodeChar_of_isAscii first]
    rfl
  | escaped codes more ih =>
    have rest := (List.forall_mem_append.mp ascii).2
    rw [octets_escapes codes, ih rest, List.flatMap_cons]

theorem decode_append {left right : List Char}
    (border : ∀ c ∈ left.getLast?, ∀ d ∈ right.head?, isAscii c ≠ isAscii d) :
    decode (left ++ right) = decode left ++ decode right := by
  rw [decode, List.splitBy_append, List.flatMap_append]
  · rfl
  · intro c last d first
    simpa using border c last d first

/-- A run is decoded at once. -/
theorem decode_of_run {text : List Char} {ascii : Bool}
    (run : ∀ c ∈ text, isAscii c = ascii) : decode text = decodeRun text := by
  by_cases empty : text = []
  · simp [empty, decode, decodeRun, octets, Utf8.decodeLossy]
  · have alike : text.Pairwise fun c d => (isAscii c == isAscii d) = true :=
      List.pairwise_of_forall_mem_list fun c first d second => by simp [run c first, run d second]
    rw [decode, List.splitBy_of_isChain empty alike.isChain, List.flatMap_singleton]

theorem decode_of_not_isAscii {text : List Char} (beyond : ∀ c ∈ text, isAscii c = false) :
    decode text = text := by
  rw [decode_of_run beyond, decodeRun]
  cases text with
  | nil => simp [octets, Utf8.decodeLossy]
  | cons c text => simp [beyond c List.mem_cons_self]

/-- A text up to its first ASCII character, and the rest. -/
theorem decode_cut (text : List Char) :
    decode text = text.takeWhile (!isAscii ·) ++ decode (text.dropWhile (!isAscii ·)) := by
  have beyond : ∀ c ∈ text.takeWhile (!isAscii ·), isAscii c = false := by
    intro c member
    simpa using List.all_eq_true.mp List.all_takeWhile c member
  have border : ∀ c ∈ (text.takeWhile (!isAscii ·)).getLast?,
      ∀ d ∈ (text.dropWhile (!isAscii ·)).head?, isAscii c ≠ isAscii d := by
    intro c last d first
    have other := List.head?_dropWhile_not (!isAscii ·) text
    rw [first] at other
    have ascii : isAscii d = true := by simpa using other
    rw [beyond c (List.mem_of_getLast? last), ascii]
    decide
  have joined := decode_append border
  rwa [List.takeWhile_append_dropWhile, decode_of_not_isAscii beyond] at joined

/-- A character beyond ASCII stands for itself, whatever follows. -/
theorem decode_cons_of_not_isAscii {c : Char} (rest : List Char) (beyond : isAscii c = false) :
    decode (c :: rest) = c :: decode rest := by
  rw [decode_cut (c :: rest), decode_cut rest]
  simp [beyond]

theorem decode_of_isAscii {text : List Char} (ascii : ∀ c ∈ text, isAscii c = true) :
    decode text = Utf8.decodeLossy (octets text) := by
  rw [decode_of_run ascii, decodeRun, if_pos (List.all_eq_true.mpr ascii)]

theorem decode_of_encodes_isAscii {text encoded : List Char} (encodes : Encodes text encoded)
    (ascii : ∀ c ∈ encoded, isAscii c = true) : decode encoded = text := by
  rw [decode_of_isAscii ascii, octets_of_encodes encodes ascii, Utf8.decodeLossy_flatMap]

/-- What follows a run that may not have ended yet. The induction moves ASCII from the encoding to
the run, and starts a new run after any other character. -/
theorem decode_append_of_encodes {before run text encoded : List Char}
    (pending : Encodes before run) (ascii : ∀ c ∈ run, isAscii c = true)
    (encodes : Encodes text encoded) : decode (run ++ encoded) = before ++ text := by
  induction encodes generalizing before run with
  | nil => rw [List.append_nil, List.append_nil, decode_of_encodes_isAscii pending ascii]
  | @raw c text encoded other more ih =>
    cases kind : isAscii c with
    | true =>
      -- The run goes on with this character.
      have longer := ih (pending.append (.raw other .nil))
        (List.forall_mem_append.mpr ⟨ascii, by simpa using kind⟩)
      rwa [List.append_assoc, List.append_assoc] at longer
    | false =>
      -- The run ends here, behind all octets of the character before.
      have border : ∀ d ∈ run.getLast?, ∀ e ∈ (c :: encoded).head?, isAscii d ≠ isAscii e := by
        intro d last e first
        cases first
        rw [ascii d (List.mem_of_getLast? last), kind]
        decide
      have after : decode encoded = text := ih .nil (by simp)
      rw [decode_append border, decode_of_encodes_isAscii pending ascii,
        decode_cons_of_not_isAscii _ kind, after]
  | @escaped c escapes text encoded octets more ih =>
    have single : Encodes [c] escapes := by simpa using Encodes.escaped octets .nil
    have longer := ih (pending.append single)
      (List.forall_mem_append.mpr ⟨ascii, fun _ => isAscii_of_mem_escapes octets⟩)
    rwa [List.append_assoc, List.append_assoc] at longer

/-- Whatever encoding of a text is decoded, the text comes out. -/
theorem decode_of_encodes {text encoded : List Char} (encodes : Encodes text encoded) :
    decode encoded = text :=
  decode_append_of_encodes .nil (by simp) encodes

/-- Text without percent signs is its own encoding. -/
theorem encodes_self {text : List Char} (free : '%' ∉ text) : Encodes text text := by
  induction text with
  | nil => exact .nil
  | cons c text ih =>
    obtain ⟨other, free⟩ := not_or.mp (fun member => free (List.mem_cons.mpr member))
    exact .raw (Ne.symm other) (ih free)

theorem decode_of_plain {text : List Char} (plain : '%' ∉ text) : decode text = text :=
  decode_of_encodes (encodes_self plain)

theorem exists_escapes (octets : List UInt8) : ∃ escapes, Escapes octets escapes := by
  induction octets with
  | nil => exact ⟨[], .nil⟩
  | cons octet octets ih =>
    obtain ⟨escapes, more⟩ := ih
    have digit : ∀ n < 16, IsHexDigit n (Nat.digitChar n) := by decide
    have bound := octet.toNat_lt
    exact ⟨_, .cons (digit _ (by omega)) (digit _ (by omega)) more⟩

/-- Every text has an encoding in which nothing stands raw. -/
theorem exists_encodes (text : List Char) :
    ∃ encoded, Encodes text encoded ∧ ∀ c ∈ encoded, c = '%' ∨ ∃ value, IsHexDigit value c := by
  induction text with
  | nil => exact ⟨[], .nil, by simp⟩
  | cons c text ih =>
    obtain ⟨encoded, more, safe⟩ := ih
    obtain ⟨escapes, octets⟩ := exists_escapes (String.utf8EncodeChar c)
    refine ⟨_, .escaped octets more, List.forall_mem_append.mpr ⟨?_, safe⟩⟩
    exact fun d => mem_escapes octets

/-- A raw ASCII character other than the percent sign stands for itself, whatever follows. -/
theorem decode_cons_of_isAscii {c : Char} (rest : List Char) (ascii : isAscii c = true)
    (other : c ≠ '%') : decode (c :: rest) = c :: decode rest := by
  have run : ∀ d ∈ rest.takeWhile isAscii, isAscii d = true :=
    fun d member => List.all_eq_true.mp List.all_takeWhile d member
  have border {front : List Char} (inside : ∀ d ∈ front, isAscii d = true) :
      ∀ d ∈ front.getLast?, ∀ e ∈ (rest.dropWhile isAscii).head?, isAscii d ≠ isAscii e := by
    intro d last e first
    have beyond := List.head?_dropWhile_not isAscii rest
    rw [first] at beyond
    rw [inside d (List.mem_of_getLast? last)]
    simpa using beyond
  have longer : ∀ d ∈ c :: rest.takeWhile isAscii, isAscii d = true :=
    List.forall_mem_cons.mpr ⟨ascii, run⟩
  -- The first run is decoded at once, with this character or without it.
  have own := decode_append (border longer)
  have after := decode_append (border run)
  rw [List.cons_append, List.takeWhile_append_dropWhile] at own
  rw [List.takeWhile_append_dropWhile] at after
  have first := Utf8.decodeLossy_utf8EncodeChar c (octets (rest.takeWhile isAscii))
  rw [utf8EncodeChar_of_isAscii ascii, List.singleton_append] at first
  rw [own, after, decode_of_isAscii longer, decode_of_isAscii run, octets_cons_of_ne _ other, first,
    List.cons_append]

end Routebook.Text.Percent
