import Routebook.Text.Percent
import Routebook.Text.Quoted

/-!
# Strings of JSON

Text between double quotes, in ASCII alone: a character that is not visible ASCII and has no short
escape is written as one or two units of UTF-16. The reader takes any string of JSON whose units
make whole characters.
-/
namespace Routebook.Json

/-- The letters after a backslash that stand for a character. -/
def shortEscapes : List (Char × Char) :=
  [('"', '"'), ('\\', '\\'), ('b', '\x08'), ('f', '\x0c'), ('n', '\n'), ('r', '\r'), ('t', '\t')]

def escapeUnit (unit : Nat) : List Char := '\\' :: 'u' :: Text.hexDigits 4 unit

def isVisible (c : Char) : Bool := ' ' ≤ c && c ≤ '~'

def escapeChar (c : Char) : List Char :=
  match shortEscapes.find? fun escape => escape.2 = c with
  | some escape => ['\\', escape.1]
  | none =>
    if isVisible c then [c]
    else if c.toNat < 0x10000 then escapeUnit c.toNat
    else
      let above := c.toNat - 0x10000
      escapeUnit (0xd800 + above / 0x400) ++ escapeUnit (0xdc00 + above % 0x400)

def encodeText (text : List Char) : List Char := '"' :: text.flatMap escapeChar ++ ['"']

/-- The character that follows a backslash and stands for one. -/
def unescape? (c : Char) : Option Char :=
  if c = '/' then some c else (shortEscapes.find? fun escape => escape.1 = c).map (·.2)

def unit? (a b c d : Char) : Option Nat := do
  let high := 16 * (← Text.Percent.hexValue? a) + (← Text.Percent.hexValue? b)
  let low := 16 * (← Text.Percent.hexValue? c) + (← Text.Percent.hexValue? d)
  return 256 * high + low

def isHighHalf (unit : Nat) : Bool := 0xd800 ≤ unit && unit < 0xdc00

def isLowHalf (unit : Nat) : Bool := 0xdc00 ≤ unit && unit < 0xe000

def joinHalves (high low : Nat) : Char :=
  Char.ofNat (0x10000 + (high - 0xd800) * 0x400 + (low - 0xdc00))

/-- A character at the front of what follows an opening quote, and what is left. -/
def readChar? : List Char → Option (Char × List Char)
  | '\\' :: 'u' :: a :: b :: c :: d :: rest => do
    let unit ← unit? a b c d
    if isHighHalf unit then
      match rest with
      | '\\' :: 'u' :: e :: f :: g :: h :: rest =>
        let low ← unit? e f g h
        if isLowHalf low then some (joinHalves unit low, rest) else none
      | _ => none
    else if isLowHalf unit then none
    else some (Char.ofNat unit, rest)
  | '\\' :: c :: rest => (unescape? c).map (·, rest)
  | c :: rest => if c < ' ' ∨ c = '\\' then none else some (c, rest)
  | [] => none

theorem readChar?_length_lt {text rest : List Char} {c : Char}
    (found : readChar? text = some (c, rest)) : rest.length < text.length := by
  unfold readChar? at found
  split at found
  next unitRest =>
    simp only [Option.bind_eq_bind, Option.bind_eq_some_iff] at found
    obtain ⟨unit, _, found⟩ := found
    split at found
    · split at found
      · simp only [Option.bind_eq_some_iff] at found
        obtain ⟨low, _, found⟩ := found
        split at found
        · simp at found; rw [← found.2]; simp only [List.length_cons]; omega
        · simp at found
      · simp at found
    · split at found
      · simp at found
      · simp at found; rw [← found.2]; simp only [List.length_cons]; omega
  · simp at found; obtain ⟨_, _, _, rfl⟩ := found; simp only [List.length_cons]; omega
  · split at found
    · simp at found
    · simp at found; rw [← found.2]; simp
  · simp at found

/-- The text up to the closing quote, and what follows it. -/
def readText? (text : List Char) : Option (List Char × List Char) :=
  if text.head? = some '"' then some ([], text.drop 1)
  else match _found : readChar? text with
    | none => none
    | some (c, rest) => (readText? rest).map fun (more, after) => (c :: more, after)
  termination_by text.length
  decreasing_by exact readChar?_length_lt (by assumption)

theorem readText?_length_lt {text chars rest : List Char}
    (found : readText? text = some (chars, rest)) : rest.length < text.length := by
  induction text using readText?.induct generalizing chars with
  | case1 text quote =>
    rw [readText?, if_pos quote] at found
    cases text <;> simp_all
  | case2 text quote none =>
    rw [readText?, if_neg quote] at found
    split at found <;> simp_all
  | case3 text quote c more read ih =>
    have shorter := readChar?_length_lt read
    rw [readText?, if_neg quote] at found
    split at found
    · simp_all
    next again =>
      rw [read] at again
      obtain ⟨rfl, rfl⟩ := Prod.mk.inj (Option.some.inj again)
      simp at found
      obtain ⟨chars, inner, _⟩ := found
      have := ih inner
      omega

end Routebook.Json
