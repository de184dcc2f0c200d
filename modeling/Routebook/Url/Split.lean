import Routebook.Url.Address

/-!
# Splitting locations

A location is a scheme, an authority after two slashes, and a path up to a query or fragment.
Controls and blanks in front are dropped, and tabs and line breaks anywhere. An authority is
refused if its brackets are wrong, or if it holds a character that becomes a delimiter when
compatibility characters are replaced.
-/
namespace Routebook.Url

structure Parts where
  scheme : List Char
  authority : List Char
  path : List Char
  deriving DecidableEq, Repr

def isControlOrSpace (c : Char) : Bool := c.toNat ≤ 0x20

def isDropped (c : Char) : Bool := c = '\t' || c = '\r' || c = '\n'

def clean (text : List Char) : List Char :=
  (text.dropWhile isControlOrSpace).filter (!isDropped ·)

def isSchemeChar (c : Char) : Bool := c.isAlphanum || c = '+' || c = '-' || c = '.'

/-- A scheme begins with a letter. -/
def isScheme (text : List Char) : Bool :=
  (match text.head? with
    | some c => c.isAlpha
    | none => false) && text.all isSchemeChar

/-- The scheme in small letters, empty if there is none, and what follows its colon. -/
def splitScheme (text : List Char) : List Char × List Char :=
  match Text.cutAt ':' text with
  | (before, some after) =>
    if isScheme before then (before.map Char.toLower, after) else ([], text)
  | _ => ([], text)

def endsAuthority (c : Char) : Bool := c = '/' || c = '?' || c = '#'

/-- The authority, empty if there is none, and what follows it. -/
def splitAuthority : List Char → List Char × List Char
  | '/' :: '/' :: rest => (rest.takeWhile (!endsAuthority ·), rest.dropWhile (!endsAuthority ·))
  | rest => ([], rest)

/-- The characters beyond ASCII whose compatibility form holds one of `/ ? # @ :`. -/
def disguises : List Char :=
  [0x2047, 0x2048, 0x2049, 0x2100, 0x2101, 0x2105, 0x2106, 0x2a74, 0xfe13, 0xfe16, 0xfe55, 0xfe56,
   0xfe5f, 0xfe6b, 0xff03, 0xff0f, 0xff1a, 0xff1f, 0xff20].map Char.ofNat

def checkDisguises (authority : List Char) : Except AddressFault Unit :=
  if authority.any disguises.contains then .error (.hiddenDelimiter (String.ofList authority))
  else .ok ()

def beforeQuery (text : List Char) : List Char := (Text.cutAt '?' (Text.cutAt '#' text).1).1

def split (text : List Char) : Except AddressFault Parts := do
  let (scheme, rest) := splitScheme (clean text)
  let (authority, rest) := splitAuthority rest
  checkBrackets authority
  checkDisguises authority
  return ⟨scheme, authority, beforeQuery rest⟩

end Routebook.Url
