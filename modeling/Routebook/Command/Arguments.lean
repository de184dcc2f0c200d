import Routebook.Command.Topic
import Routebook.Text.Cut
import Routebook.Text.Digit

/-!
# Arguments

Each argument is first taken for a switch, an operand, or nothing known. Two dashes alone make
operands of all arguments after them. A long switch may be shortened to a beginning that no other
has, and its value may follow an equals sign; short switches may share one dash. What the
arguments say is the list of their events from left to right, which a misuse ends.
-/
namespace Routebook.Command

/-- What an argument is taken for. -/
inductive Role where
  | dashes
  | operand
  /-- A switch, and the text that its argument holds after the spelling. -/
  | given (switch : Switch) (short : Bool) (value : Option (List Char))
  | unknown
  deriving DecidableEq, Repr

structure Argument where
  text : String
  role : Role
  deriving DecidableEq, Repr

namespace Role

def isLong (spelling : List Char) : Bool := "--".toList.isPrefixOf spelling

def spelled (switches : List Switch) : List (List Char × Switch) :=
  switches.flatMap fun switch => switch.spellings.map fun spelling => (spelling.toList, switch)

def exactly? (switches : List Switch) (text : List Char) (value : Option (List Char)) :
    Option Role :=
  ((spelled switches).lookup text).map fun switch => .given switch (!isLong text) value

/-- The spellings that a text may be short for, or begin with. -/
def candidates (switches : List Switch) (text : List Char) : List (List Char × Role) :=
  if isLong text then
    let (start, value) := Text.cutAt '=' text
    (spelled switches).filterMap fun (spelling, switch) =>
      if start.isPrefixOf spelling then some (spelling, .given switch false value) else none
  else
    (spelled switches).filterMap fun (spelling, switch) =>
      if spelling = text.take 2 then some (spelling, .given switch true (some (text.drop 2)))
      else none

/-- A dash and a number, perhaps with a line feed after it. -/
def isNegative : List Char → Bool
  | '-' :: number =>
    match Text.cutAt '.' (Text.dropTrailing ['\n'] number) with
    | (whole, none) => !whole.isEmpty && whole.all Text.isDigit
    | (whole, some digits) =>
      whole.all Text.isDigit && !digits.isEmpty && digits.all Text.isDigit
  | _ => false

/-- Text behind a dash that no switch is spelled like: a number or a text with a space is an
operand. -/
def ofUnspelled (text : List Char) : Role :=
  if isNegative text || text.contains ' ' then .operand else .unknown

def ofText (switches : List Switch) (text : String) : Except Misuse Role :=
  let chars := text.toList
  if chars.head? ≠ some '-' then .ok .operand
  else
    let (start, value) := Text.cutAt '=' chars
    -- A spelling before an equals sign counts only if the whole text is no spelling.
    let named := match value with
      | none => none
      | some value => exactly? switches start (some value)
    match exactly? switches chars none <|> (if chars = ['-'] then some .operand else named) with
    | some role => .ok role
    | none =>
      match candidates switches chars with
      | [] => .ok (ofUnspelled chars)
      | [(_, role)] => .ok role
      | several => .error (.ambiguous text (several.map fun found => String.ofList found.1))

end Role

namespace Argument

def readAll (switches : List Switch) : List String → Except Misuse (List Argument)
  | [] => .ok []
  | text :: rest =>
    if text = "--" then .ok (⟨text, .dashes⟩ :: rest.map (⟨·, .operand⟩))
    else do
      let role ← Role.ofText switches text
      return ⟨text, role⟩ :: (← readAll switches rest)

end Argument

/-- What arguments say, one thing after the other. -/
inductive Event where
  | flag (switch : Switch)
  /-- A value for a switch; two dashes behind an equals sign are none. -/
  | value (switch : Switch) (value : Option String)
  /-- The operand, and the arguments that it takes along. -/
  | operand (text : String) (rest : List String)
  /-- An argument that nothing asks for. -/
  | stray (text : String)
  | misuse (cause : Misuse)
  deriving DecidableEq, Repr

namespace Event

/-- Short switches behind one dash: the first one, and the letters of those after it. -/
def together (switches : List Switch) (first : Switch) : List Char → Except Misuse (List Event)
  | [] => .ok [.flag first]
  | letter :: rest =>
    match (Role.spelled switches).lookup ['-', letter] with
    | some next => (together switches next rest).map (.flag first :: ·)
    | none => .error (.unwantedValue first (String.ofList (letter :: rest)))

/-- A switch whose argument holds more text than its spelling. -/
def withText (switches : List Switch) (switch : Switch) (short : Bool) (text : List Char) :
    Except Misuse (List Event) :=
  if switch.takesValue then
    .ok [.value switch (if text = "--".toList then none else some (String.ofList text))]
  else if short && !text.isEmpty then together switches switch text
  else .error (.unwantedValue switch (String.ofList text))

/-- The events of arguments, as long as the operand is pending and after it. -/
def ofArguments (topic : Topic) : (pending : Bool) → List Argument → List Event
  | _, [] => []
  | pending, ⟨text, .unknown⟩ :: rest => .stray text :: ofArguments topic pending rest
  | pending, ⟨_, .given switch short (some text)⟩ :: rest =>
    match withText topic.switches switch short text with
    | .ok events => events ++ ofArguments topic pending rest
    | .error cause => [.misuse cause]
  | pending, ⟨_, .given switch _ none⟩ :: rest =>
    if switch.takesValue then
      match rest with
      | ⟨text, .operand⟩ :: more => .value switch (some text) :: ofArguments topic pending more
      | _ => [.misuse (.missingValue switch)]
    else .flag switch :: ofArguments topic pending rest
  -- No switch is left here, only text that an operand may take.
  | false, ⟨text, _⟩ :: rest => .stray text :: ofArguments topic false rest
  | true, [⟨text, .dashes⟩] => [.stray text]
  | true, [⟨text, .operand⟩] => [.operand text []]
  | true, ⟨text, .dashes⟩ :: next :: rest =>
    if topic.takesRest then [.operand text (next.text :: rest.map (·.text))]
    else .operand next.text [] :: ofArguments topic false rest
  | true, ⟨text, .operand⟩ :: next :: rest =>
    if topic.takesRest then [.operand text (next.text :: rest.map (·.text))]
    else if next.role = .dashes then .operand text [] :: ofArguments topic false rest
    else .operand text [] :: ofArguments topic false (next :: rest)

end Event

end Routebook.Command
