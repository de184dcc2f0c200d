import Mathlib.Data.Bool.AllAny
import Mathlib.Data.List.Forall2
import Routebook.Json.Printer
import Routebook.Proofs.Lines
import Routebook.Proofs.Merging
import Routebook.Proofs.Tokens

/-!
# Reading what is written

The reader's machine goes through a written value and comes out behind it with the value, whatever
containers are open around it. A container is gone through part by part: one lemma says so for
lists and objects alike, by induction on the parts and the texts they are written as.
-/
namespace Routebook.Json

/-- A text that takes the machine from one state to another, before anything that ends a token. -/
def Leads (text : List Char) (before after : Machine) : Prop :=
  ∃ tokens : List Token, tokens.foldlM Machine.step before = some after ∧
    ∀ rest, EndsToken rest → tokens? (text ++ rest) = (tokens? rest).map (tokens ++ ·)

variable {before middle after : Machine} {left right : List Char}

theorem endsToken_mark {mark : Char × Token} (rest : List Char) (member : mark ∈ punctuation) :
    EndsToken (mark.1 :: rest) := by
  have own : ∀ mark ∈ punctuation, mark.1.isAlpha = false ∧ isNumberChar mark.1 = false := by
    decide
  intro c first
  cases first
  exact own mark member

theorem endsToken_blanks {blanks rest : List Char} (blank : ∀ c ∈ blanks, isJsonBlank c = true)
    (ends : EndsToken rest) : EndsToken (blanks ++ rest) := by
  have own : ∀ c ∈ [' ', '\t', '\n', '\r'], c.isAlpha = false ∧ isNumberChar c = false :=
    List.all_iff_forall_prop.mp (by decide)
  cases blanks with
  | nil => exact ends
  | cons c blanks =>
    intro d first
    cases first
    apply own
    simpa [isJsonBlank, or_assoc] using blank c List.mem_cons_self

theorem Leads.append (first : Leads left before middle) (second : Leads right middle after)
    (ends : EndsToken right) : Leads (left ++ right) before after := by
  obtain ⟨tokens, steps, reads⟩ := first
  obtain ⟨tokens', steps', reads'⟩ := second
  refine ⟨tokens ++ tokens', ?_, fun rest stop => ?_⟩
  · rw [List.foldlM_append, steps]
    exact steps'
  · -- Behind the first text stands the second one, or the rest if that is empty.
    have stop' : EndsToken (right ++ rest) := by
      cases right with
      | nil => exact stop
      | cons c right => exact ends
    rw [List.append_assoc, reads _ stop', reads' _ stop, Option.map_map]
    congr 1
    funext more
    exact (List.append_assoc tokens tokens' more).symm

theorem leads_token {token : Token}
    (reads : ∀ rest, EndsToken rest → readToken? (left ++ rest) = some (token, rest))
    (step : before.step token = some after) : Leads left before after := by
  refine ⟨[token], ?_, fun rest ends => ?_⟩
  · rw [List.foldlM_cons, step]
    rfl
  · rw [tokens?_of_readToken? (reads rest ends)]
    rfl

theorem leads_mark {mark : Char × Token} (member : mark ∈ punctuation)
    (step : before.step mark.2 = some middle) (more : Leads right middle after) :
    Leads (mark.1 :: right) before after := by
  obtain ⟨tokens, steps, reads⟩ := more
  refine ⟨mark.2 :: tokens, ?_, fun rest ends => ?_⟩
  · rw [List.foldlM_cons, step]
    exact steps
  · rw [List.cons_append, tokens?_of_readToken? (readToken?_mark _ member), reads rest ends,
      Option.map_map]
    rfl

theorem leads_blanks {blanks : List Char} (blank : ∀ c ∈ blanks, isJsonBlank c = true)
    (more : Leads right before after) : Leads (blanks ++ right) before after := by
  induction blanks with
  | nil => exact more
  | cons c blanks ih =>
    obtain ⟨first, others⟩ := List.forall_mem_cons.mp blank
    obtain ⟨tokens, steps, reads⟩ := ih others
    refine ⟨tokens, steps, fun rest ends => ?_⟩
    rw [List.cons_append, List.cons_append, tokens?_blank _ first, reads rest ends]

theorem leads_last {mark : Char × Token} (member : mark ∈ punctuation)
    (step : before.step mark.2 = some after) : Leads [mark.1] before after :=
  leads_token (fun rest _ => readToken?_mark rest member) step

/-! ### Containers -/

theorem isJsonBlank_of_mem_lineBreak (layout : Layout) (depth : Nat) :
    ∀ c ∈ layout.lineBreak depth, isJsonBlank c = true := by
  intro c member
  unfold Layout.lineBreak at member
  split at member
  · cases member
  · rcases List.mem_cons.mp member with rfl | space
    · decide
    · rw [List.eq_of_mem_replicate space]
      decide

/-- How the machine goes through a container: its state before a part, behind a part, and behind
the whole, when some parts are done, the last one first. -/
structure Passage (α : Type) where
  opening : Char × Token
  closing : Char × Token
  next : Bool → List α → Machine
  behind : α → List α → Machine
  final : List α → Machine
  opens : opening ∈ punctuation
  closes : closing ∈ punctuation
  comma : ∀ part done, (behind part done).step .comma = some (next false (part :: done))
  close : ∀ part done, (behind part done).step closing.2 = some (final (part :: done))
  empty : (next true []).step closing.2 = some (final [])

namespace Passage

/-- Through a list, among containers that are open. -/
def list (frames : List Frame) : Passage Tree where
  opening := ('[', .openList)
  closing := (']', .closeList)
  next opened done := .value opened (.list done :: frames)
  behind item done := .after item (.list done :: frames)
  final done := .after (.list done.reverse) frames
  opens := by decide
  closes := by decide
  comma _ _ := rfl
  close _ _ := rfl
  empty := rfl

/-- Through an object, among containers that are open. -/
def dict (frames : List Frame) : Passage (Atom × Tree) where
  opening := ('\x7b', .openDict)
  closing := ('\x7d', .closeDict)
  next opened done := .name opened done frames
  behind entry done := .after entry.2 (.dict done entry.1 :: frames)
  final done := .after (Machine.finishDict done) frames
  opens := by decide
  closes := by decide
  comma _ _ := rfl
  close _ _ := rfl
  empty := rfl

variable {α : Type} {Part : α → List Char → Prop} (passage : Passage α)

/-- The parts of a container that is open, one after the other, and its closing mark. -/
theorem leads_parts
    (goes : ∀ part text, Part part text → ∀ opened done,
      Leads text (passage.next opened done) (passage.behind part done))
    {gap gap' : List Char} (blank : ∀ c ∈ gap, isJsonBlank c = true)
    (blank' : ∀ c ∈ gap', isJsonBlank c = true) {parts : List α} {texts : List (List Char)}
    (written : List.Forall₂ Part parts texts) (filled : parts ≠ []) (opened : Bool)
    (done : List α) :
    Leads (List.intercalate (',' :: gap) texts ++ (gap' ++ [passage.closing.1]))
      (passage.next opened done) (passage.final (parts.reverse ++ done)) := by
  induction written generalizing opened done with
  | nil => exact absurd rfl filled
  | @cons part text parts texts first more ih =>
    cases more with
    | nil =>
      -- The last part: the closing mark follows.
      have ends := endsToken_blanks blank' (endsToken_mark [] passage.closes)
      have last := leads_blanks blank' (leads_last passage.closes (passage.close part done))
      rw [List.intercalate_singleton]
      exact (goes part text first opened done).append last ends
    | cons =>
      -- Any other part: a comma follows, and this part is done when the next one begins.
      have separator : (',', Token.comma) ∈ punctuation := by decide
      have rest := ih (List.cons_ne_nil _ _) false (part :: done)
      have after := leads_mark separator (passage.comma part done) (leads_blanks blank rest)
      have both := (goes part text first opened done).append after (endsToken_mark _ separator)
      rw [List.intercalate_cons_cons]
      simpa using both

/-- A whole container, whatever its layout. -/
theorem leads_enclose {before : Machine}
    (start : before.step passage.opening.2 = some (passage.next true []))
    (goes : ∀ part text, Part part text → ∀ opened done,
      Leads text (passage.next opened done) (passage.behind part done))
    (layout : Layout) (depth : Nat) {parts : List α} {texts : List (List Char)}
    (written : List.Forall₂ Part parts texts) :
    Leads (enclose layout depth passage.opening.1 passage.closing.1 texts) before
      (passage.final parts.reverse) := by
  cases written with
  | nil => exact leads_mark passage.opens start (leads_last passage.closes passage.empty)
  | cons first more =>
    -- There may be a line break before the first part and another one behind the last.
    have inside := passage.leads_parts goes (isJsonBlank_of_mem_lineBreak layout (depth + 1))
      (isJsonBlank_of_mem_lineBreak layout depth) (.cons first more) (List.cons_ne_nil _ _) true []
    have whole := leads_mark passage.opens start
      (leads_blanks (isJsonBlank_of_mem_lineBreak layout (depth + 1)) inside)
    simpa [enclose] using whole

end Passage

theorem ascii_of_blank {c : Char} (blank : isJsonBlank c = true) : c.toNat < 0x80 := by
  simp only [isJsonBlank, Bool.or_eq_true, decide_eq_true_eq] at blank
  rcases blank with ((rfl | rfl) | rfl) | rfl <;> decide

theorem ascii_enclose {opening closing : Char} {texts : List (List Char)}
    (opens : opening.toNat < 0x80) (closes : closing.toNat < 0x80)
    (parts : ∀ text ∈ texts, ∀ c ∈ text, c.toNat < 0x80) (layout : Layout) (depth : Nat) :
    ∀ c ∈ enclose layout depth opening closing texts, c.toNat < 0x80 := by
  have lines (depth : Nat) : ∀ c ∈ layout.lineBreak depth, c.toNat < 0x80 :=
    fun c member => ascii_of_blank (isJsonBlank_of_mem_lineBreak layout depth c member)
  unfold enclose
  split
  · simp [opens, closes]
  · have inner := Text.forall_mem_intercalate (P := fun c : Char => c.toNat < 0x80)
      (List.forall_mem_cons.mpr ⟨(by decide : ','.toNat < 0x80), lines (depth + 1)⟩) parts
    simp only [List.forall_mem_append, List.forall_mem_cons]
    exact ⟨⟨⟨⟨opens, lines _⟩, inner⟩, lines _⟩, closes, nofun⟩

/-! ### Values -/

/-- A text in ASCII from which the machine takes a value, wherever a value may stand. -/
structure Written (tree : Tree) (text : List Char) : Prop where
  ascii : ∀ c ∈ text, c.toNat < 0x80
  leads : ∀ opened frames, Leads text (.value opened frames) (.after tree frames)

/-- A text in ASCII from which the machine takes a member of an object. -/
structure WrittenMember (entry : Atom × Tree) (text : List Char) : Prop where
  ascii : ∀ c ∈ text, c.toNat < 0x80
  leads : ∀ opened entries frames,
    Leads text (.name opened entries frames) (.after entry.2 (.dict entries entry.1 :: frames))

theorem written_text (value : String) : Written (.text value) (encodeText value.toList) where
  ascii _ := ascii_of_mem_encodeText
  leads opened frames := by
    refine leads_token (fun rest _ => readToken?_text value.toList rest) ?_
    rw [Machine.step, String.ofList_toList]

theorem written_word {entry : List Char × Atom} (member : entry ∈ words) :
    Written (.atom entry.2) entry.1 where
  ascii := by
    have own : ∀ entry ∈ words, entry.1.all (·.toNat < 0x80) = true := by decide
    exact List.all_iff_forall_prop.mp (own entry member)
  leads opened frames := leads_token (fun _ => readToken?_word member) rfl

theorem written_int (value : Int) : Written (.int value) (toString value).toList where
  ascii := by
    obtain ⟨c, more, shape, start, digits⟩ := chars_toString value
    rw [shape]
    refine List.forall_mem_cons.mpr ⟨?_, fun d member => ?_⟩
    · rcases start with rfl | digit
      · decide
      · have := digit_range digit
        omega
    · have := digit_range (digits d member)
      omega
  leads opened frames := leads_token (fun _ => readToken?_int value) rfl

theorem ascii_of_forall₂ {α : Type} {Part : α → List Char → Prop} {parts : List α}
    {texts : List (List Char)} (own : ∀ part text, Part part text → ∀ c ∈ text, c.toNat < 0x80)
    (written : List.Forall₂ Part parts texts) : ∀ text ∈ texts, ∀ c ∈ text, c.toNat < 0x80 := by
  induction written with
  | nil => nofun
  | cons first more ih => exact List.forall_mem_cons.mpr ⟨own _ _ first, ih⟩

theorem written_list {items : List Tree} {texts : List (List Char)}
    (written : List.Forall₂ Written items texts) (layout : Layout) (depth : Nat) :
    Written (.list items) (enclose layout depth '[' ']' texts) where
  ascii := ascii_enclose (by decide) (by decide)
    (ascii_of_forall₂ (fun _ _ own => own.ascii) written) layout depth
  leads opened frames := by
    have start : (Machine.value opened frames).step .openList =
      some ((Passage.list frames).next true []) := rfl
    have whole := (Passage.list frames).leads_enclose start
      (fun item text own opened done => own.leads opened _) layout depth written
    simpa [Passage.list] using whole

/-- An object whose names differ is read as it was written. -/
theorem written_dict {entries : Entries Tree} {texts : List (List Char)}
    (distinct : entries.Distinct) (written : List.Forall₂ WrittenMember entries texts)
    (layout : Layout) (depth : Nat) :
    Written (.dict entries) (enclose layout depth '\x7b' '\x7d' texts) where
  ascii := ascii_enclose (by decide) (by decide)
    (ascii_of_forall₂ (fun _ _ own => own.ascii) written) layout depth
  leads opened frames := by
    have start : (Machine.value opened frames).step .openDict =
      some ((Passage.dict frames).next true []) := rfl
    have whole := (Passage.dict frames).leads_enclose start
      (fun entry text own opened done => own.leads opened done frames) layout depth written
    -- The machine puts the members into a dictionary again, which changes nothing here.
    simpa [Passage.dict, Machine.finishDict, Entries.ofPairs_of_distinct distinct] using whole

/-- What stands between the name and the value of a member: a colon and blanks. -/
def Layout.Separates (layout : Layout) : Prop :=
  ∃ blanks, layout.afterKey = ':' :: blanks ∧ ∀ c ∈ blanks, isJsonBlank c = true

theorem compact_separates : compact.Separates := ⟨[], rfl, nofun⟩

theorem indented_separates : indented.Separates :=
  ⟨[' '], rfl, List.forall_mem_singleton.mpr rfl⟩

theorem written_member {layout : Layout} {tree : Tree} {text : List Char} (name : String)
    (separates : layout.Separates) (written : Written tree text) :
    WrittenMember (.text name, tree) (encodeText name.toList ++ layout.afterKey ++ text) := by
  obtain ⟨blanks, shape, blank⟩ := separates
  have mark : (':', Token.colon) ∈ punctuation := by decide
  rw [shape, List.append_assoc, List.cons_append]
  constructor
  · rw [List.forall_mem_append, List.forall_mem_cons, List.forall_mem_append]
    exact ⟨fun _ => ascii_of_mem_encodeText, by decide,
      fun c member => ascii_of_blank (blank c member), written.ascii⟩
  · intro opened entries frames
    have own : (Machine.name opened entries frames).step (.text name.toList) =
        some (.colon entries (.text name) frames) := by
      rw [Machine.step, String.ofList_toList]
    -- The name ends by itself, and blanks behind the colon are passed over.
    have key := leads_token (fun rest _ => readToken?_text name.toList rest) own
    have next : (Machine.colon entries (.text name) frames).step .colon =
        some (.value false (.dict entries (.text name) :: frames)) := rfl
    have value := leads_mark mark next (leads_blanks blank (written.leads false _))
    exact key.append value (endsToken_mark _ mark)

end Routebook.Json
