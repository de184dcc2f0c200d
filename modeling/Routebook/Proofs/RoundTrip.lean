import Routebook.Page
import Routebook.Proofs.Reading

/-!
# Round trip of pages

A page whose props are plain data is sent as JSON and comes back. Writing cannot fail on plain
data, what is written is ASCII and read as the same tree, and the response that it is makes the
same page under the version of whoever reads it.
-/
namespace Routebook

/-- Null, truth values, whole numbers, texts, and lists of such data and dictionaries of them under
names that differ. -/
inductive Tree.IsPlain : Tree → Prop where
  | null : IsPlain .null
  | bool (value : Bool) : IsPlain (.bool value)
  | int (value : Int) : IsPlain (.int value)
  | text (value : String) : IsPlain (.text value)
  | list {items : List Tree} (parts : ∀ item ∈ items, IsPlain item) : IsPlain (.list items)
  | record {fields : List (String × Tree)} (unique : (fields.map Prod.fst).Nodup)
      (parts : ∀ field ∈ fields, IsPlain field.2) : IsPlain (.record fields)

namespace Json

/-- The tree is written, and so that it can be read back. -/
def Writes (layout : Layout) (depth : Nat) (tree : Tree) : Prop :=
  ∃ text, render layout depth tree = .ok text ∧ Written tree text

variable {layout : Layout} {depth : Nat}

theorem renderItems_ok {items : List Tree} (parts : ∀ item ∈ items, Writes layout depth item) :
    ∃ texts, renderItems layout depth items = .ok texts ∧ List.Forall₂ Written items texts := by
  induction items with
  | nil => exact ⟨[], rfl, .nil⟩
  | cons item items ih =>
    obtain ⟨⟨text, rendered, written⟩, parts⟩ := List.forall_mem_cons.mp parts
    obtain ⟨texts, rest, more⟩ := ih parts
    refine ⟨text :: texts, ?_, .cons written more⟩
    rw [renderItems, rendered, rest]
    rfl

theorem renderEntries_ok (separates : layout.Separates) {fields : List (String × Tree)}
    (parts : ∀ field ∈ fields, Writes layout depth field.2) :
    ∃ texts, renderEntries layout depth (Entries.texts fields) = .ok texts ∧
      List.Forall₂ WrittenMember (Entries.texts fields) texts := by
  induction fields with
  | nil => exact ⟨[], rfl, .nil⟩
  | cons field fields ih =>
    obtain ⟨⟨text, rendered, written⟩, parts⟩ := List.forall_mem_cons.mp parts
    obtain ⟨texts, rest, more⟩ := ih parts
    refine ⟨_ :: texts, ?_, .cons (written_member field.1 separates written) more⟩
    -- A name is a text, which is written without fail.
    rw [Entries.texts, List.map_cons, renderEntries, rendered]
    change (do return _ :: (← renderEntries layout depth (Entries.texts fields))) = _
    rw [rest]
    rfl

/-- Plain data is written in every layout, at every depth. -/
theorem writes_of_isPlain (separates : layout.Separates) {tree : Tree} (plain : tree.IsPlain)
    (depth : Nat) : Writes layout depth tree := by
  have word : ∀ entry ∈ words, Written (.atom entry.2) entry.1 := fun _ => written_word
  -- Parts are written one level deeper than the whole.
  induction plain generalizing depth with
  | null => exact ⟨_, rfl, word ("null".toList, .null) (by decide)⟩
  | bool value =>
    cases value with
    | false => exact ⟨_, rfl, word ("false".toList, .bool false) (by decide)⟩
    | true => exact ⟨_, rfl, word ("true".toList, .bool true) (by decide)⟩
  | int value => exact ⟨_, rfl, written_int value⟩
  | text value => exact ⟨_, rfl, written_text value⟩
  | list parts ih =>
    obtain ⟨texts, rendered, written⟩ := renderItems_ok fun item own => ih item own (depth + 1)
    refine ⟨_, ?_, written_list written layout depth⟩
    rw [render, rendered]
    rfl
  | record unique parts ih =>
    obtain ⟨texts, rendered, written⟩ :=
      renderEntries_ok separates fun field own => ih field own (depth + 1)
    refine ⟨_, ?_, written_dict (Entries.distinct_texts unique) written layout depth⟩
    rw [Tree.record, render]
    change (do return enclose _ _ _ _ (← renderEntries layout (depth + 1) (Entries.texts _))) = _
    rw [rendered]
    rfl

/-- A written tree is read back, and blanks behind it do no harm. -/
theorem read?_of_written_append {tree : Tree} {text blanks : List Char}
    (written : Written tree text) (blank : ∀ c ∈ blanks, isJsonBlank c = true) :
    read? (String.ofList (text ++ blanks)) = some tree := by
  obtain ⟨tokens, steps, reads⟩ := written.leads false []
  have ends : EndsToken blanks := by
    have none : EndsToken [] := nofun
    have passed := endsToken_blanks blank none
    rwa [List.append_nil] at passed
  -- No token follows the text, so its own tokens are all.
  have finished : tokens? blanks = some [] := by
    clear ends
    induction blanks with
    | nil =>
      rw [tokens?]
      rfl
    | cons c blanks ih =>
      obtain ⟨first, more⟩ := List.forall_mem_cons.mp blank
      rw [tokens?_blank blanks first, ih more]
  have found := reads blanks ends
  rw [finished, Option.map_some, List.append_nil] at found
  rw [read?, String.toList_ofList, found, Option.bind_eq_bind, Option.bind_some, steps]
  rfl

theorem read?_of_written {tree : Tree} {text : List Char} (written : Written tree text) :
    read? (String.ofList text) = some tree := by
  have none : ∀ c ∈ ([] : List Char), isJsonBlank c = true := nofun
  have found := read?_of_written_append written none
  rwa [List.append_nil] at found

end Json

namespace Page

/-- The dictionary of a page is the response that says the same, but for the version. -/
theorem ofResponse_record (config : Config Tree) (component url version : String)
    (props : List (String × Tree)) :
    ofResponse config (.record (Page.fields
        ⟨.text component, .record props, .text url, .text version⟩)) =
      .ok ⟨.text component, .record props, .text url, config.version⟩ := by
  cases props with
  | nil => rfl
  | cons field props => rfl

end Page

end Routebook
