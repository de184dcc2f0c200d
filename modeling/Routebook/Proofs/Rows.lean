import Routebook.Proofs.Lines
import Routebook.Table.Entry

/-!
# Rows

A row of a table is blank, a comment, or a declaration: a template, perhaps a component and further
words, with blanks around and between them, and perhaps a comment, which may stand right behind a
word. What is written row by row is read back: the declarations in their order, each with the number
of its row.
-/
namespace Routebook

namespace Text

variable {c : Char} {blanks word rest : List Char}

theorem words_cons_of_blank (blank : isBlank c = true) (rest : List Char) :
    words (c :: rest) = words rest := by
  rw [words, scanWords]
  simp only [blank, if_true, pushWord]
  rfl

theorem words_append_of_blanks (blank : ∀ c ∈ blanks, isBlank c = true) (rest : List Char) :
    words (blanks ++ rest) = words rest := by
  induction blanks with
  | nil => rfl
  | cons c blanks ih =>
    obtain ⟨first, blank⟩ := List.forall_mem_cons.mp blank
    rw [List.cons_append, words_cons_of_blank first, ih blank]

/-- The word in front is kept open for the characters to its left. -/
theorem scanWords_append_of_word (solid : ∀ c ∈ word, isBlank c = false) (rest : List Char) :
    scanWords (word ++ rest) = (word ++ (scanWords rest).1, (scanWords rest).2) := by
  induction word with
  | nil => rfl
  | cons c word ih =>
    obtain ⟨first, solid⟩ := List.forall_mem_cons.mp solid
    rw [List.cons_append, scanWords, ih solid]
    simp [first]

theorem scanWords_of_ended (ended : ∀ c ∈ rest.head?, isBlank c = true) :
    scanWords rest = ([], words rest) := by
  cases rest with
  | nil => rfl
  | cons c rest =>
    have blank : isBlank c = true := ended c rfl
    rw [words_cons_of_blank blank, scanWords]
    simp only [blank, if_true]
    rfl

/-- Whatever ends a line is a blank. -/
theorem isBlank_of_isBoundary (ends : isBoundary c = true) : isBlank c = true := by
  simp only [isBoundary, boundaryRanges, isBlank, blankRanges, inRanges, Bool.and_eq_true,
    Bool.or_eq_true, decide_eq_true_eq, Bool.or_false] at *
  omega

/-- A word ends at the first blank behind it. -/
theorem words_append_of_word (filled : word ≠ []) (solid : ∀ c ∈ word, isBlank c = false)
    (ended : ∀ c ∈ rest.head?, isBlank c = true) : words (word ++ rest) = word :: words rest := by
  rw [words, scanWords_append_of_word solid, scanWords_of_ended ended, List.append_nil]
  cases word with
  | nil => exact absurd rfl filled
  | cons c word => rfl

end Text

namespace Table

/-- A character that the words of a declaration can have. -/
def isSolid (c : Char) : Bool := !Text.isBlank c && c ≠ commentSign

/-! ### The words of a line -/

section Words

variable {c : Char} {blanks word rest : List Char}

theorem isSolid_iff : isSolid c = true ↔ Text.isBlank c = false ∧ c ≠ commentSign := by
  simp [isSolid]

theorem ne_commentSign_of_blank (blank : Text.isBlank c = true) : c ≠ commentSign := by
  rintro rfl
  exact absurd blank (by decide)

theorem declaredWords_append_of_blanks (blank : ∀ c ∈ blanks, Text.isBlank c = true)
    (rest : List Char) : declaredWords (blanks ++ rest) = declaredWords rest := by
  rw [declaredWords, List.takeWhile_append_of_pos, Text.words_append_of_blanks blank, declaredWords]
  intro c member
  simpa using ne_commentSign_of_blank (blank c member)

theorem declaredWords_commentSign (rest : List Char) :
    declaredWords (commentSign :: rest) = [] := by
  rw [declaredWords, List.takeWhile_cons_of_neg (by simp)]
  rfl

/-- A word of a declaration ends at a blank or at a comment. -/
theorem declaredWords_append_of_word (filled : word ≠ []) (solid : ∀ c ∈ word, isSolid c = true)
    (ended : ∀ c ∈ rest.head?, isSolid c = false) :
    declaredWords (word ++ rest) = word :: declaredWords rest := by
  have plain : ∀ c ∈ word, Text.isBlank c = false :=
    fun c member => (isSolid_iff.mp (solid c member)).1
  rw [declaredWords, List.takeWhile_append_of_pos, Text.words_append_of_word filled plain,
    declaredWords]
  · intro c first
    -- What is left in front of a comment begins as the rest does, unless the comment begins there.
    cases rest with
    | nil => cases first
    | cons d rest =>
      have stop : isSolid d = false := ended d rfl
      by_cases sign : d = commentSign
      · simp [sign] at first
      · rw [List.takeWhile_cons_of_pos (by simpa using sign)] at first
        cases first
        simpa [isSolid, sign] using stop
  · intro c member
    simpa using (isSolid_iff.mp (solid c member)).2

end Words

/-! ### Rows -/

/-- Blanks of a line, none of which ends it. -/
structure Blanks where
  text : List Char
  blank : ∀ c ∈ text, Text.isBlank c = true
  inside : ∀ c ∈ text, Text.isBoundary c = false

structure Word where
  text : List Char
  filled : text ≠ []
  solid : ∀ c ∈ text, isSolid c = true

/-- What stands behind a comment sign on its line, perhaps further comment signs. -/
structure Remark where
  text : List Char
  inside : ∀ c ∈ text, Text.isBoundary c = false

/-- A word, and at least one blank between it and the word before. -/
structure Addition where
  gap : Blanks
  parted : gap.text ≠ []
  word : Word

inductive Row where
  | blank (blanks : Blanks)
  | comment (lead : Blanks) (remark : Remark)
  | declaration (lead : Blanks) (template : Word) (more : List Addition) (trail : Blanks)
    (remark : Option Remark)

def Remark.written (remark : Remark) : List Char := commentSign :: remark.text

def Addition.written (addition : Addition) : List Char := addition.gap.text ++ addition.word.text

namespace Row

/-- What stands behind the template of a declaration. -/
def additions (more : List Addition) (trail : Blanks) (remark : Option Remark) : List Char :=
  more.flatMap Addition.written ++ (trail.text ++ (remark.map Remark.written).getD [])

def written : Row → List Char
  | .blank blanks => blanks.text
  | .comment lead remark => lead.text ++ remark.written
  | .declaration lead template more trail remark =>
    lead.text ++ (template.text ++ additions more trail remark)

/-- The declaration of a row: the first word behind the template is the component. -/
def declared? (number : Int) : Row → Option (Entry Int)
  | .declaration _ template more _ _ =>
    some ⟨number, String.ofList template.text,
      more.head?.map fun addition => String.ofList addition.word.text⟩
  | _ => none

end Row

/-- Rows with line feeds between them, and perhaps a last one behind them. -/
def written (rows : List Row) (ended : Bool) : String :=
  String.ofList (List.intercalate ['\n'] (rows.map Row.written) ++ if ended then ['\n'] else [])

/-! ### What rows declare -/

theorem isBoundary_of_isSolid {c : Char} (solid : isSolid c = true) :
    Text.isBoundary c = false := by
  have plain := (isSolid_iff.mp solid).1
  cases ends : Text.isBoundary c with
  | false => rfl
  | true => rw [Text.isBlank_of_isBoundary ends] at plain; cases plain

/-- No row ends within itself. -/
theorem Row.isBoundary_of_mem_written (row : Row) :
    ∀ c ∈ row.written, Text.isBoundary c = false := by
  have remarked (remark : Remark) : ∀ c ∈ remark.written, Text.isBoundary c = false :=
    List.forall_mem_cons.mpr ⟨by decide, remark.inside⟩
  have worded (word : Word) : ∀ c ∈ word.text, Text.isBoundary c = false :=
    fun c member => isBoundary_of_isSolid (word.solid c member)
  cases row with
  | blank blanks => exact blanks.inside
  | comment lead remark => exact List.forall_mem_append.mpr ⟨lead.inside, remarked remark⟩
  | declaration lead template more trail remark =>
    refine List.forall_mem_append.mpr ⟨lead.inside, List.forall_mem_append.mpr
      ⟨worded template, List.forall_mem_append.mpr ⟨?_, List.forall_mem_append.mpr
        ⟨trail.inside, ?_⟩⟩⟩⟩
    · intro c member
      obtain ⟨addition, -, inside⟩ := List.mem_flatMap.mp member
      rcases List.mem_append.mp inside with gap | word
      · exact addition.gap.inside c gap
      · exact worded addition.word c word
    · cases remark with
      | none => nofun
      | some remark => exact remarked remark

/-- Blanks end the word in front of them, and so does what may follow a word without blanks. -/
theorem not_isSolid_head_append {blanks rest : List Char}
    (blank : ∀ c ∈ blanks, Text.isBlank c = true)
    (ended : blanks = [] → ∀ c ∈ rest.head?, isSolid c = false) :
    ∀ c ∈ (blanks ++ rest).head?, isSolid c = false := by
  cases blanks with
  | nil => exact ended rfl
  | cons d blanks =>
    rintro c ⟨⟩
    simp [isSolid, blank d List.mem_cons_self]

namespace Row

theorem not_isSolid_head_additions (more : List Addition) (trail : Blanks)
    (remark : Option Remark) : ∀ c ∈ (additions more trail remark).head?, isSolid c = false := by
  cases more with
  | nil =>
    apply not_isSolid_head_append trail.blank
    intro _
    cases remark with
    | none => nofun
    | some remark =>
      rintro c ⟨⟩
      decide
  | cons addition more =>
    rw [additions, List.flatMap_cons, Addition.written, List.append_assoc, List.append_assoc]
    exact not_isSolid_head_append addition.gap.blank fun empty => absurd empty addition.parted

theorem declaredWords_additions (more : List Addition) (trail : Blanks) (remark : Option Remark) :
    declaredWords (additions more trail remark) = more.map fun addition => addition.word.text := by
  induction more with
  | nil =>
    rw [additions, List.flatMap_nil, List.nil_append, declaredWords_append_of_blanks trail.blank]
    cases remark with
    | none => rfl
    | some remark => exact declaredWords_commentSign remark.text
  | cons addition more ih =>
    have split : additions (addition :: more) trail remark =
        addition.gap.text ++ (addition.word.text ++ additions more trail remark) := by
      simp [additions, Addition.written]
    rw [split, declaredWords_append_of_blanks addition.gap.blank,
      declaredWords_append_of_word addition.word.filled addition.word.solid
        (not_isSolid_head_additions more trail remark), ih, List.map_cons]

/-- A row declares what is written in it. -/
theorem ofLine?_written (row : Row) (number : Int) :
    Entry.ofLine? number row.written = row.declared? number := by
  cases row with
  | blank blanks =>
    have none : declaredWords (blanks.text ++ []) = [] :=
      declaredWords_append_of_blanks blanks.blank []
    rw [List.append_nil] at none
    rw [Entry.ofLine?, written, none, declared?]
    nofun
  | comment lead remark =>
    rw [Entry.ofLine?, written, declaredWords_append_of_blanks lead.blank, Remark.written,
      declaredWords_commentSign, declared?]
    nofun
  | declaration lead template more trail remark =>
    rw [Entry.ofLine?, written, declaredWords_append_of_blanks lead.blank,
      declaredWords_append_of_word template.filled template.solid
        (not_isSolid_head_additions more trail remark), declaredWords_additions, declared?]
    dsimp only
    rw [List.head?_map, Option.map_map]
    rfl

end Row

/-! ### Tables of rows -/

theorem entriesFrom_eq (number : Nat) (lines : List (List Char)) :
    entriesFrom number lines =
      (lines.zipIdx number).filterMap fun placed => Entry.ofLine? placed.2 placed.1 := by
  induction lines generalizing number with
  | nil => rfl
  | cons line rest ih =>
    rw [entriesFrom, List.zipIdx_cons, List.filterMap_cons, ← Int.natCast_succ, ih]
    cases Entry.ofLine? number line <;> rfl

/-- A last line without characters declares nothing. -/
theorem entriesFrom_append_empty (number : Int) (lines : List (List Char)) :
    entriesFrom number (lines ++ [[]]) = entriesFrom number lines := by
  induction lines generalizing number with
  | nil => rfl
  | cons line rest ih => rw [List.cons_append, entriesFrom, entriesFrom, ih]

/-- Joined lines declare what they declare themselves, since none is lost that does. -/
theorem entriesFrom_lines_intercalate {lines : List (List Char)}
    (plain : ∀ line ∈ lines, ∀ c ∈ line, Text.isBoundary c = false) (number : Int) :
    entriesFrom number (Text.lines (List.intercalate ['\n'] lines)) =
      entriesFrom number lines := by
  rcases Text.lines_intercalate plain with same | lost
  · rw [same]
  · rw [← entriesFrom_append_empty, lost]

theorem read_written_eq (rows : List Row) (ended : Bool) :
    read (written rows ended) = entriesFrom 1 (rows.map Row.written) := by
  have plain : ∀ line ∈ rows.map Row.written, ∀ c ∈ line, Text.isBoundary c = false := by
    intro line member
    obtain ⟨row, -, rfl⟩ := List.mem_map.mp member
    exact row.isBoundary_of_mem_written
  rw [read, written, String.toList_ofList]
  cases ended with
  | false =>
    rw [if_neg (by decide), List.append_nil, entriesFrom_lines_intercalate plain]
  | true =>
    rw [if_pos rfl]
    cases rows with
    | nil => rfl
    | cons row rows => rw [Text.lines_intercalate_ended (by simp) plain]

/-- A table that is written row by row is read back: its declarations in their order, with their
templates and components, each with the number of its row. -/
theorem read_written (rows : List Row) (ended : Bool) :
    read (written rows ended) =
      (rows.zipIdx 1).filterMap fun placed => placed.1.declared? placed.2 := by
  have own : (fun placed : Row × Nat => Entry.ofLine? placed.2 placed.1.written) =
      fun placed => placed.1.declared? placed.2 :=
    funext fun placed => placed.1.ofLine?_written placed.2
  have numbered := entriesFrom_eq 1 (rows.map Row.written)
  rw [List.zipIdx_map, List.filterMap_map] at numbered
  rw [read_written_eq, ← own]
  exact numbered

/-! ### A table of four rows -/

def Blanks.ofText (text : String)
    (fit : text.toList.all (fun c => Text.isBlank c && !Text.isBoundary c) = true) : Blanks where
  text := text.toList
  blank c member := (Bool.and_eq_true_iff.mp (List.all_eq_true.mp fit c member)).1
  inside c member := by simpa using (Bool.and_eq_true_iff.mp (List.all_eq_true.mp fit c member)).2

def Word.ofText (text : String) (filled : text.toList ≠ [])
    (fit : text.toList.all isSolid = true) : Word :=
  ⟨text.toList, filled, List.all_eq_true.mp fit⟩

def Remark.ofText (text : String) (fit : text.toList.all (!Text.isBoundary ·) = true) : Remark where
  text := text.toList
  inside c member := by simpa using List.all_eq_true.mp fit c member

/-- Comments right behind a word and with more signs in them, further words, and a row of blanks. -/
def mixedRows : List Row :=
  let empty := Blanks.ofText "" (by decide)
  [.declaration (.ofText "\t" (by decide)) (.ofText "/a" (by decide) (by decide)) [] empty
      (some (.ofText "x" (by decide))),
    .blank (.ofText " \x1f" (by decide)),
    .comment empty (.ofText " y" (by decide)),
    .declaration empty (.ofText "/b" (by decide) (by decide))
      [⟨.ofText "\t " (by decide), by decide, .ofText "B" (by decide) (by decide)⟩,
        ⟨.ofText "  " (by decide), by decide, .ofText "c" (by decide) (by decide)⟩]
      (.ofText " " (by decide)) (some (.ofText " z # w" (by decide)))]

theorem read_written_mixed :
    written mixedRows true = "\t/a#x\n \x1f\n# y\n/b\t B  c # z # w\n" ∧
      read "\t/a#x\n \x1f\n# y\n/b\t B  c # z # w\n" =
        [⟨1, "/a", none⟩, ⟨4, "/b", some "B"⟩] := by
  have text : written mixedRows true = "\t/a#x\n \x1f\n# y\n/b\t B  c # z # w\n" := by decide
  have entries := read_written mixedRows true
  rw [text] at entries
  exact ⟨text, entries.trans (by decide)⟩

end Table

end Routebook
