import Mathlib.Data.List.DropRight
import Routebook.Proofs.Schemes

/-!
# Directories

The path of a file location is meant to be relative to the directory of the base. What is taken
away is the path of the base without the name of the entry document at its end, and that is its
directory only if the base names the entry document or no document at all.
-/
namespace Routebook

namespace Text

theorem dropTrailing_append (text tail : List Char) : dropTrailing tail (text ++ tail) = text := by
  simp [dropTrailing]

/-- A text is what `dropTrailing` leaves of it and what it takes away. -/
theorem dropTrailing_cases (tail text : List Char) :
    dropTrailing tail text ++ tail = text ∨ (dropTrailing tail text = text ∧ ¬tail <:+ text) := by
  by_cases ends : tail <:+ text
  · obtain ⟨lead, rfl⟩ := ends
    rw [dropTrailing_append]
    exact Or.inl rfl
  · exact Or.inr ⟨dropTrailing_of_not_suffix (Or.inr ends), ends⟩

theorem dropTrailing_prefix (tail text : List Char) : dropTrailing tail text <+: text := by
  rcases dropTrailing_cases tail text with whole | ⟨same, -⟩
  · exact ⟨tail, whole⟩
  · exact ⟨[], by rw [List.append_nil, same]⟩

theorem dropLeading_append (lead rest : List Char) : dropLeading lead (lead ++ rest) = rest := by
  simp [dropLeading]

theorem dropLeading_of_eq {lead rest text : List Char} (whole : lead ++ rest = text) :
    dropLeading lead text = rest := by
  rw [← whole, dropLeading_append]

theorem dropLeading_of_not_prefix {lead text : List Char} (other : ¬lead <+: text) :
    dropLeading lead text = text := by
  rw [dropLeading, if_neg (by rwa [List.isPrefixOf_iff_prefix])]

end Text

namespace Url

/-- The path in front of a query or fragment is absolute if it begins where an authority ends. -/
theorem beforeQuery_absolute {text : List Char} (ended : ∀ c ∈ text.head?, endsAuthority c = true) :
    ∀ c ∈ (beforeQuery text).head?, c = '/' := by
  cases text with
  | nil => exact nofun
  | cons c text =>
    have first := ended c rfl
    simp only [endsAuthority, Bool.or_eq_true, decide_eq_true_eq] at first
    rcases first with (rfl | rfl) | rfl <;> simp [beforeQuery, Text.cutAt]

/-- What an address with two slashes is split into has the scheme of a file and an absolute path. -/
theorem split_file_absolute {rest : String} {parts : Parts}
    (accepted : split ("file://" ++ rest).toList = .ok parts) :
    parts.scheme = "file".toList ∧ ∀ c ∈ parts.path.head?, c = '/' := by
  have cleaned : clean ("file://" ++ rest).toList =
      "file:".toList ++ ('/' :: '/' :: rest.toList.filter (!isDropped ·)) := by
    rw [String.toList_append]
    rfl
  rcases split_cases ("file://" ++ rest).toList with ⟨-, split⟩ | ⟨-, cause, split⟩
  · rw [accepted, cleaned] at split
    cases split
    refine ⟨rfl, beforeQuery_absolute ?_⟩
    intro c first
    have stop := List.head?_dropWhile_not (!endsAuthority ·) (rest.toList.filter (!isDropped ·))
    change (List.dropWhile _ _).head? = some c at first
    rw [first] at stop
    simpa using stop
  · rw [accepted] at split
    cases split

end Url

namespace Location

open Text (dropLeading dropTrailing)
open Text.Percent (decode)

/-- A path up to its last slash, and with it. -/
def directory (path : List Char) : List Char := path.rdropWhile (· ≠ '/')

/-- What follows the last slash of a path. -/
def document (path : List Char) : List Char := path.rtakeWhile (· ≠ '/')

theorem directory_append_document (path : List Char) : directory path ++ document path = path :=
  List.rdropWhile_append_rtakeWhile

theorem slash_not_mem_document (path : List Char) : '/' ∉ document path := by
  intro member
  simpa using List.mem_rtakeWhile_imp member

/-- An entry document has no slash in its name: what is left of a base is its directory exactly if
the base ends with no document or with that one. -/
theorem dropTrailing_eq_directory_iff {index path : List Char} (name : '/' ∉ index) :
    dropTrailing index path = directory path ↔ document path = [] ∨ document path = index := by
  have whole := directory_append_document path
  constructor
  · intro same
    -- What stands behind the directory is the entry document, or nothing if nothing was taken away.
    rcases Text.dropTrailing_cases index path with rest | ⟨kept, -⟩
    · rw [same] at rest
      exact Or.inr (List.append_cancel_left (whole.trans rest.symm))
    · rw [same] at kept
      exact Or.inl (List.append_right_eq_self.mp (whole.trans kept.symm))
  · rintro (none | entry)
    · rw [none, List.append_nil] at whole
      rw [whole]
      apply Text.dropTrailing_of_not_suffix
      by_cases empty : index = []
      · exact Or.inl empty
      · refine Or.inr fun ends => name ?_
        -- A path without a document ends with a slash.
        have last := List.rdropWhile_eq_self_iff.mp whole (ends.ne_nil empty)
        have slash : index.getLast empty = '/' := by
          rw [ends.getLast empty]
          simpa using last
        exact slash ▸ List.getLast_mem empty
    · rw [entry] at whole
      rw [← whole, Text.dropTrailing_append, whole]

/-- Some letter is not the last of a text. -/
theorem exists_other_letter (text : List Char) : ∃ c, c ≠ '/' ∧ text.getLast? ≠ some c := by
  by_cases last : text.getLast? = some 'a'
  · exact ⟨'b', by decide, by rw [last]; decide⟩
  · exact ⟨'a', by decide, last⟩

/-- A path that ends with another letter than the entry document loses its leading slashes only. -/
theorem settle_append_letter {index : List Char} {c : Char} (letter : c ≠ '/')
    (last : index.getLast? ≠ some c) (path : List Char) :
    settle index (path ++ [c]) = '/' :: (path.dropWhile (· = '/') ++ [c]) := by
  -- The entry document would have to end with the letter too.
  have kept : index = [] ∨ ¬index <:+ path ++ [c] := by
    by_cases empty : index = []
    · exact Or.inl empty
    · refine Or.inr fun ends => last ?_
      have same := ends.getLast empty
      rw [List.getLast_append_singleton] at same
      rw [List.getLast?_eq_getLast_of_ne_nil empty, same]
  rw [settle, Text.dropTrailing_of_not_suffix kept, List.dropWhile_append]
  split
  next slashes => simp [letter, List.isEmpty_iff.mp slashes]
  · rfl

theorem forall_slash_of_settle_eq {index path : List Char} {c : Char} (letter : c ≠ '/')
    (last : index.getLast? ≠ some c) (same : settle index (path ++ [c]) = settle index [c]) :
    ∀ d ∈ path, d = '/' := by
  have alone := settle_append_letter letter last []
  rw [List.nil_append] at alone
  rw [settle_append_letter letter last, alone] at same
  have empty : path.dropWhile (· = '/') = [] := by simpa using same
  simpa using List.dropWhile_eq_nil_iff.mp empty

/-- If it never matters which of two texts is taken away from the front of an absolute path, then
they are the same or consist of slashes. -/
theorem eq_or_slashes_of_agreement {index lead more : List Char}
    (absolute : (lead ++ more).head? = some '/')
    (agree : ∀ rest, settle index (dropLeading lead ('/' :: rest)) =
      settle index (dropLeading (lead ++ more) ('/' :: rest))) :
    more = [] ∨ ∀ c ∈ lead ++ more, c = '/' := by
  obtain ⟨c, letter, last⟩ := exists_other_letter index
  obtain ⟨whole, shape⟩ := List.head?_eq_some_iff.mp absolute
  by_cases empty : more = []
  · exact Or.inl empty
  -- The longer text with a letter behind it: what the two differ in is lost.
  have later : ∀ d ∈ more, d = '/' := by
    have same := agree (whole ++ [c])
    rw [← List.cons_append, ← shape, Text.dropLeading_append, List.append_assoc,
      Text.dropLeading_append] at same
    exact forall_slash_of_settle_eq letter last same
  -- The shorter text with a letter behind it, of which the longer one is no part.
  have sooner : ∀ d ∈ lead, d = '/' := by
    cases lead with
    | nil => simp
    | cons first lead =>
      obtain ⟨rfl, rfl⟩ := List.cons.inj shape
      have other : ¬ '/' :: lead ++ more <+: '/' :: lead ++ [c] := by
        rw [List.prefix_append_right_inj]
        intro starts
        obtain ⟨d, own⟩ := List.exists_mem_of_ne_nil more empty
        have same : d = c := by simpa using starts.subset own
        exact letter (same ▸ later d own)
      have same := agree (lead ++ [c])
      rw [← List.cons_append, Text.dropLeading_append, Text.dropLeading_of_not_prefix other] at same
      exact forall_slash_of_settle_eq letter last same.symm
  exact Or.inr (List.forall_mem_append.mpr ⟨sooner, later⟩)

theorem directory_head {root : List Char} (absolute : root.head? = some '/') :
    (directory root).head? = some '/' := by
  have whole := directory_append_document root
  cases front : directory root with
  | nil =>
    -- Without a directory there is no slash, not even the first one.
    have free := List.rdropWhile_eq_nil_iff.mp front
    simpa using free '/' (List.mem_of_head? absolute)
  | cons c rest =>
    rw [front] at whole
    rw [← whole] at absolute
    exact absolute

/-- A name that is taken away whole, since it ends with the entry document, leaves no path. -/
theorem eq_nil_of_settle_eq {index more name : List Char} (whole : more ++ name = index)
    (longer : more ≠ []) (free : '/' ∉ name) (same : settle index index = settle index name) :
    name = [] := by
  have all : settle index index = ['/'] := by
    rw [settle]
    have none := Text.dropTrailing_append [] index
    rw [List.nil_append] at none
    rw [none]
    rfl
  -- The name is shorter than the entry document and cannot end with it.
  have kept : index = [] ∨ ¬index <:+ name := by
    refine Or.inr fun ends => longer ?_
    have bound := ends.length_le
    rw [← whole, List.length_append] at bound
    exact List.eq_nil_of_length_eq_zero (by omega)
  rw [all, settle, Text.dropTrailing_of_not_suffix kept] at same
  cases name with
  | nil => rfl
  | cons c name =>
    have other : c ≠ '/' := fun slash => free (slash ▸ List.mem_cons_self)
    simp [other] at same

/-- If what is left of an absolute base serves like its directory for every path, then it is its
directory, or there are only slashes. -/
theorem dropTrailing_or_slashes {index root : List Char} (absolute : root.head? = some '/')
    (agree : ∀ rest, settle index (dropLeading (dropTrailing index root) ('/' :: rest)) =
      settle index (dropLeading (directory root) ('/' :: rest))) :
    dropTrailing index root = directory root ∨ ∀ c ∈ root ++ index, c = '/' := by
  have whole := directory_append_document root
  have front := directory_head absolute
  rcases List.prefix_or_prefix_of_prefix (Text.dropTrailing_prefix index root)
    ⟨document root, whole⟩ with ⟨more, less⟩ | ⟨more, less⟩
  · -- Less than the directory is taken away: the entry document has a slash.
    by_cases same : more = []
    · rw [same, List.append_nil] at less
      exact Or.inl less
    rw [← less] at agree front
    have slashes := (eq_or_slashes_of_agreement front agree).resolve_left same
    rcases Text.dropTrailing_cases index root with entry | ⟨kept, -⟩
    · have split : more ++ document root = index := by
        rw [← less, List.append_assoc] at whole
        exact List.append_cancel_left (whole.trans entry.symm)
      have name : document root = [] := by
        -- The path of the base itself keeps its document only if its directory is taken away.
        obtain ⟨rest, shape⟩ := List.head?_eq_some_iff.mp absolute
        have base := agree rest
        rw [← shape, less, Text.dropLeading_of_eq entry, Text.dropLeading_of_eq whole] at base
        exact eq_nil_of_settle_eq split same (slash_not_mem_document root) base
      rw [name, List.append_nil] at split whole
      rw [less, whole] at slashes
      refine Or.inr (List.forall_mem_append.mpr ⟨slashes, fun c member => ?_⟩)
      exact slashes c (entry ▸ List.mem_append_right _ member)
    · have bound := List.IsPrefix.length_le ⟨document root, whole⟩
      rw [← less, kept, List.length_append] at bound
      exact absurd (List.eq_nil_of_length_eq_zero (by omega)) same
  · -- More than the directory is taken away: what is left is a part of the document's name.
    have part : more <+: document root := by
      have inside := Text.dropTrailing_prefix index root
      rw [← less] at inside
      nth_rewrite 2 [← whole] at inside
      rwa [List.prefix_append_right_inj] at inside
    have longer : (directory root ++ more).head? = some '/' := by
      rw [List.head?_append, front]
      rfl
    rw [← less] at agree
    have none : more = [] := by
      rcases eq_or_slashes_of_agreement longer fun rest => (agree rest).symm with none | slashes
      · exact none
      · refine List.eq_nil_iff_forall_not_mem.mpr fun c member => ?_
        have slash := slashes c (List.mem_append_right _ member)
        exact slash_not_mem_document root (slash ▸ part.subset member)
    rw [none, List.append_nil] at less
    exact Or.inl less.symm

theorem settle_of_slashes (index : List Char) {path : List Char}
    (slashes : ∀ c ∈ path, c = '/') : settle index path = ['/'] := by
  have left : ∀ c ∈ dropTrailing index path, decide (c = '/') = true :=
    fun c member => by simpa using slashes c ((Text.dropTrailing_prefix index path).subset member)
  rw [settle, List.dropWhile_eq_nil_iff.mpr left]

/-- Slashes in front do not count, not even if the entry document is made of slashes. -/
theorem settle_append_of_slashes {index lead : List Char} (front : ∀ c ∈ lead, c = '/')
    (name : ∀ c ∈ index, c = '/') (path : List Char) :
    settle index (lead ++ path) = settle index path := by
  have leading (rest : List Char) :
      (lead ++ rest).dropWhile (· = '/') = rest.dropWhile (· = '/') :=
    List.dropWhile_append_of_pos (by simpa using front)
  by_cases own : index <:+ path
  · obtain ⟨rest, rfl⟩ := own
    rw [settle, settle, ← List.append_assoc, Text.dropTrailing_append, Text.dropTrailing_append,
      leading]
  · by_cases both : index <:+ lead ++ path
    · -- The entry document reaches beyond the path, which is therefore made of slashes too.
      have inside : path <:+ index :=
        (List.suffix_or_suffix_of_suffix both (List.suffix_append lead path)).resolve_left own
      have slashes : ∀ c ∈ path, c = '/' := fun c member => name c (inside.subset member)
      rw [settle_of_slashes index slashes,
        settle_of_slashes index (List.forall_mem_append.mpr ⟨front, slashes⟩)]
    · rw [settle, settle, Text.dropTrailing_of_not_suffix (Or.inr own),
        Text.dropTrailing_of_not_suffix (Or.inr both), leading]

theorem settle_dropLeading_of_slashes {index lead : List Char} (front : ∀ c ∈ lead, c = '/')
    (name : ∀ c ∈ index, c = '/') (path : List Char) :
    settle index (dropLeading lead path) = settle index path := by
  by_cases starts : lead <+: path
  · obtain ⟨rest, rfl⟩ := starts
    rw [Text.dropLeading_append, settle_append_of_slashes front name]
  · rw [Text.dropLeading_of_not_prefix starts]

/-- Nothing is taken away from an absolute path if the base is not absolute. -/
theorem dropLeading_of_relative {lead root path : List Char} (inside : lead <+: root)
    (relative : root.head? ≠ some '/') (absolute : ∀ c ∈ path.head?, c = '/') :
    dropLeading lead path = path := by
  cases lead with
  | nil => exact Text.dropLeading_append [] path
  | cons c lead =>
    -- The base and what is left of it begin alike, and not with a slash.
    apply Text.dropLeading_of_not_prefix
    rintro ⟨rest, rfl⟩
    obtain ⟨more, rfl⟩ := inside
    exact relative (congrArg some (absolute c rfl))

/-- When what is left of a base serves like its directory: if it is its directory, if the base is
not absolute, and if there are only slashes. -/
theorem settle_dropLeading_eq {index root path : List Char}
    (cut : dropTrailing index root = directory root ∨ root.head? ≠ some '/' ∨
      ∀ c ∈ root ++ index, c = '/')
    (absolute : ∀ c ∈ path.head?, c = '/') :
    settle index (dropLeading (dropTrailing index root) path) =
      settle index (dropLeading (directory root) path) := by
  -- Both are taken from the front of the base.
  have rest := Text.dropTrailing_prefix index root
  have front : directory root <+: root := ⟨document root, directory_append_document root⟩
  rcases cut with same | relative | slashes
  · rw [same]
  · rw [dropLeading_of_relative rest relative absolute,
      dropLeading_of_relative front relative absolute]
  · obtain ⟨base, name⟩ := List.forall_mem_append.mp slashes
    rw [settle_dropLeading_of_slashes (fun c member => base c (rest.subset member)) name,
      settle_dropLeading_of_slashes (fun c member => base c (front.subset member)) name]

theorem decode_absolute {path : List Char} (absolute : ∀ c ∈ path.head?, c = '/') :
    ∀ c ∈ (decode path).head?, c = '/' := by
  cases path with
  | nil => exact nofun
  | cons c path =>
    obtain rfl := absolute c rfl
    rw [Text.Percent.decode_cons_of_isAscii path rfl (by decide)]
    simp

/-- Every absolute path is the decoded path of a file location without a marker. -/
theorem exists_location (config : Config Tree) (path : List Char) :
    ∃ (rest : String) (parts : Url.Parts), Url.split ("file://" ++ rest).toList = .ok parts ∧
      ¬marker config <:+: ("file://" ++ rest).toList ∧ decode parts.path = '/' :: path := by
  -- With every octet escaped nothing can interrupt the path or begin a marker.
  obtain ⟨encoded, encodes, safe⟩ := Text.Percent.exists_encodes path
  have plain : ∀ c ∈ '/' :: encoded, c ∉ Url.interrupting := by
    refine List.forall_mem_cons.mpr ⟨by decide, fun c member interrupts => ?_⟩
    have digitless : ∀ d ∈ Url.interrupting, d ≠ '%' ∧ Text.Percent.hexValue? d = none :=
      List.all_iff_forall_prop.mp (by decide)
    obtain ⟨other, none⟩ := digitless c interrupts
    obtain ⟨value, digit⟩ := (safe c member).resolve_left other
    rw [(Text.Percent.hexValue?_of_isHexDigit digit).1] at none
    cases none
  have raw : (String.ofList ('/' :: encoded)).toList = '/' :: encoded := String.toList_ofList
  obtain ⟨split, free⟩ := split_of_raw_path config (by rw [raw]; exact ⟨encoded, rfl⟩)
    (by rw [raw]; exact plain)
  refine ⟨_, _, split, free, ?_⟩
  dsimp only
  rw [raw, Text.Percent.decode_cons_of_isAscii encoded rfl (by decide),
    Text.Percent.decode_of_encodes encodes]

/-- File locations are relative to the directory of a base exactly in three cases: what is left of
the path of the base without the entry document is its directory, or that path is not absolute, or
it consists of slashes as the name of the entry document does. -/
theorem toPath_relative_iff {config : Config Tree} {index base : String} {root : Url.Parts}
    (named : config.indexFile = .text index) (accepted : Url.split base.toList = .ok root) :
    (∀ (rest : String) (parts : Url.Parts), Url.split ("file://" ++ rest).toList = .ok parts →
      ¬marker config <:+: ("file://" ++ rest).toList →
      toPath config (some base) ("file://" ++ rest) =
        .ok (String.ofList (settle index.toList
          (dropLeading (directory (decode root.path)) (decode parts.path))))) ↔
    dropTrailing index.toList (decode root.path) = directory (decode root.path) ∨
      (decode root.path).head? ≠ some '/' ∨
      ∀ c ∈ decode root.path ++ index.toList, c = '/' := by
  have based : (some base).mapM (fun base => Url.split base.toList) = .ok (some root) := by
    simp [accepted, Functor.map, Except.map]
  constructor
  · -- Locations with all absolute paths are asked; what they agree on leaves no other base.
    intro relative
    by_cases absolute : (decode root.path).head? = some '/'
    · have agree (rest : List Char) :
          settle index.toList
              (dropLeading (dropTrailing index.toList (decode root.path)) ('/' :: rest)) =
            settle index.toList (dropLeading (directory (decode root.path)) ('/' :: rest)) := by
        obtain ⟨href, parts, split, free, path⟩ := exists_location config rest
        have answer := relative href parts split free
        rw [toPath_of_path split (Url.split_file_absolute split).1 free based named] at answer
        rw [path] at answer
        exact String.ofList_injective (Except.ok.inj answer)
      exact (dropTrailing_or_slashes absolute agree).imp_right Or.inr
    · exact Or.inr (Or.inl absolute)
  · intro cut rest parts split free
    obtain ⟨file, absolute⟩ := Url.split_file_absolute split
    rw [toPath_of_path split file free based named, relativeTo,
      settle_dropLeading_eq cut (decode_absolute absolute)]

/-- The base names the entry document. -/
theorem toPath_relative_entry :
    Url.split "file:///app/index.html".toList =
      .ok ⟨"file".toList, [], "/app/index.html".toList⟩ ∧
    toPath Config.standard (some "file:///app/index.html") ("file://" ++ "/app/about") =
      .ok "/about" := by
  have accepted : Url.split "file:///app/index.html".toList =
      .ok ⟨"file".toList, [], "/app/index.html".toList⟩ := rfl
  have named : Config.standard.indexFile = .text "index.html" := rfl
  have raw : ['/'] <+: "/app/about".toList := by decide
  have plain : ∀ c ∈ "/app/about".toList, c ∉ Url.interrupting :=
    List.all_iff_forall_prop.mp (by decide)
  obtain ⟨split, free⟩ := split_of_raw_path Config.standard raw plain
  have base : decode "/app/index.html".toList = "/app/index.html".toList :=
    Text.Percent.decode_of_plain (by decide)
  have own : decode "/app/about".toList = "/app/about".toList :=
    Text.Percent.decode_of_plain (by decide)
  have cut : dropTrailing "index.html".toList "/app/index.html".toList =
      directory "/app/index.html".toList :=
    (dropTrailing_eq_directory_iff (by decide)).mpr (Or.inr (by decide))
  have relative := (toPath_relative_iff named accepted).mpr (Or.inl (by rw [base]; exact cut))
  have answer := relative "/app/about" _ split free
  rw [base, own] at answer
  exact ⟨accepted, answer⟩

/-- The base names another document, and a path beside it is cut inside a name. -/
theorem toPath_cut_inside_name :
    Url.split "file:///app/main".toList = .ok ⟨"file".toList, [], "/app/main".toList⟩ ∧
    Url.split ("file://" ++ "/app/maintenance/1").toList =
      .ok ⟨"file".toList, [], "/app/maintenance/1".toList⟩ ∧
    ¬marker Config.standard <:+: ("file://" ++ "/app/maintenance/1").toList ∧
    toPath Config.standard (some "file:///app/main") ("file://" ++ "/app/maintenance/1") =
      .ok "/tenance/1" ∧
    String.ofList (settle "index.html".toList
      (dropLeading (directory (decode "/app/main".toList))
        (decode "/app/maintenance/1".toList))) = "/maintenance/1" := by
  have accepted : Url.split "file:///app/main".toList =
      .ok ⟨"file".toList, [], "/app/main".toList⟩ := rfl
  have named : Config.standard.indexFile = .text "index.html" := rfl
  have based : (some "file:///app/main").mapM (fun base => Url.split base.toList) =
      .ok (some ⟨"file".toList, [], "/app/main".toList⟩) := rfl
  have raw : ['/'] <+: "/app/maintenance/1".toList := by decide
  have plain : ∀ c ∈ "/app/maintenance/1".toList, c ∉ Url.interrupting :=
    List.all_iff_forall_prop.mp (by decide)
  obtain ⟨split, free⟩ := split_of_raw_path Config.standard raw plain
  have base : decode "/app/main".toList = "/app/main".toList :=
    Text.Percent.decode_of_plain (by decide)
  have own : decode "/app/maintenance/1".toList = "/app/maintenance/1".toList :=
    Text.Percent.decode_of_plain (by decide)
  have answer := toPath_of_path split rfl free based named
  rw [relativeTo] at answer
  dsimp only at answer
  rw [base, own] at answer
  refine ⟨accepted, split, free, answer, ?_⟩
  rw [base, own]
  decide

end Location

end Routebook
