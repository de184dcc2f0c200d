import Mathlib.Data.Bool.AllAny
import Routebook.Location
import Routebook.Proofs.Percent

/-!
# Carriers of a path

A location of a shell carries a path in its query, or is one itself. What stands before the query
has no influence on the path, nor has the base, and both carriers bring every percent-encoding of
an absolute path back.
-/
namespace Routebook

namespace Text

theorem cutAt_of_not_mem {c : Char} {text : List Char} (free : c ∉ text) :
    cutAt c text = (text, none) := by
  induction text with
  | nil => rfl
  | cons d text ih =>
    obtain ⟨other, free⟩ := not_or.mp (fun member => free (List.mem_cons.mpr member))
    rw [cutAt, if_neg (Ne.symm other), ih free]

end Text

namespace Url

/-- A file address without an authority splits, whatever follows. -/
theorem split_file (rest : List Char) :
    split ("file:///".toList ++ rest) =
      .ok ⟨"file".toList, [], beforeQuery ('/' :: rest.filter (!isDropped ·))⟩ := by
  have cleaned : clean ("file:///".toList ++ rest) =
      "file:".toList ++ ('/' :: '/' :: '/' :: rest.filter (!isDropped ·)) := rfl
  rw [split, cleaned]
  rfl

/-- The characters that a raw path may not hold: they end it, or they are dropped. -/
def interrupting : List Char := ['?', '#', '\t', '\r', '\n']

/-- A file address without an authority is all path if nothing interrupts it. -/
theorem split_file_path {rest : List Char} (plain : ∀ c ∈ rest, c ∉ interrupting) :
    split ("file:///".toList ++ rest) = .ok ⟨"file".toList, [], '/' :: rest⟩ := by
  have kept : rest.filter (!isDropped ·) = rest := by
    rw [List.filter_eq_self]
    intro c member
    have other := plain c member
    simp only [interrupting, List.mem_cons, not_or] at other
    simp [isDropped, other]
  have absent {c : Char} (interrupts : c ∈ interrupting) (other : c ≠ '/') :
      c ∉ '/' :: rest := by
    rw [List.mem_cons, not_or]
    exact ⟨other, fun member => plain c member interrupts⟩
  rw [split_file, kept, beforeQuery, Text.cutAt_of_not_mem (absent (by decide) (by decide)),
    Text.cutAt_of_not_mem (absent (by decide) (by decide))]

end Url

namespace Text

/-- What stands before the first character of a marker is passed over. -/
theorem afterMarker?_append {first : Char} {front : List Char} (marker value : List Char)
    (free : first ∉ front) :
    afterMarker? (first :: marker) (front ++ (first :: marker ++ value)) = some value := by
  induction front with
  | nil =>
    have here : (first :: marker).isPrefixOf (first :: (marker ++ value)) = true := by
      rw [List.isPrefixOf_iff_prefix]
      exact List.prefix_append (first :: marker) value
    rw [List.nil_append, List.cons_append, afterMarker?, if_pos here]
    simp
  | cons c front ih =>
    obtain ⟨other, free⟩ := not_or.mp (fun member => free (List.mem_cons.mpr member))
    rw [List.cons_append, afterMarker?, if_neg, ih free]
    -- A marker that began here would begin with this character.
    rw [List.isPrefixOf_iff_prefix, List.cons_prefix_cons]
    exact fun starts => other starts.1

theorem afterMarker?_eq_none_iff {marker text : List Char} :
    afterMarker? marker text = none ↔ ¬marker <:+: text := by
  induction text with
  | nil => cases marker <;> simp [afterMarker?]
  | cons c text ih =>
    rw [afterMarker?, List.infix_cons_iff, not_or, ← ih, ← List.isPrefixOf_iff_prefix]
    split <;> simp_all

theorem dropTrailing_of_not_suffix {tail text : List Char} (kept : tail = [] ∨ ¬tail <:+ text) :
    dropTrailing tail text = text := by
  rw [dropTrailing]
  rcases kept with rfl | other
  · simp
  · rw [if_neg (by rwa [List.isSuffixOf_iff_suffix])]

end Text

namespace Location

/-- One slash in front, and not two. -/
theorem absolute_iff {path : List Char} :
    ['/'] <+: path ∧ ¬['/', '/'] <+: path ↔ ∃ rest, path = '/' :: rest ∧ rest.head? ≠ some '/' := by
  constructor
  · rintro ⟨⟨rest, rfl⟩, single⟩
    refine ⟨rest, rfl, fun slash => single ?_⟩
    obtain ⟨more, rfl⟩ := List.head?_eq_some_iff.mp slash
    exact ⟨more, rfl⟩
  · rintro ⟨rest, rfl, single⟩
    refine ⟨⟨rest, rfl⟩, ?_⟩
    rintro ⟨more, same⟩
    cases same
    exact single rfl

/-- An absolute path that does not end with the entry document is settled. -/
theorem settle_of_absolute {index rest : List Char}
    (kept : index = [] ∨ ¬index <:+ '/' :: rest) (single : rest.head? ≠ some '/') :
    settle index ('/' :: rest) = '/' :: rest := by
  rw [settle, Text.dropTrailing_of_not_suffix kept]
  cases rest with
  | nil => rfl
  | cons c rest =>
    have other : c ≠ '/' := by simpa using single
    simp [other]

theorem indexFile_of_text {config : Config Tree} {index : String}
    (named : config.indexFile = .text index) : indexFile config = .ok index.toList := by
  rw [indexFile, named]
  rfl

/-- What stands behind the marker of a file location wins; the base is not looked at. -/
theorem resolve_of_marker {config : Config Tree} {base : Option String} {href : String}
    {parts : Url.Parts} {value index : List Char} (split : Url.split href.toList = .ok parts)
    (file : parts.scheme = "file".toList)
    (carried : Text.afterMarker? (marker config) href.toList = some value)
    (named : indexFile config = .ok index) :
    resolve config base href = .ok (.path (settle index (Text.Percent.decode value))) := by
  rw [resolve, split, carried, named]
  simp [bind, Except.bind, liftM, monadLift, MonadLift.monadLift, Except.mapError, file, pure,
    Except.pure]

/-- The query of a shell carries a path. -/
theorem toPath_of_query {config : Config Tree} {index directory encoded : String}
    (named : config.indexFile = .text index) (free : '?' ∉ directory.toList)
    (base : Option String) :
    toPath config base
        ("file:///" ++ directory ++ "?" ++ config.urlParam.plainText ++ "=" ++ encoded) =
      .ok (String.ofList (settle index.toList (Text.Percent.decode encoded.toList))) := by
  have href : ("file:///" ++ directory ++ "?" ++ config.urlParam.plainText ++ "=" ++
      encoded).toList = "file:///".toList ++ directory.toList ++
        (marker config ++ encoded.toList) := by
    simp [marker]
  have carried : Text.afterMarker? (marker config) ("file:///".toList ++ directory.toList ++
      (marker config ++ encoded.toList)) = some encoded.toList :=
    Text.afterMarker?_append _ _ (by simpa using free)
  -- The marker begins with the first question mark of the location.
  have split := Url.split_file (directory.toList ++ (marker config ++ encoded.toList))
  rw [← List.append_assoc, ← href] at split
  rw [← href] at carried
  rw [toPath, resolve_of_marker split rfl carried (indexFile_of_text named)]
  rfl

/-- Without a marker the path of a file location is taken relative to the base. -/
theorem toPath_of_path {config : Config Tree} {base : Option String} {bases : Option Url.Parts}
    {href index : String} {parts : Url.Parts} (split : Url.split href.toList = .ok parts)
    (file : parts.scheme = "file".toList) (free : ¬marker config <:+: href.toList)
    (based : base.mapM (fun base => Url.split base.toList) = .ok bases)
    (named : config.indexFile = .text index) :
    toPath config base href =
      .ok (String.ofList (settle index.toList
        (relativeTo index.toList bases (Text.Percent.decode parts.path)))) := by
  rw [toPath, resolve, split, Text.afterMarker?_eq_none_iff.mpr free, indexFile_of_text named]
  cases base with
  | none =>
    cases based
    simp [file, bind, Except.bind, liftM, monadLift, MonadLift.monadLift, Except.mapError, pure,
      Except.pure]
  | some base =>
    cases root : Url.split base.toList with
    | error cause => simp [root, Functor.map, Except.map] at based
    | ok root' =>
      have same : some root' = bases := by
        simpa [root, Functor.map, Except.map] using based
      simp [file, root, same, bind, Except.bind, liftM, monadLift,
        MonadLift.monadLift, Except.mapError, pure, Except.pure, Functor.map, Except.map]

/-- A raw absolute path behind two slashes is the path of a file location, which has no marker. -/
theorem split_of_raw_path {encoded : String} (config : Config Tree)
    (absolute : ['/'] <+: encoded.toList) (plain : ∀ c ∈ encoded.toList, c ∉ Url.interrupting) :
    Url.split ("file://" ++ encoded).toList = .ok ⟨"file".toList, [], encoded.toList⟩ ∧
      ¬marker config <:+: ("file://" ++ encoded).toList := by
  obtain ⟨tail, raw⟩ := absolute
  rw [List.singleton_append] at raw
  constructor
  · have href : ("file://" ++ encoded).toList = "file:///".toList ++ tail := by
      rw [String.toList_append, ← raw]
      rfl
    have tail_plain : ∀ c ∈ tail, c ∉ Url.interrupting :=
      fun c member => plain c (raw ▸ List.mem_cons_of_mem _ member)
    rw [href, Url.split_file_path tail_plain, raw]
  · intro carried
    -- A marker begins with a question mark, which neither the slashes nor the path have.
    have mark : '?' ∈ ("file://" ++ encoded).toList := carried.subset List.mem_cons_self
    rw [String.toList_append, List.mem_append] at mark
    rcases mark with front | own
    · exact absurd front (by decide)
    · exact plain '?' own (by decide)

/-- Both carriers bring a path back. A path is absolute and does not end with the entry document;
it is encoded in any way. In the query of a shell it comes back whatever shell and base are, and as
the path of a file location if nothing in it interrupts a raw path. -/
theorem toPath_of_encodes {path index encoded : String} {config : Config Tree}
    (absolute : ['/'] <+: path.toList) (single : ¬['/', '/'] <+: path.toList)
    (named : config.indexFile = .text index) (kept : index = "" ∨ ¬index.toList <:+ path.toList)
    (encodes : Text.Percent.Encodes path.toList encoded.toList) :
    (∀ (directory : String) (base : Option String), '?' ∉ directory.toList →
      toPath config base
          ("file:///" ++ directory ++ "?" ++ config.urlParam.plainText ++ "=" ++ encoded) =
        .ok path) ∧
    (['/'] <+: encoded.toList → (∀ c ∈ encoded.toList, c ∉ Url.interrupting) →
      toPath config none ("file://" ++ encoded) = .ok path) := by
  obtain ⟨rest, slash, head⟩ := absolute_iff.mp ⟨absolute, single⟩
  have ending : index.toList = [] ∨ ¬index.toList <:+ path.toList :=
    kept.imp_left fun empty => by rw [empty]; rfl
  have settled : settle index.toList (Text.Percent.decode encoded.toList) = path.toList := by
    rw [Text.Percent.decode_of_encodes encodes, slash]
    rw [slash] at ending
    exact settle_of_absolute ending head
  constructor
  · intro directory base free
    rw [toPath_of_query named free base, settled, String.ofList_toList]
  · intro raw plain
    obtain ⟨split, free⟩ := split_of_raw_path config raw plain
    rw [toPath_of_path split rfl free rfl named, relativeTo]
    dsimp only
    rw [settled, String.ofList_toList]

/-- Two signs that are escaped, and a letter beyond ASCII that stands raw and escaped. -/
theorem toPath_of_encodes_mixed :
    Text.Percent.Encodes "/é?%é".toList "/é%3F%25%c3%A9".toList ∧
    toPath Config.standard (some "//[")
        ("file:///" ++ "app/" ++ "?" ++ Config.standard.urlParam.plainText ++ "=" ++
          "/é%3F%25%c3%A9") =
      .ok "/é?%é" ∧
    toPath Config.standard none ("file://" ++ "/é%3F%25%c3%A9") = .ok "/é?%é" :=
  have mark : Text.Percent.Escapes [0x3F] ['%', '3', 'F'] := .cons (by decide) (by decide) .nil
  have sign : Text.Percent.Escapes [0x25] ['%', '2', '5'] := .cons (by decide) (by decide) .nil
  have letter : Text.Percent.Escapes [0xC3, 0xA9] ['%', 'c', '3', '%', 'A', '9'] :=
    .cons (by decide) (by decide) (.cons (by decide) (by decide) .nil)
  have characters : Text.Percent.Encodes ['/', 'é', '?', '%', 'é']
      ('/' :: 'é' :: (['%', '3', 'F'] ++ (['%', '2', '5'] ++
        (['%', 'c', '3', '%', 'A', '9'] ++ [])))) :=
    .raw (by decide) (.raw (by decide) (.escaped mark (.escaped sign (.escaped letter .nil))))
  have encodes : Text.Percent.Encodes "/é?%é".toList "/é%3F%25%c3%A9".toList := characters
  have absolute : ['/'] <+: "/é?%é".toList := by decide
  have named : Config.standard.indexFile = .text "index.html" := rfl
  have both := toPath_of_encodes absolute (by decide) named (Or.inr (by decide)) encodes
  have plain : ∀ c ∈ "/é%3F%25%c3%A9".toList, c ∉ Url.interrupting :=
    List.all_iff_forall_prop.mp (by decide)
  ⟨encodes, both.1 "app/" (some "//[") (by decide), both.2 (by decide) plain⟩

end Location

end Routebook
