import Routebook.Proofs.Carriers

/-!
# Locations with other schemes

A location that is not a file's is a path already. Its authority is looked at all the same before
its scheme is: the location comes back exactly if the authority is one that a location may have,
and is refused for its address otherwise.
-/
namespace Routebook

namespace Text

theorem cutAt_append {c : Char} {before : List Char} (after : List Char) (free : c ∉ before) :
    cutAt c (before ++ c :: after) = (before, some after) := by
  induction before with
  | nil => simp [cutAt]
  | cons d before ih =>
    obtain ⟨other, free⟩ := not_or.mp (fun member => free (List.mem_cons.mpr member))
    rw [List.cons_append, cutAt, if_neg (Ne.symm other), ih free]

end Text

namespace Url

/-- Before a colon a text is cleaned on its own. -/
theorem clean_append_colon (before after : List Char) :
    clean (before ++ ':' :: after) = clean before ++ ':' :: after.filter (!isDropped ·) := by
  induction before with
  | nil => rfl
  | cons c before ih =>
    -- What is dropped at the front ends at the colon at the latest.
    by_cases control : isControlOrSpace c
    · simpa [clean, control] using ih
    · rw [List.cons_append, clean, clean, List.dropWhile_cons_of_neg control,
        List.dropWhile_cons_of_neg control, ← List.cons_append, List.filter_append]
      rfl

theorem colon_not_mem_clean {text : List Char} (free : ':' ∉ text) : ':' ∉ clean text := by
  intro member
  have kept := List.mem_of_mem_filter member
  exact free ((List.dropWhile_suffix isControlOrSpace).subset kept)

/-- The text before the first colon is the scheme of a file, in letters of either case and among
characters that are dropped. -/
def IsFile (text : List Char) : Prop :=
  ∃ before after, text = before ++ ':' :: after ∧ ':' ∉ before ∧
    (clean before).map Char.toLower = "file".toList

theorem isAlpha_of_toLower {c : Char} (letter : c.toLower.isAlpha = true) : c.isAlpha = true := by
  by_cases upper : c.isUpper = true
  · exact Bool.or_eq_true_iff.mpr (Or.inl upper)
  · have same : c.toLower = c := dif_neg fun within => upper (decide_eq_true within)
    rwa [same] at letter

theorem isScheme_of_file {text : List Char} (file : text.map Char.toLower = "file".toList) :
    isScheme text = true := by
  have letters : ∀ c ∈ text, c.isAlpha = true := by
    intro c member
    have lower : c.toLower ∈ "file".toList := file ▸ List.mem_map_of_mem member
    have all : ∀ d ∈ "file".toList, d.isAlpha = true := List.all_eq_true.mp rfl
    exact isAlpha_of_toLower (all _ lower)
  cases text with
  | nil => cases file
  | cons c text =>
    have chars : (c :: text).all isSchemeChar = true := by
      rw [List.all_eq_true]
      intro d member
      simp [isSchemeChar, Char.isAlphanum, letters d member]
    simp [isScheme, chars, letters c List.mem_cons_self]

/-- Cleaning and cutting find the scheme of a file exactly where it stands. -/
theorem splitScheme_eq_file_iff {text : List Char} :
    (splitScheme (clean text)).1 = "file".toList ↔ IsFile text := by
  constructor
  · intro file
    by_cases colon : ':' ∈ text
    · obtain ⟨before, after, rfl, free⟩ := List.eq_append_cons_of_mem colon
      refine ⟨before, after, rfl, free, ?_⟩
      rw [clean_append_colon, splitScheme, Text.cutAt_append _ (colon_not_mem_clean free)] at file
      dsimp only at file
      split at file
      · exact file
      · cases file
    · rw [splitScheme, Text.cutAt_of_not_mem (colon_not_mem_clean colon)] at file
      cases file
  · -- No colon is dropped, so the text before the first one is the text to be cleaned.
    rintro ⟨before, after, rfl, free, file⟩
    rw [clean_append_colon, splitScheme, Text.cutAt_append _ (colon_not_mem_clean free)]
    simp [isScheme_of_file file, file]

instance (text : List Char) : Decidable (IsFile text) :=
  decidable_of_iff _ splitScheme_eq_file_iff

/-- What stands in the place of an authority. -/
def authority (text : List Char) : List Char :=
  (splitAuthority (splitScheme (clean text)).2).1

/-- An authority that a location may have: brackets stand around an address only, and no character
hides a delimiter. -/
structure IsAuthority (authority : List Char) : Prop where
  bracketed : '[' ∈ authority ∨ ']' ∈ authority →
    '[' ∈ authority ∧ ']' ∈ authority ∧ checkBracketed authority = .ok ()
  plain : ∀ c ∈ authority, c ∉ disguises

theorem checkBrackets_eq_ok_iff {authority : List Char} :
    checkBrackets authority = .ok () ↔ ('[' ∈ authority ∨ ']' ∈ authority →
      '[' ∈ authority ∧ ']' ∈ authority ∧ checkBracketed authority = .ok ()) := by
  -- One bracket alone is refused; two are looked between, and none is fine.
  by_cases left : '[' ∈ authority <;> by_cases right : ']' ∈ authority <;>
    simp [checkBrackets, left, right]

theorem checkDisguises_eq_ok_iff {authority : List Char} :
    checkDisguises authority = .ok () ↔ ∀ c ∈ authority, c ∉ disguises := by
  simp [checkDisguises]

/-- A text is split if its authority is one that a location may have, and refused otherwise. -/
theorem split_cases (text : List Char) :
    (IsAuthority (authority text) ∧ split text = .ok ⟨(splitScheme (clean text)).1, authority text,
      beforeQuery (splitAuthority (splitScheme (clean text)).2).2⟩) ∨
    (¬IsAuthority (authority text) ∧ ∃ cause, split text = .error cause) := by
  have whole : split text = (do
      checkBrackets (authority text)
      checkDisguises (authority text)
      return ⟨(splitScheme (clean text)).1, authority text,
        beforeQuery (splitAuthority (splitScheme (clean text)).2).2⟩) := rfl
  -- Brackets are looked at first, and disguises only if brackets are in order.
  cases brackets : checkBrackets (authority text) with
  | error cause =>
    refine Or.inr ⟨fun may => ?_, cause, by rw [whole, brackets]; rfl⟩
    rw [checkBrackets_eq_ok_iff.mpr may.bracketed] at brackets
    cases brackets
  | ok done =>
    cases disguises : checkDisguises (authority text) with
    | error cause =>
      refine Or.inr ⟨fun may => ?_, cause, by rw [whole, brackets, disguises]; rfl⟩
      rw [checkDisguises_eq_ok_iff.mpr may.plain] at disguises
      cases disguises
    | ok done =>
      refine Or.inl ⟨⟨?_, checkDisguises_eq_ok_iff.mp disguises⟩, ?_⟩
      · exact checkBrackets_eq_ok_iff.mp brackets
      · rw [whole, brackets, disguises]
        rfl

end Url

namespace Location

theorem resolve_of_other_scheme {config : Config Tree} {base : Option String} {href : String}
    {parts : Url.Parts} (split : Url.split href.toList = .ok parts)
    (other : parts.scheme ≠ "file".toList) : resolve config base href = .ok .unchanged := by
  rw [resolve, split]
  exact if_pos other

/-- A location with another scheme, or with none, comes back unchanged exactly if its authority is
one that a location may have. -/
theorem toPath_of_other_scheme {href : String} (other : ¬Url.IsFile href.toList)
    (config : Config Tree) (base : Option String) :
    (toPath config base href = .ok href ↔ Url.IsAuthority (Url.authority href.toList)) ∧
    (¬Url.IsAuthority (Url.authority href.toList) →
      ∃ cause, toPath config base href = .error (.address cause)) := by
  have scheme := mt Url.splitScheme_eq_file_iff.mp other
  rcases Url.split_cases href.toList with ⟨may, split⟩ | ⟨refused, cause, split⟩
  · have unchanged : toPath config base href = .ok href := by
      rw [toPath, resolve_of_other_scheme split scheme]
      rfl
    exact ⟨iff_of_true unchanged may, fun refused => absurd may refused⟩
  · have fault : toPath config base href = .error (.address cause) := by
      rw [toPath, resolve, split]
      rfl
    have changed : toPath config base href ≠ .ok href := by
      rw [fault]
      intro same
      cases same
    exact ⟨iff_of_false changed refused, fun _ => ⟨cause, fault⟩⟩

/-- Brackets around an address. -/
theorem toPath_of_other_scheme_bracketed :
    ¬Url.IsFile "https://[::1]:80/a".toList ∧
    toPath Config.standard none "https://[::1]:80/a" = .ok "https://[::1]:80/a" := by
  have other : ¬Url.IsFile "https://[::1]:80/a".toList := by decide
  refine ⟨other, (toPath_of_other_scheme other Config.standard none).1.mpr ?_⟩
  exact ⟨Url.checkBrackets_eq_ok_iff.mp rfl, Url.checkDisguises_eq_ok_iff.mp rfl⟩

/-- A bracket without its partner: the location is refused although its scheme is another one. -/
theorem toPath_of_unmatched_bracket :
    ¬Url.IsFile "https://[example.com/video/42".toList ∧
    toPath Config.standard none "https://[example.com/video/42" =
      .error (.address .misplacedBracket) :=
  ⟨by decide, rfl⟩

end Location

end Routebook
