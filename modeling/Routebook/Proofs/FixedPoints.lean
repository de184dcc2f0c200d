import Routebook.Proofs.Lenses
import Routebook.Proofs.Schemes

/-!
# Fixed points of locations

The path of a file location begins with one slash, so it is no file location itself, and it is its
own path if it can be split at all. Splitting drops tabs and line breaks before it looks for an
authority: where nothing else stands between the first slash and a second one, the text behind them
is taken for an authority, and then the path comes back exactly if it may be one.
-/
namespace Routebook

namespace Url

theorem clean_of_slash (rest : List Char) :
    clean ('/' :: rest) = '/' :: rest.filter (!isDropped ·) := rfl

/-- What begins with a slash has no scheme, so it is no location of a file. -/
theorem not_isFile_of_slash (rest : List Char) : ¬IsFile ('/' :: rest) := by
  rintro ⟨before, after, whole, -, file⟩
  cases before with
  | nil => cases whole
  | cons c before =>
    -- The scheme would begin with the slash, which is not dropped.
    cases whole
    rw [clean_of_slash, List.map_cons] at file
    exact absurd (List.cons.inj file).1 (by decide)

theorem splitScheme_of_slash (rest : List Char) :
    splitScheme ('/' :: rest) = ([], '/' :: rest) := by
  have other : '/' ≠ ':' := by decide
  have letterless (before : List Char) : isScheme ('/' :: before) = false := rfl
  simp only [splitScheme, Text.cutAt, if_neg other]
  cases after : (Text.cutAt ':' rest).2 <;> simp [letterless]

/-- What follows a slash and characters that are dropped can pass for an authority. -/
theorem authority_of_slash (rest : List Char) :
    authority ('/' :: rest) = (splitAuthority ('/' :: rest.filter (!isDropped ·))).1 := by
  rw [authority, clean_of_slash, splitScheme_of_slash]

/-- The path has a second slash that only dropped characters keep apart from the first one. -/
def Disguised (path : List Char) : Prop :=
  ∃ gap tail, path = '/' :: (gap ++ '/' :: tail) ∧ ∀ c ∈ gap, isDropped c = true

theorem disguised_iff {path : List Char} :
    Disguised path ↔ path.head? = some '/' ∧
      ((path.drop 1).filter (!isDropped ·)).head? = some '/' := by
  constructor
  · rintro ⟨gap, tail, rfl, dropped⟩
    have none : gap.filter (!isDropped ·) = [] := by simpa using dropped
    have kept : isDropped '/' = false := rfl
    simp [none, kept]
  · rintro ⟨first, second⟩
    obtain ⟨rest, rfl⟩ := List.head?_eq_some_iff.mp first
    obtain ⟨kept, slash⟩ := List.head?_eq_some_iff.mp second
    -- What stands before the slash that is kept first is dropped.
    obtain ⟨gap, tail, whole, dropped, -, -⟩ := List.filter_eq_cons_iff.mp slash
    exact ⟨gap, tail, congrArg ('/' :: ·) whole, by simpa using dropped⟩

instance (path : List Char) : Decidable (Disguised path) :=
  decidable_of_iff _ disguised_iff.symm

/-- A path has an authority only if it is disguised. -/
theorem authority_of_not_disguised {rest : List Char} (plain : ¬Disguised ('/' :: rest)) :
    authority ('/' :: rest) = [] := by
  rw [authority_of_slash]
  unfold splitAuthority
  split
  next more same =>
    have second : rest.filter (!isDropped ·) = '/' :: more := (List.cons.inj same).2
    refine absurd (disguised_iff.mpr ⟨rfl, ?_⟩) plain
    rw [List.drop_one, List.tail_cons, second]
    rfl
  · rfl

theorem isAuthority_nil : IsAuthority [] := ⟨by simp, by simp⟩

end Url

namespace Location

/-- A settled path begins with exactly one slash. -/
theorem settle_single (index path : List Char) :
    ∃ rest, settle index path = '/' :: rest ∧ rest.head? ≠ some '/' := by
  refine ⟨_, rfl, fun slash => ?_⟩
  have other := List.head?_dropWhile_not (fun c => decide (c = '/')) (Text.dropTrailing index path)
  rw [slash] at other
  cases other

/-- A file location is never left unchanged: it is resolved to a path that has been settled. -/
theorem exists_settle_of_resolve {config : Config Tree} {base : Option String} {href : String}
    {resolution : Resolution} (file : Url.IsFile href.toList)
    (located : resolve config base href = .ok resolution) :
    ∃ index before, resolution = .path (settle index before) := by
  rw [resolve] at located
  obtain ⟨parts, split, located⟩ := bind_eq_ok.mp located
  have accepted : Url.split href.toList = .ok parts := mapError_eq_ok.mp split
  have scheme : parts.scheme = "file".toList := by
    rcases Url.split_cases href.toList with ⟨-, own⟩ | ⟨-, cause, failed⟩
    · rw [accepted] at own
      cases own
      exact Url.splitScheme_eq_file_iff.mpr file
    · rw [accepted] at failed
      cases failed
  rw [if_neg (not_not.mpr scheme)] at located
  split at located
  · obtain ⟨index, -, located⟩ := bind_eq_ok.mp located
    cases located
    exact ⟨_, _, rfl⟩
  · obtain ⟨root, -, located⟩ := bind_eq_ok.mp located
    obtain ⟨index, -, located⟩ := bind_eq_ok.mp located
    cases located
    exact ⟨_, _, rfl⟩

theorem toPath_single {config : Config Tree} {base : Option String} {href path : String}
    (file : Url.IsFile href.toList) (located : toPath config base href = .ok path) :
    ∃ rest, path.toList = '/' :: rest ∧ rest.head? ≠ some '/' := by
  rw [toPath] at located
  obtain ⟨resolution, resolved, located⟩ := bind_eq_ok.mp located
  obtain ⟨index, before, rfl⟩ := exists_settle_of_resolve file resolved
  cases located
  rw [String.toList_ofList]
  exact settle_single index before

/-- The path that a file location is brought back to begins with exactly one slash. With any
settings and any base it comes back itself, unless it is disguised and what passes for its authority
may not be one: then it is refused for its address. -/
theorem toPath_fixed_iff {config : Config Tree} {base : Option String} {href path : String}
    (file : Url.IsFile href.toList) (located : toPath config base href = .ok path) :
    (∃ rest, path.toList = '/' :: rest ∧ rest.head? ≠ some '/') ∧
    ∀ (config' : Config Tree) (base' : Option String),
      (toPath config' base' path = .ok path ↔
        (Url.Disguised path.toList → Url.IsAuthority (Url.authority path.toList))) ∧
      (toPath config' base' path ≠ .ok path →
        ∃ cause, toPath config' base' path = .error (.address cause)) := by
  obtain ⟨rest, slash, single⟩ := toPath_single file located
  refine ⟨⟨rest, slash, single⟩, fun config' base' => ?_⟩
  have other : ¬Url.IsFile path.toList := by
    rw [slash]
    exact Url.not_isFile_of_slash rest
  obtain ⟨fixed, refused⟩ := toPath_of_other_scheme other config' base'
  refine ⟨fixed.trans ⟨fun may _ => may, fun may => ?_⟩, fun changed =>
    refused (mt fixed.mpr changed)⟩
  by_cases disguised : Url.Disguised path.toList
  · exact may disguised
  · rw [slash] at disguised ⊢
    rw [Url.authority_of_not_disguised disguised]
    exact Url.isAuthority_nil

/-- A tab alone keeps two slashes apart, and what stands behind them may be an authority. -/
theorem toPath_fixed_iff_bracketed :
    Url.IsFile "file:///%09/[::1]/a".toList ∧
    toPath Config.standard none "file:///%09/[::1]/a" = .ok "/\t/[::1]/a" ∧
    Url.Disguised "/\t/[::1]/a".toList ∧
    toPath Config.standard (some "//[") "/\t/[::1]/a" = .ok "/\t/[::1]/a" := by
  have file : Url.IsFile "file:///%09/[::1]/a".toList := by decide
  have located : toPath Config.standard none "file:///%09/[::1]/a" = .ok "/\t/[::1]/a" := by
    decide +kernel
  have may : Url.IsAuthority (Url.authority "/\t/[::1]/a".toList) :=
    ⟨Url.checkBrackets_eq_ok_iff.mp rfl, Url.checkDisguises_eq_ok_iff.mp rfl⟩
  exact ⟨file, located, by decide, ((toPath_fixed_iff file located).2 _ _).1.mpr fun _ => may⟩

/-- The bracket behind the two slashes has no partner: the path of a file location is refused when
it is read again. -/
theorem toPath_of_disguised_bracket :
    Url.IsFile "file:///%09/[x".toList ∧
    toPath Config.standard none "file:///%09/[x" = .ok "/\t/[x" ∧
    toPath Config.standard none "/\t/[x" = .error (.address .misplacedBracket) :=
  ⟨by decide, by decide +kernel, rfl⟩

end Location

end Routebook
