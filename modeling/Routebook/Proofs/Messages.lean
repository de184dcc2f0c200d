import Routebook.Proofs.Declarations
import Routebook.Proofs.Lines
import Routebook.Proofs.Quoting
import Routebook.Proofs.Tokens

/-!
# Messages of problems

A problem of a table is told on one line, whatever stands in its template, and what is told says all
about it: its line, its kind, its template, and the parameter or the first line. Numbers and quoted
texts tell their own end, so no words around them can be taken for a part of them.
-/
namespace Routebook

open Text (quoteChars)

/-- A text begins with a number in one way only if what follows cannot belong to the number. -/
theorem toString_append_inj {a b : Int} {rest more : List Char} (ends : Json.EndsToken rest)
    (ends' : Json.EndsToken more)
    (same : (toString a).toList ++ rest = (toString b).toList ++ more) : a = b ∧ rest = more := by
  have read := Json.readToken?_int a ends
  rw [same, Json.readToken?_int b ends'] at read
  cases read
  exact ⟨rfl, rfl⟩

theorem toString_injective : Function.Injective (toString : Int → String) := by
  intro a b same
  have ended : (toString a).toList ++ [] = (toString b).toList ++ [] := by rw [same]
  have none : Json.EndsToken [] := fun _ member => by cases member
  exact (toString_append_inj none none ended).1

theorem isBoundary_of_mem_toString (value : Int) :
    ∀ c ∈ (toString value).toList, Text.isBoundary c = false := by
  have digits : ∀ n < 10, Text.isBoundary (Char.ofNat (48 + n)) = false := by decide
  have digit {c : Char} (own : c.isDigit = true) : Text.isBoundary c = false := by
    obtain ⟨above, below⟩ := Json.digit_range own
    have same : Char.ofNat (48 + (c.toNat - 48)) = c := by
      rw [Nat.add_sub_cancel' above, Char.ofNat_toNat]
    rw [← same]
    exact digits _ (by omega)
  obtain ⟨first, more, shape, start, inside⟩ := Json.chars_toString value
  rw [shape]
  refine List.forall_mem_cons.mpr ⟨?_, fun c member => digit (inside c member)⟩
  rcases start with rfl | own
  · decide
  · exact digit own

/-! ### Repeated parameters -/

theorem RepeatedParameter.toList_message (fault : RepeatedParameter) :
    fault.message.toList = "duplicate url param ".toList ++ (quoteChars fault.parameter.toList ++
      (" was found in ".toList ++ quoteChars fault.route.toList)) := by
  have words : fault.message = "duplicate url param " ++ Text.quoted fault.parameter ++
      " was found in " ++ Text.quoted fault.route := rfl
  rw [words]
  simp only [Text.quoted, String.toList_append, String.toList_ofList, List.append_assoc]

theorem RepeatedParameter.message_injective : Function.Injective RepeatedParameter.message := by
  intro one other same
  have chars := congrArg String.toList same
  rw [toList_message, toList_message, List.append_cancel_left_eq] at chars
  obtain ⟨parameter, rest⟩ := Text.quoteChars_append_inj chars
  rw [List.append_cancel_left_eq] at rest
  have route := Text.quoteChars_injective rest
  cases one
  cases other
  cases String.toList_inj.mp parameter
  cases String.toList_inj.mp route
  rfl

namespace Table

/-! ### Problems -/

/-- What is told of a problem behind the number of its line. -/
def Problem.told : Problem Int → String
  | .repeatedParameter _ cause => cause.message
  | .alreadyDeclared _ template first =>
    "route " ++ Text.quoted template ++ " already declared on line " ++ toString first

theorem Problem.toList_message (problem : Problem Int) :
    (problem.message toString).toList = "line ".toList ++
      ((toString problem.line).toList ++ (": ".toList ++ problem.told.toList)) := by
  have shape : problem.message toString =
      "line " ++ toString problem.line ++ ": " ++ problem.told := by
    cases problem with
    | repeatedParameter => rfl
    | alreadyDeclared line template first =>
      have words : ": route " = ": " ++ "route " := by decide +kernel
      simp only [message, Problem.line, told, words, String.append_assoc]
  rw [shape]
  simp only [String.toList_append, List.append_assoc]

theorem Problem.toList_told_alreadyDeclared (line first : Int) (template : String) :
    (Problem.alreadyDeclared line template first).told.toList =
      "route ".toList ++ (quoteChars template.toList ++
        (" already declared on line ".toList ++ (toString first).toList)) := by
  simp only [told, Text.quoted, String.toList_append, String.toList_ofList, List.append_assoc]

/-- What is told of a problem says all but its line. -/
theorem Problem.eq_of_told_eq {one other : Problem Int} (line : one.line = other.line)
    (same : one.told = other.told) : one = other := by
  -- The two kinds begin with different letters.
  have apart (cause : RepeatedParameter) (line first : Int) (template : String) :
      cause.message ≠ (Problem.alreadyDeclared line template first).told := by
    intro same
    have chars := congrArg String.toList same
    rw [RepeatedParameter.toList_message, toList_told_alreadyDeclared] at chars
    cases chars
  cases one with
  | repeatedParameter line cause =>
    cases other with
    | repeatedParameter =>
      cases line
      rw [RepeatedParameter.message_injective same]
    | alreadyDeclared => exact absurd same (apart _ _ _ _)
  | alreadyDeclared line template first =>
    cases other with
    | repeatedParameter => exact absurd same.symm (apart _ _ _ _)
    | alreadyDeclared line' template' first' =>
      cases line
      have chars := congrArg String.toList same
      rw [toList_told_alreadyDeclared, toList_told_alreadyDeclared,
        List.append_cancel_left_eq] at chars
      obtain ⟨template, rest⟩ := Text.quoteChars_append_inj chars
      have number := toString_injective (String.toList_inj.mp (List.append_cancel_left rest))
      rw [String.toList_inj.mp template, number]

theorem Problem.message_injective :
    Function.Injective (Problem.message toString : Problem Int → String) := by
  intro one other same
  have chars := congrArg String.toList same
  rw [Problem.toList_message, Problem.toList_message, List.append_cancel_left_eq] at chars
  have colon (told : List Char) : Json.EndsToken (": ".toList ++ told) := by
    rintro c ⟨⟩
    decide
  obtain ⟨line, rest⟩ := toString_append_inj (colon _) (colon _) chars
  exact Problem.eq_of_told_eq line (String.toList_inj.mp (List.append_cancel_left rest))

theorem Problem.isBoundary_of_mem_message (problem : Problem Int) :
    ∀ c ∈ (problem.message toString).toList, Text.isBoundary c = false := by
  have quoted (text : List Char) : ∀ c ∈ quoteChars text, Text.isBoundary c = false :=
    Text.isBoundary_of_mem_quoteChars
  have both {first rest : List Char} (here : ∀ c ∈ first, Text.isBoundary c = false)
      (there : ∀ c ∈ rest, Text.isBoundary c = false) :
      ∀ c ∈ first ++ rest, Text.isBoundary c = false :=
    List.forall_mem_append.mpr ⟨here, there⟩
  have words {text : String} (plain : (text.toList.any Text.isBoundary) = false) :
      ∀ c ∈ text.toList, Text.isBoundary c = false := fun c member =>
    Bool.eq_false_iff.mpr fun ends => List.any_eq_false.mp plain c member ends
  have told : ∀ c ∈ problem.told.toList, Text.isBoundary c = false := by
    cases problem with
    | repeatedParameter line cause =>
      rw [told, RepeatedParameter.toList_message]
      exact both (words (by decide)) (both (quoted _) (both (words (by decide)) (quoted _)))
    | alreadyDeclared line template first =>
      rw [toList_told_alreadyDeclared]
      exact both (words (by decide)) (both (quoted _)
        (both (words (by decide)) (isBoundary_of_mem_toString first)))
  rw [Problem.toList_message]
  exact both (words (by decide))
    (both (isBoundary_of_mem_toString _) (both (words (by decide)) told))

/-- Every problem of a table is told on one line, and in words of its own: problems that are told
alike have the same line, kind and template, and the same parameter or first line. So have repeated
parameters on their own. -/
theorem problemLines_unambiguous :
    (∀ entries : List (Entry Int), ∀ line ∈ problemLines (check entries),
      (∀ c ∈ line.toList, Text.isBoundary c = false) ∧
        Text.lines line.toList = [line.toList]) ∧
    (∀ entries others : List (Entry Int), ∀ one ∈ (check entries).problems,
      ∀ other ∈ (check others).problems,
        one.message toString = other.message toString → one = other) ∧
    ∀ one other : RepeatedParameter, one.message = other.message → one = other := by
  refine ⟨fun entries line member => ?_, fun _ _ one _ other _ same => ?_, fun one other same => ?_⟩
  · obtain ⟨problem, -, rfl⟩ := List.mem_map.mp member
    have plain := problem.isBoundary_of_mem_message
    refine ⟨plain, Text.lines_line plain ?_⟩
    rw [Problem.toList_message]
    exact List.cons_ne_nil _ _
  · exact Problem.message_injective same
  · exact RepeatedParameter.message_injective same

/-- A template with a line feed and a quote is told on one line, and two tables that tell the same
have the same problem. -/
theorem problemLines_unambiguous_line_feed :
    let entries : List (Entry Int) := [⟨1, "/\n'", none⟩, ⟨-2, "/\n'", none⟩]
    let others : List (Entry Int) := [⟨1, "/\n'", none⟩, ⟨7, "/b", none⟩, ⟨-2, "/\n'", some "B"⟩]
    let problem : Problem Int := .alreadyDeclared (-2) "/\n'" 1
    let line := "line -2: route \"/\\n'\" already declared on line 1"
    (line ∈ problemLines (check entries) ∧ Text.lines line.toList = [line.toList]) ∧
      (problem ∈ (check entries).problems ∧ problem ∈ (check others).problems ∧
        problem.message toString = line) ∧
      ∀ one ∈ (check entries).problems, one.message toString = line → one = problem := by
  intro entries others problem line
  obtain ⟨single, apart, -⟩ := problemLines_unambiguous
  have told : line ∈ problemLines (check entries) := by decide +kernel
  have own : problem ∈ (check entries).problems := by decide +kernel
  have again : problem ∈ (check others).problems := by decide +kernel
  have words : problem.message toString = line := by decide +kernel
  refine ⟨⟨told, (single entries line told).2⟩, ⟨own, again, words⟩, fun one member same => ?_⟩
  exact apart entries others one member problem again (same.trans words.symm)

end Table

end Routebook
