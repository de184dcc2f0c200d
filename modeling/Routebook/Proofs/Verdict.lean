import Routebook.Command.Run
import Routebook.Proofs.Declarations
import Routebook.Proofs.Utf8

/-!
# Verdicts

The check command says of a table either how many declarations it has, or which of them offend and
how many these are. It says the former exactly of sound tables. Lines may be moved: the exit status,
the number of problems and the templates that get a route stay as they are. A file whose octets are
those of no text gets no verdict: the run ends with a fault that nothing catches.
-/
namespace Routebook.Command

open Table

variable {arguments : List String} {verbose : Bool} {file : String}
  {read : Path → Except FileFault (List UInt8)} {octets : List UInt8} {text : List Char}

/-- A file name that does not look like a switch can follow the name of the command. -/
theorem Request.read_check (plain : file.toList.head? ≠ some '-') :
    Request.read ["check", file] = .ok (.check false file) := by
  have other : file ≠ "--" := by
    rintro rfl
    exact plain rfl
  -- The name is no switch of the program, nor is it one of the command.
  have role (switches : List Switch) : Role.ofText switches file = .ok .operand := by
    rw [Role.ofText]
    exact if_pos plain
  have command : Role.ofText Topic.program.switches "check" = .ok .operand := rfl
  have arguments (switches : List Switch) :
      Argument.readAll switches [file] = .ok [⟨file, .operand⟩] := by
    rw [Argument.readAll, if_neg other, role]
    rfl
  have program : Reading.ofArguments .program ["check", file] =
      .ok { Reading.empty with operand := some ("check", [file]) } := by
    rw [Reading.ofArguments, Argument.readAll, if_neg (by decide), command, arguments]
    rfl
  have topic : Reading.ofArguments .check [file] =
      .ok { Reading.empty with operand := some (file, []) } := by
    rw [Reading.ofArguments, arguments]
    rfl
  rw [Request.read, program]
  change (do let command ← Reading.ofArguments .check [file]; _) = _
  rw [topic]
  rfl

namespace Outcome

theorem verdict_of_sound (path : Path) {entries : List (Entry Int)} (sound : Sound entries) :
    verdict path entries = .printed (toString entries.length ++ " route(s) OK.\n") := by
  -- There are as many routes as declarations, since none of them offends.
  have none := offenders_eq_nil_iff.mpr sound
  have problems := length_problems entries
  have routes := length_routes entries
  have whole := length_accepted_add_offenders entries
  rw [none, List.length_nil] at problems whole
  have empty := List.eq_nil_of_length_eq_zero problems
  rw [verdict, if_pos (by rw [empty]; rfl), routes, ← whole, Nat.add_zero]

theorem verdict_of_not_sound (path : Path) {entries : List (Entry Int)} (unsound : ¬Sound entries) :
    verdict path entries = .refused (joinLines
      ((check entries).problems.map (fun problem =>
        path.text ++ ": " ++ problem.message toString) ++
      [toString (check entries).problems.length ++ " problem(s) found."])) := by
  have some : (check entries).problems ≠ [] := by
    intro empty
    apply unsound
    apply offenders_eq_nil_iff.mp
    apply List.eq_nil_of_length_eq_zero
    rw [← length_problems, empty, List.length_nil]
  rw [verdict, if_neg (by simpa using some), problemLines, List.map_map]
  rfl

/-- The exit status tells whether the table is sound. -/
theorem ending_verdict (path : Path) (entries : List (Entry Int)) :
    (verdict path entries).ending = .ok (if (offenders entries).length = 0 then 0 else 1) := by
  by_cases sound : Sound entries
  · rw [verdict_of_sound path sound, offenders_eq_nil_iff.mpr sound]
    rfl
  · have some : (offenders entries).length ≠ 0 := by
      intro none
      exact sound (offenders_eq_nil_iff.mp (List.eq_nil_of_length_eq_zero none))
    rw [verdict_of_not_sound path sound, if_neg some]
    rfl

end Outcome

theorem run_eq_ofContent (requested : Request.read arguments = .ok (.check verbose file))
    (named : '\x00' ∉ file.toList) :
    run read arguments =
      Outcome.ofContent verbose (Path.ofText file) (read (Path.ofText file)) := by
  rw [run, requested]
  dsimp only
  rw [Request.run, if_neg named]

/-- A request to check a file that can be read as text ends with the verdict on its table. -/
theorem run_check (requested : Request.read arguments = .ok (.check verbose file))
    (named : '\x00' ∉ file.toList) (content : read (Path.ofText file) = .ok octets)
    (decoded : Text.Utf8.decode octets = .ok text) :
    run read arguments =
      (Outcome.verdict (Path.ofText file)
        (Table.read (String.ofList (Text.unifyNewlines text)))).withNotes verbose
          (Table.notes (Table.read (String.ofList (Text.unifyNewlines text)))) := by
  have entries : Outcome.entriesOf octets =
      .ok (Table.read (String.ofList (Text.unifyNewlines text))) := by
    rw [Outcome.entriesOf, decoded]
    rfl
  rw [run_eq_ofContent requested named, content, Outcome.ofContent, entries]

/-- A run that comes to a verdict ends well, or with status one and at least one line that says
why. -/
def Concludes (outcome : Outcome) : Prop :=
  outcome.ending = .ok 0 ∨
    outcome.ending = .ok 1 ∧ ∃ lines, lines ≠ [] ∧ outcome.stderr = joinLines lines

theorem joinLines_append (lines lines' : List String) :
    joinLines (lines ++ lines') = joinLines lines ++ joinLines lines' := by
  rw [joinLines, List.map_append, String.join_append]
  rfl

theorem concludes_verdict (path : Path) (entries : List (Entry Int)) :
    Concludes (Outcome.verdict path entries) := by
  by_cases sound : Sound entries
  · rw [Outcome.verdict_of_sound path sound]
    exact Or.inl rfl
  · rw [Outcome.verdict_of_not_sound path sound]
    exact Or.inr ⟨rfl, _, List.concat_ne_nil _ _, rfl⟩

theorem not_concludes_crashed (fault : Fault) : ¬Concludes (.crashed fault) := by
  rintro (well | ⟨ill, -⟩)
  · cases well
  · cases ill

/-- Notes are lines before the others. -/
theorem Concludes.withNotes {outcome : Outcome} (concludes : Concludes outcome) (verbose : Bool)
    (notes : List Note) : Concludes (outcome.withNotes verbose notes) := by
  obtain well | ⟨ill, lines, some, written⟩ := concludes
  · exact Or.inl ((outcome.ending_withNotes verbose notes).trans well)
  · refine Or.inr ⟨(outcome.ending_withNotes verbose notes).trans ill, ?_⟩
    cases verbose with
    | false => exact ⟨lines, some, written⟩
    | true =>
      refine ⟨notes.map (fun note => note.channel ++ ": " ++ note.text) ++ lines,
        List.append_ne_nil_of_right_ne_nil _ some, ?_⟩
      rw [joinLines_append, joinLines, List.map_map, ← written]
      rfl

/-- Nothing catches what is wrong with octets that are no text. -/
theorem run_check_malformed {cause : Text.Utf8.Malformed}
    (requested : Request.read arguments = .ok (.check verbose file))
    (named : '\x00' ∉ file.toList) (content : read (Path.ofText file) = .ok octets)
    (malformed : Text.Utf8.decode octets = .error cause) :
    run read arguments = .crashed (.malformed cause) := by
  have entries : Outcome.entriesOf octets = .error cause := by
    rw [Outcome.entriesOf, malformed]
    rfl
  rw [run_eq_ofContent requested named, content, Outcome.ofContent, entries]

/-- The check command comes to a verdict on a file exactly if its octets are those of a text. On any
other it ends with a fault, which names the first octet that begins no character behind the
characters before it. -/
theorem run_concludes_iff (requested : Request.read arguments = .ok (.check verbose file))
    (named : '\x00' ∉ file.toList) (content : read (Path.ofText file) = .ok octets) :
    (Concludes (run read arguments) ↔
      ∃ text : List Char, octets = text.flatMap String.utf8EncodeChar) ∧
    ((¬∃ text : List Char, octets = text.flatMap String.utf8EncodeChar) →
      ∃ (cause : Text.Utf8.Malformed) (text : List Char) (rest : List UInt8),
        octets = text.flatMap String.utf8EncodeChar ++ cause.first :: rest ∧
        cause.start = (text.flatMap String.utf8EncodeChar).length ∧
        (∀ c more, cause.first :: rest ≠ String.utf8EncodeChar c ++ more) ∧
        run read arguments = .crashed (.malformed cause)) := by
  cases decoded : Text.Utf8.decode octets with
  | ok text =>
    have own := Text.Utf8.decode_eq_ok_iff.mp decoded
    refine ⟨⟨fun _ => ⟨text, own⟩, fun _ => ?_⟩, fun none => absurd ⟨text, own⟩ none⟩
    rw [run_check requested named content decoded]
    exact (concludes_verdict _ _).withNotes verbose _
  | error cause =>
    have crashed := run_check_malformed requested named content decoded
    refine ⟨⟨fun concludes => ?_, ?_⟩, fun _ => ?_⟩
    · rw [crashed] at concludes
      exact absurd concludes (not_concludes_crashed _)
    · rintro ⟨text, own⟩
      rw [Text.Utf8.decode_eq_ok_iff.mpr own] at decoded
      cases decoded
    · obtain ⟨text, rest, split, start, none⟩ := Text.Utf8.decode_eq_error decoded
      exact ⟨cause, text, rest, split, start, none, crashed⟩

/-- A character of two octets in a comment, behind a declaration that repeats a name. -/
theorem run_concludes_iff_accented :
    let octets := "/v/:a/:a # répété".toList.flatMap String.utf8EncodeChar
    let read : Path → Except FileFault (List UInt8) := fun _ => .ok octets
    Request.read ["check", "routes"] = .ok (.check false "routes") ∧
    '\x00' ∉ "routes".toList ∧
    read (Path.ofText "routes") = .ok octets ∧
    Concludes (run read ["check", "routes"]) := by
  intro octets read
  have requested : Request.read ["check", "routes"] = .ok (.check false "routes") :=
    Request.read_check (by decide)
  have named : '\x00' ∉ "routes".toList := by decide
  have content : read (Path.ofText "routes") = .ok octets := rfl
  exact ⟨requested, named, content,
    (run_concludes_iff requested named content).1.mpr ⟨_, rfl⟩⟩

/-- An octet that begins no character is found in the file, and no verdict. -/
theorem not_concludes_of_lone_octet :
    let read : Path → Except FileFault (List UInt8) := fun _ => .ok [0xff]
    run read ["check", "r"] = .crashed (.malformed ⟨0, 1, 0xff, .invalidStart⟩) ∧
      ¬Concludes (run read ["check", "r"]) := by
  intro read
  have requested : Request.read ["check", "r"] = .ok (.check false "r") :=
    Request.read_check (by decide)
  have content : read (Path.ofText "r") = .ok [0xff] := rfl
  have malformed : Text.Utf8.decode [0xff] = .error ⟨0, 1, 0xff, .invalidStart⟩ := by
    rw [Text.Utf8.decode, Text.Utf8.decodeFrom]
    rfl
  have crashed := run_check_malformed requested (by decide) content malformed
  rw [crashed]
  exact ⟨rfl, not_concludes_crashed _⟩

end Routebook.Command
