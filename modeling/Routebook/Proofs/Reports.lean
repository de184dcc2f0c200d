import Mathlib.Data.List.Induction
import Routebook.Command.Run
import Routebook.Proofs.Matching
import Routebook.Proofs.RoundTrip
import Routebook.Proofs.Tiling

/-!
# Reports

The compile command tells of a route what the route answers, in lines or as JSON. Both renderings
tell each path once, where it first comes; the JSON can be read back, and a line says of a path that
there is no match exactly if the JSON has null for it. A template that names a parameter twice gives
no report.
-/
namespace Routebook

/-- Parameters come under the keys in their order, and under each key once. -/
theorem Route.keys_of_params? {template path : String} {route : Route}
    {params : List (String × String)} (compiled : Route.compile template = .ok route)
    (differ : Template.NamesDiffer template) (took : route.params? path = some params) :
    params.map Prod.fst = route.keys ∧ (params.map Prod.fst).Nodup := by
  obtain ⟨found, answer, rfl⟩ := Option.map_eq_some_iff.mp took
  have keys := (Route.params_of_match? compiled answer).2.2.1
  refine ⟨keys, ?_⟩
  rw [keys, (Route.compile_eq_ok compiled).2.2.1]
  exact Template.namesDiffer_iff.mp differ

namespace Command

/-- The members of a list once each, in the order in which they first come. -/
structure FirstComers (all distinct : List String) : Prop where
  mem_iff : ∀ path, path ∈ distinct ↔ path ∈ all
  ordered : distinct.Pairwise fun before after => all.idxOf before < all.idxOf after

theorem FirstComers.nodup {all distinct : List String} (comers : FirstComers all distinct) :
    distinct.Nodup := by
  refine comers.ordered.imp ?_
  rintro path _ below rfl
  exact Nat.lt_irrefl _ below

theorem firstComers_eraseDups (all : List String) : FirstComers all all.eraseDups := by
  refine ⟨fun _ => List.mem_eraseDups, ?_⟩
  -- From the right, since a path that comes last does not change which ones come before it.
  induction all using List.reverseRecOn with
  | nil => exact .nil
  | append_singleton all last ih =>
    have kept (path : String) (member : path ∈ all.eraseDups) :
        (all ++ [last]).idxOf path = all.idxOf path :=
      List.idxOf_append_of_mem (List.mem_eraseDups.mp member)
    rw [List.eraseDups_append, List.pairwise_append]
    refine ⟨ih.imp_of_mem ?_, ?_, ?_⟩
    · intro before after first second below
      rwa [kept before first, kept after second]
    -- Of the last path alone there is nothing left, or it itself.
    · by_cases old : last ∈ all <;> simp [List.removeAll, old, List.eraseDups_cons]
    · intro before first after second
      rw [List.mem_eraseDups, List.removeAll, List.mem_filter, List.mem_singleton] at second
      obtain ⟨rfl, new⟩ := second
      have fresh : after ∉ all := by simpa using new
      have inside := List.idxOf_lt_length_of_mem (List.mem_eraseDups.mp first)
      rw [kept before first, List.idxOf_append_of_notMem fresh]
      omega

namespace Report

variable {route : Route} {paths : List String}

/-! ### As JSON -/

theorem toTree_ofPaths : (ofPaths route paths).toTree = .record [
    ("template", .text route.template), ("pattern", .text route.pattern),
    ("keys", .list (route.keys.map .text)),
    ("matches", .record (paths.eraseDups.map fun path =>
      (path, ((route.params? path).map Tree.ofTexts).getD .null)))] := by
  rw [toTree, ofPaths]
  dsimp only
  rw [List.map_map]
  rfl

/-- A report on a route whose parameters come under different keys is plain data. -/
theorem isPlain_toTree
    (unique : ∀ path params, route.params? path = some params → (params.map Prod.fst).Nodup) :
    (ofPaths route paths).toTree.IsPlain := by
  rw [toTree_ofPaths]
  -- Members of one record have different keys: distinct paths, and the keys of the route.
  have keys : (Tree.list (route.keys.map .text)).IsPlain := by
    apply Tree.IsPlain.list
    intro item member
    obtain ⟨key, -, rfl⟩ := List.mem_map.mp member
    exact .text key
  have matched : (Tree.record (paths.eraseDups.map fun path =>
      (path, ((route.params? path).map Tree.ofTexts).getD .null))).IsPlain := by
    apply Tree.IsPlain.record
    · rw [List.map_map]
      change (paths.eraseDups.map id).Nodup
      rw [List.map_id]
      exact (firstComers_eraseDups paths).nodup
    · intro field member
      obtain ⟨path, -, rfl⟩ := List.mem_map.mp member
      dsimp only
      cases took : route.params? path with
      | none => exact .null
      | some params =>
        apply Tree.IsPlain.record
        · rw [List.map_map]
          exact unique path params took
        · intro param own
          obtain ⟨taken, -, rfl⟩ := List.mem_map.mp own
          exact .text taken.2
  apply Tree.IsPlain.record
  · change ["template", "pattern", "keys", "matches"].Nodup
    decide
  · simp only [List.forall_mem_cons]
    exact ⟨.text _, .text _, keys, matched, nofun⟩

/-- The JSON of a report is ASCII and is read as the report, with the line feed after it. -/
theorem toJson_ok {report : Report} (plain : report.toTree.IsPlain) :
    ∃ text, report.toJson = .ok text ∧ (∀ c ∈ (text ++ "\n").toList, c.toNat < 0x80) ∧
      Json.read? (text ++ "\n") = some report.toTree := by
  obtain ⟨text, rendered, written⟩ := Json.writes_of_isPlain Json.indented_separates plain 0
  have blank : ∀ c ∈ ['\n'], Json.isJsonBlank c = true := List.forall_mem_singleton.mpr rfl
  refine ⟨String.ofList text, ?_, ?_, ?_⟩
  · rw [toJson, Json.write, rendered]
    rfl
  · rw [String.toList_append, String.toList_ofList, List.forall_mem_append]
    exact ⟨written.ascii, List.forall_mem_singleton.mpr (by decide)⟩
  · have found := Json.read?_of_written_append written blank
    rwa [String.ofList_append] at found

/-! ### In lines -/

/-- Only a path that is not matched is said to have no match. -/
theorem outcome_eq_noMatch_iff (params : Option (List (String × String))) :
    outcome params = "no match" ↔ params = none := by
  match params with
  | none => exact ⟨fun _ => rfl, fun _ => rfl⟩
  | some [] => exact ⟨fun same => absurd same (by decide), nofun⟩
  | some ((key, value) :: rest) =>
    refine ⟨fun same => ?_, nofun⟩
    -- A parameter is told with an equals sign.
    have sign : '=' ∈ (outcome (some ((key, value) :: rest))).toList := by
      change '=' ∈ (String.intercalate " " ((key ++ "=" ++ value) :: _)).toList
      rw [String.toList_intercalate, List.map_cons]
      cases rest <;> simp [List.intercalate_cons_cons]
    rw [same] at sign
    exact absurd sign (by decide)

theorem le_foldl_width {outcomes : List (String × Option (List (String × String)))} (least : Nat) :
    least ≤ outcomes.foldl (fun width told => max width told.1.length) least ∧
      ∀ told ∈ outcomes,
        told.1.length ≤ outcomes.foldl (fun width told => max width told.1.length) least := by
  induction outcomes generalizing least with
  | nil => exact ⟨Nat.le_refl _, nofun⟩
  | cons told outcomes ih =>
    obtain ⟨above, others⟩ := ih (max least told.1.length)
    rw [List.foldl_cons]
    refine ⟨Nat.le_trans (Nat.le_max_left _ _) above, List.forall_mem_cons.mpr ⟨?_, others⟩⟩
    exact Nat.le_trans (Nat.le_max_right _ _) above

/-- After a heading there is a row for each path, with what it came to in one column. -/
theorem lines_ofPaths (route : Route) (paths : List String) :
    ∃ width, (∀ path ∈ paths.eraseDups, path.length ≤ width) ∧
      (ofPaths route paths).lines =
        ["TEMPLATE  " ++ route.template, "PATTERN   " ++ route.pattern,
          "KEYS      " ++ keysLine route.keys] ++
        if paths.eraseDups = [] then []
        else String.ofList (List.replicate (min (width + 12) greatestRule) '-') ::
          paths.eraseDups.map fun path => row width path (route.params? path) := by
  refine ⟨(ofPaths route paths).outcomes.foldl (fun width told => max width told.1.length) 0,
    ?_, ?_⟩
  · intro path member
    exact (le_foldl_width 0).2 (path, route.params? path) (List.mem_map.mpr ⟨path, member, rfl⟩)
  · rw [lines]
    by_cases empty : paths.eraseDups = []
    · rw [if_pos (by rw [ofPaths, empty]; rfl), if_pos empty, List.append_nil]
      rfl
    · have some : ¬(ofPaths route paths).outcomes.isEmpty = true := by simpa [ofPaths] using empty
      rw [if_neg some, if_neg empty]
      simp only [ofPaths, List.map_map]
      rfl

end Report

/-! ### The command -/

variable {read : Path → Except FileFault (List UInt8)} {verbose json : Bool} {template : String}
  {route : Route}

/-- A template without a route has no report. -/
theorem run_compile_of_error {cause : RepeatedParameter}
    (failed : Route.compile template = .error cause) (paths : List (Option String)) :
    let outcome := (Request.compile verbose template paths json).run read
    outcome.stdout = "" ∧ outcome.ending = .ok 1 := by
  intro outcome
  have refused : outcome =
      (Outcome.refused ("Error: " ++ cause.message ++ "\n")).withNotes verbose
        (Note.ofTemplate template) := by
    change Outcome.withNotes verbose _ _ = _
    rw [Outcome.ofTemplate, failed]
  rw [refused, Outcome.stdout_withNotes, Outcome.ending_withNotes]
  exact ⟨rfl, rfl⟩

theorem mapM_some (paths : List String) : (paths.map some).mapM id = some paths := by
  induction paths with
  | nil => rfl
  | cons path paths ih =>
    rw [List.map_cons, List.mapM_cons, ih]
    rfl

/-- All that a route's report puts on the standard output, for paths that are all there. -/
theorem run_compile_of_ok (read : Path → Except FileFault (List UInt8)) (verbose : Bool)
    {paths : List String} {text : String} (compiled : Route.compile template = .ok route)
    (told : Outcome.report route (paths.map some) json = .printed text) :
    let outcome := (Request.compile verbose template (paths.map some) json).run read
    outcome.stdout = text ∧ outcome.ending = .ok 0 := by
  intro outcome
  have printed : outcome = (Outcome.printed text).withNotes verbose (Note.ofTemplate template) := by
    change Outcome.withNotes verbose _ _ = _
    rw [Outcome.ofTemplate, compiled]
    dsimp only
    rw [told]
  rw [printed, Outcome.stdout_withNotes, Outcome.ending_withNotes]
  exact ⟨rfl, rfl⟩

end Command

end Routebook
