import Routebook.Navigation
import Routebook.Proofs.Carriers
import Routebook.Proofs.Merging
import Routebook.Proofs.Recovery

/-!
# Arrival

A navigation brings values from the address to the page. The location gives back the filled
template however its characters were escaped, the route recovers the values, and the page has them
as props, in the order of the keys, with extra props put over them.
-/
namespace Routebook

namespace Template

/-- A value and what follows it do not begin with a separator. -/
theorem head_of_value {value : String} (proper : IsValue value) (rest : List Char) :
    (value.toList ++ rest).head? ≠ some Pattern.separator := by
  cases chars : value.toList with
  | nil => exact absurd (String.toList_eq_nil_iff.mp chars) proper.1
  | cons c more =>
    intro slash
    apply proper.2
    rw [chars, ← Option.some.inj slash]
    exact List.mem_cons_self

/-- If a filled template begins with a separator, then so does the template. -/
theorem head_of_fill {segments : List Segment} {values : List String}
    (count : values.length = segments.countP (·.isParam))
    (proper : ∀ value ∈ values, IsValue value)
    (slash : (fill segments values).toList.head? = some Pattern.separator) :
    (segments.flatMap (·.text.toList)).head? = some Pattern.separator := by
  induction segments generalizing values with
  | nil => cases slash
  | cons segment segments ih =>
    cases kind : segment.isParam with
    | true =>
      cases values with
      | nil => simp [kind] at count
      | cons value values =>
        rw [fill_cons_of_param _ _ _ kind, String.toList_append] at slash
        exact absurd slash (head_of_value (proper value List.mem_cons_self) _)
    | false =>
      rw [fill_cons_of_literal _ _ kind, String.toList_append] at slash
      rw [List.flatMap_cons]
      cases chars : segment.text.toList with
      | nil =>
        -- An empty literal leaves the first character to what follows.
        rw [chars] at slash
        exact ih (by simpa [kind] using count) proper slash
      | cons c more =>
        rw [chars] at slash
        exact slash

/-- A filled template is absolute if the template is, and no second separator comes up. -/
theorem fill_absolute {segments : List Segment} {values : List String} {rest : List Char}
    (coherent : ∀ segment ∈ segments, Coherent segment)
    (count : values.length = segments.countP (·.isParam))
    (proper : ∀ value ∈ values, IsValue value)
    (absolute : segments.flatMap (·.text.toList) = Pattern.separator :: rest)
    (single : rest.head? ≠ some Pattern.separator) :
    ∃ more, (fill segments values).toList = Pattern.separator :: more ∧
      more.head? ≠ some Pattern.separator := by
  induction segments with
  | nil => cases absolute
  | cons segment segments ih =>
    obtain ⟨own, coherent⟩ := List.forall_mem_cons.mp coherent
    rw [List.flatMap_cons] at absolute
    cases kind : segment.isParam with
    | true =>
      -- A parameter begins with a colon, so the template would not be absolute.
      obtain ⟨name, colon⟩ := own.colon kind
      rw [colon] at absolute
      cases absolute
    | false =>
      have count : values.length = segments.countP (·.isParam) := by simpa [kind] using count
      rw [fill_cons_of_literal _ _ kind, String.toList_append]
      cases chars : segment.text.toList with
      | nil =>
        rw [chars] at absolute
        exact ih coherent count absolute
      | cons c more =>
        rw [chars, List.cons_append] at absolute
        obtain ⟨rfl, rfl⟩ := List.cons.inj absolute
        refine ⟨_, rfl, fun slash => single ?_⟩
        -- The second character is the template's own unless this literal is one separator alone.
        cases more with
        | nil => exact head_of_fill count proper slash
        | cons d more => exact slash

end Template

namespace Page

/-- Props put over the parameters of a match. -/
theorem mergeProps_texts (params : List (String × String)) (extra : Entries Tree)
    (unique : (params.map Prod.fst).Nodup) (distinct : extra.Distinct) :
    mergeProps Tree.lens (.ofTexts params) (some (.dict extra)) =
      .ok (params.map (fun param =>
          (.text param.1, (extra.find? (.text param.1)).getD (.text param.2))) ++
        extra.filter fun entry => decide (∀ name ∈ params.map Prod.fst, entry.1 ≠ .text name)) := by
  let fields := params.map fun param => (param.1, Tree.text param.2)
  have names : fields.map Prod.fst = params.map Prod.fst := by
    rw [List.map_map]
    rfl
  have merged : mergeProps Tree.lens (.ofTexts params) (some (.dict extra)) =
      .ok (Entries.putAll (Entries.texts fields) extra) := by
    cases extra with
    | nil => rfl
    | cons entry rest => rfl
  rw [merged, Entries.putAll_texts (names ▸ unique) distinct, names]
  simp [Entries.texts, Entries.override, Entries.others, fields]

theorem ofMatch_eq_ok {config : Config Tree} {found : Match} {component : Tree}
    {props : Option Tree} {merged : Entries Tree}
    (taken : mergeProps Tree.lens (.ofTexts found.params) props = .ok merged) :
    ofMatch config found component props =
      .ok ⟨component, .dict merged, .text found.path, config.version⟩ := by
  rw [ofMatch, taken]
  rfl

end Page

/-- A navigation succeeds if its steps do: location, match and page, in this order. -/
theorem navigate_eq_ok {route : Route} {config : Config Tree} {base : Option String}
    {href path : String} {found : Match} {component : Tree} {props : Option Tree} {page : Page Tree}
    (located : Location.toPath config base href = .ok path)
    (matched : route.match? path = some found)
    (made : Page.ofMatch config found component props = .ok page) :
    navigate route config base href component props = .ok ⟨path, some page⟩ := by
  unfold navigate
  rw [located]
  dsimp only [bind, Except.bind]
  rw [matched]
  dsimp only
  rw [made]
  rfl

open Template in
/-- Values travel from an address to a page. A template that is absolute and whose parameters are
separated is filled with values; the path is encoded in any way and put into the query of a shell.
Then the location is the path, the route matches it, and the page has every value as a prop in the
order of the keys, unless an extra prop is put over it, and then all other extra props. A navigation
to the address arrives at this path and this page. -/
theorem filled_path_arrives {template path index directory encoded href : String}
    {segments : List Segment} {route : Route} {values : List String} {config : Config Tree}
    {extra : Entries Tree}
    (parsed : parse template = .ok segments) (compiled : Route.compile template = .ok route)
    (absolute : ['/'] <+: template.toList) (single : ¬['/', '/'] <+: template.toList)
    (separated : Separated segments)
    (count : values.length = route.keys.length) (proper : ∀ value ∈ values, IsValue value)
    (filled : path = fill segments values)
    (named : config.indexFile = .text index) (kept : index = "" ∨ ¬index.toList <:+ path.toList)
    (free : '?' ∉ directory.toList)
    (encodes : Text.Percent.Encodes path.toList encoded.toList)
    (shell : href =
      "file:///" ++ directory ++ "?" ++ config.urlParam.plainText ++ "=" ++ encoded)
    (distinct : extra.Distinct) (base : Option String) (component : Tree) :
    ∃ page : Page Tree, page = {
        component
        props := .dict ((route.keys.zip values).map (fun param =>
            (.text param.1, (extra.find? (.text param.1)).getD (.text param.2))) ++
          extra.filter fun entry => decide (∀ key ∈ route.keys, entry.1 ≠ .text key))
        url := .text path
        version := config.version } ∧
      Location.toPath config base href = .ok path ∧
      (∃ found, route.match? path = some found ∧
        Page.ofMatch config found component (some (.dict extra)) = .ok page) ∧
      navigate route config base href component (some (.dict extra)) = .ok ⟨path, some page⟩ := by
  obtain ⟨rfl, unique⟩ := parse_eq_ok parsed
  obtain ⟨-, -, keys, -, -⟩ := Route.compile_eq_ok compiled
  have size : values.length = (segments template).countP (·.isParam) := by
    rw [count, keys, count_keys]
  obtain ⟨rest, slash, head⟩ := Location.absolute_iff.mp ⟨absolute, single⟩
  have coherent : ∀ segment ∈ segments template, Coherent segment :=
    fun _ member => coherent_of_mem_place member
  have joined : (segments template).flatMap (·.text.toList) = Pattern.separator :: rest :=
    (flatMap_text_segments template).trans slash
  obtain ⟨more, shape, one⟩ := fill_absolute coherent size proper joined head
  have shape : path.toList = '/' :: more := by
    rw [filled]
    exact shape
  have decomposes : Decomposition (segments template) values path := ⟨size, proper, Or.inl filled⟩
  have located : Location.toPath config base href = .ok path := by
    have ending : index.toList = [] ∨ ¬index.toList <:+ path.toList :=
      kept.imp_left fun empty => by rw [empty]; rfl
    rw [shape] at ending
    rw [shell, Location.toPath_of_query named free base, Text.Percent.decode_of_encodes encodes,
      shape, Location.settle_of_absolute ending one, ← shape, String.ofList_toList]
  have matched := Route.match?_of_separated compiled separated decomposes
  have names : (route.keys.zip values).map Prod.fst = route.keys := List.map_fst_zip (by omega)
  have own : ((route.keys.zip values).map Prod.fst).Nodup := by
    rw [names, keys]
    exact unique
  have merged := Page.mergeProps_texts (route.keys.zip values) extra own distinct
  rw [names] at merged
  exact ⟨_, rfl, located, ⟨_, matched, Page.ofMatch_eq_ok merged⟩,
    navigate_eq_ok located matched (Page.ofMatch_eq_ok merged)⟩

/-- A value beyond ASCII, one that is a percent sign, and an extra prop under the name of the second
parameter. -/
theorem filled_path_arrives_escaped :
    ∃ route, Route.compile "/:a/:b" = .ok route ∧
      ∃ page : Page Tree, page = {
          component := .text "App"
          props := .dict [(.text "a", .text "é"), (.text "b", .int 1), (.int 2, .null)]
          url := .text "/é/%"
          version := .text "current" } ∧
        Location.toPath Config.standard none "file:///app/?inertia-url=/%C3%a9/%25" =
          .ok "/é/%" ∧
        (∃ found, route.match? "/é/%" = some found ∧
          Page.ofMatch Config.standard found (.text "App")
            (some (.dict [(.text "b", .int 1), (.int 2, .null)])) = .ok page) ∧
        navigate route Config.standard none "file:///app/?inertia-url=/%C3%a9/%25" (.text "App")
            (some (.dict [(.text "b", .int 1), (.int 2, .null)])) = .ok ⟨"/é/%", some page⟩ :=
  have parsed : Template.parse "/:a/:b" = .ok (Template.segments "/:a/:b") := rfl
  have compiled : Route.compile "/:a/:b" = .ok ⟨"/:a/:b", "^/([^/]+)/([^/]+)/?$", ["a", "b"],
      [.start, .char '/', .capture, .char '/', .capture, .optional '/', .finish]⟩ := rfl
  have two : Text.Percent.Escapes [0xC3, 0xA9] ['%', 'C', '3', '%', 'a', '9'] :=
    .cons (by decide) (by decide) (.cons (by decide) (by decide) .nil)
  have one : Text.Percent.Escapes [0x25] ['%', '2', '5'] := .cons (by decide) (by decide) .nil
  have letters : Text.Percent.Encodes ['/', 'é', '/', '%']
      ('/' :: (['%', 'C', '3', '%', 'a', '9'] ++ ('/' :: (['%', '2', '5'] ++ [])))) :=
    .raw (by decide) (.escaped two (.raw (by decide) (.escaped one .nil)))
  have encodes : Text.Percent.Encodes "/é/%".toList "/%C3%a9/%25".toList := letters
  have count : ["é", "%"].length = ["a", "b"].length := rfl
  have proper : ∀ value ∈ ["é", "%"], IsValue value := by decide
  have filled : "/é/%" = Template.fill (Template.segments "/:a/:b") ["é", "%"] := rfl
  have named : Config.standard.indexFile = .text "index.html" := rfl
  have kept : "index.html" = "" ∨ ¬"index.html".toList <:+ "/é/%".toList := Or.inr (by decide)
  have free : '?' ∉ "app/".toList := by decide
  have shell : "file:///app/?inertia-url=/%C3%a9/%25" =
      "file:///" ++ "app/" ++ "?" ++ Config.standard.urlParam.plainText ++ "=" ++
        "/%C3%a9/%25" := by
    decide
  have distinct : Entries.Distinct [(.text "b", Tree.int 1), (.int 2, .null)] := by decide
  ⟨_, compiled, filled_path_arrives parsed compiled (by decide) (by decide) (by decide) count proper
    filled named kept free encodes shell distinct none (.text "App")⟩

end Routebook
