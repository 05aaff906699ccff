import FormTemplate.Proofs.Form.Directory
import FormTemplate.Proofs.Render.Trailer

/-!
# The parameters that the end of a form keeps

The values of the controls of a GET form take the place of the query of its
action. So the end of the form should carry a parameter of the query in a
hidden input exactly when no control is submitted under its name. It asks
the root for a component of the name instead, which differs in two ways: a
container of the name submits nothing, and a control in a container submits
under a name with brackets, by which the root does not know it. The main
statement (`renderEnd_keeps_parameters`) says which parameters are kept, and
that these two are the only ones that go wrong.
-/

namespace FormTemplate

namespace Form

open Markup

variable {f : Form}

/-- The names under which the controls of a form are submitted. -/
def submittedNames (f : Form) : List Text := (f.root.controls true).map Control.htmlName

/-- A parameter of this name is lost: the root has a container of the name,
and no control is submitted under it. -/
def Loses (f : Form) (name : Text) : Prop :=
  (∃ d, f.root.container name = .ok d) ∧ name ∉ f.submittedNames

/-- A parameter of this name is doubled: a control in a container is
submitted under the name, and the root has no component of it. -/
def Doubles (f : Form) (name : Text) : Prop :=
  f.root.contains name = false ∧
    ∃ outer inner path c, f.root.controlAt (outer :: inner :: path) = .ok c ∧
      c.htmlName = name ∧ name = outer ++ Component.bracketed (inner :: path)

/-! ## Names that the root knows -/

theorem mem_submittedNames (haddressed : f.root.Addressed) {name : Text} :
    name ∈ f.submittedNames ↔ ∃ path c, f.root.controlAt path = .ok c ∧ c.htmlName = name := by
  simp only [submittedNames, List.mem_map, haddressed.mem_controls_iff]
  constructor
  · rintro ⟨c, ⟨path, hc⟩, hname⟩
    exact ⟨path, c, hc, hname⟩
  · rintro ⟨path, c, hc, hname⟩
    exact ⟨c, ⟨path, hc⟩, hname⟩

/-- A component of the root is a control that is submitted under its name,
or a container. -/
theorem contains_eq_true (haddressed : f.root.Addressed)
    (hroot : ∀ name, f.root.naming.htmlName name = name) {name : Text} :
    f.root.contains name = true ↔
      (∃ c, f.root.control name = .ok c ∧ c.htmlName = name) ∨
        ∃ d, f.root.container name = .ok d := by
  rw [Container.contains, Option.isSome_iff_exists]
  constructor
  · rintro ⟨d, hd⟩
    cases d with
    | control c =>
      have hc : f.root.control name = .ok c := Container.control_eq_ok.2 hd
      have hat : f.root.controlAt [name] = .ok c := hc
      have hname := haddressed.htmlName_controlAt hroot hat
      exact .inl ⟨c, hc, hname.trans (List.append_nil name)⟩
    | container inner naming cs =>
      exact .inr ⟨⟨inner, naming, cs⟩, Container.container_eq_ok.2 hd⟩
  · rintro (⟨c, hc, -⟩ | ⟨d, hd⟩)
    · exact ⟨_, Container.control_eq_ok.1 hc⟩
    · exact ⟨_, Container.container_eq_ok.1 hd⟩

/-- **A parameter is left out though nothing submits it exactly when it is
lost.** -/
theorem loses_iff (haddressed : f.root.Addressed)
    (hroot : ∀ name, f.root.naming.htmlName name = name) {name : Text} :
    f.Loses name ↔ f.root.contains name = true ∧ name ∉ f.submittedNames := by
  rw [Loses, contains_eq_true haddressed hroot]
  refine and_congr_left fun hnone => ⟨.inr, fun h => h.resolve_left ?_⟩
  rintro ⟨c, hc, hname⟩
  exact hnone ((mem_submittedNames haddressed).2 ⟨[name], c, hc, hname⟩)

/-- **A parameter is kept though a control submits it exactly when it is
doubled.** -/
theorem doubles_iff (haddressed : f.root.Addressed)
    (hroot : ∀ name, f.root.naming.htmlName name = name) {name : Text} :
    f.Doubles name ↔ f.root.contains name = false ∧ name ∈ f.submittedNames := by
  rw [Doubles, mem_submittedNames haddressed]
  refine and_congr_right fun hfree => ⟨?_, ?_⟩
  · rintro ⟨outer, inner, path, c, hc, hname, -⟩
    exact ⟨_, c, hc, hname⟩
  · rintro ⟨path, c, hc, rfl⟩
    match path with
    | [] => simp [Container.controlAt] at hc
    | [name] =>
      -- The root knows a control of its own by its page name.
      have hname := haddressed.htmlName_controlAt hroot hc
      rw [Component.bracketed, List.flatMap_nil, List.append_nil] at hname
      have hcontains := (contains_eq_true haddressed hroot).2 (.inl ⟨c, hname ▸ hc, rfl⟩)
      exact absurd hcontains (hfree ▸ Bool.false_ne_true)
    | outer :: inner :: path =>
      exact ⟨outer, inner, path, c, hc, rfl, haddressed.htmlName_controlAt hroot hc⟩

/-! ## What is kept -/

theorem mem_keptParameters (hget : f.isGet = true) {p : Text × Text} (hp : p ∈ f.parameters) :
    p ∈ f.keptParameters ↔ f.root.contains p.1 = false := by
  rw [keptParameters_of_isGet hget, List.mem_filter, and_iff_right hp, Bool.not_eq_true']

/-- **The end of a GET form keeps the parameters that the root has no
component for**, in the order of the query and as often as they stand in it,
each in a hidden input of its own in front of what else it prints. A
parameter is left out though nothing submits it exactly when it is lost, and
kept though a control submits it exactly when it is doubled; so the end
keeps what the controls do not submit unless a parameter of the query is one
of these. -/
theorem renderEnd_keeps_parameters (hbuilt : f.root.unmarked.Built) (hget : f.isGet = true) :
    ∃ (kept : List (Text × Text)) (others : Text),
      f.renderEnd =
        (if kept.flatMap (inputTag ∘ parameterAttributes) ++ others = [] then []
          else "<div>".toList ++ (kept.flatMap (inputTag ∘ parameterAttributes) ++ others) ++
            "</div>\n".toList) ++ f.element.endTag ++ ['\n'] ∧
      others = f.pendingHidden.flatMap (fun c => (c.render []).source) ++
        (if f.textInputCount < 2 then legacyMarker else []) ∧
      kept = f.parameters.filter (fun p => !f.root.contains p.1) ∧
      (∀ p ∈ f.parameters, (p ∉ kept ∧ p.1 ∉ f.submittedNames ↔ f.Loses p.1) ∧
        (p ∈ kept ∧ p.1 ∈ f.submittedNames ↔ f.Doubles p.1)) ∧
      (kept = f.parameters.filter (fun p => p.1 ∉ f.submittedNames) ↔
        ∀ p ∈ f.parameters, ¬f.Loses p.1 ∧ ¬f.Doubles p.1) := by
  have haddressed : f.root.Addressed := Container.addressed_unmarked.1 hbuilt.addressed
  have hroot : ∀ name, f.root.naming.htmlName name = name := hbuilt.htmlName
  have hwrong : ∀ p ∈ f.parameters,
      (p ∉ f.keptParameters ∧ p.1 ∉ f.submittedNames ↔ f.Loses p.1) ∧
        (p ∈ f.keptParameters ∧ p.1 ∈ f.submittedNames ↔ f.Doubles p.1) := by
    intro p hp
    rw [mem_keptParameters hget hp, loses_iff haddressed hroot, doubles_iff haddressed hroot,
      Bool.not_eq_false]
    exact ⟨Iff.rfl, Iff.rfl⟩
  refine ⟨f.keptParameters, _, renderEnd_eq_ending f, rfl, keptParameters_of_isGet hget, hwrong,
    ?_, ?_⟩
  · intro heq p hp
    have hsubmitted : p ∈ f.keptParameters ↔ p.1 ∉ f.submittedNames := by
      rw [heq, List.mem_filter, and_iff_right hp, decide_eq_true_eq]
    obtain ⟨hloses, hdoubles⟩ := hwrong p hp
    rw [← hloses, ← hdoubles, hsubmitted]
    exact ⟨fun h => h.1 h.2, fun h => h.1 h.2⟩
  · intro hright
    rw [keptParameters_of_isGet hget]
    refine List.filter_congr fun p hp => ?_
    obtain ⟨hloses, hdoubles⟩ := hright p hp
    rw [loses_iff haddressed hroot] at hloses
    rw [doubles_iff haddressed hroot] at hdoubles
    cases hcontains : f.root.contains p.1 with
    | false => simpa [hcontains] using hdoubles
    | true => simpa [hcontains] using hloses

/-- A form that searches by city, with an action that a search was made
with. -/
def searchForm : Form where
  root := (Container.root ['f']).addAll
    [.container "address".toList [.control "city".toList .text {}],
      .control "q".toList .text {}]
  element := (((Form.create ['f']).setMethod "get".toList).setAction
    "/s?address=1&address[city]=2&q=3&page=4".toList).element

/-- The parameter of the container is lost, and the one of the city stands
in the next query twice. -/
theorem renderEnd_keeps_parameters_of_container :
    searchForm.root.unmarked.Built ∧ searchForm.isGet = true ∧
      searchForm.parameters = [("address".toList, "1".toList), ("address[city]".toList, "2".toList),
        ("q".toList, "3".toList), ("page".toList, "4".toList)] ∧
      searchForm.submittedNames = ["address[city]".toList, "q".toList] ∧
      searchForm.keptParameters =
        [("address[city]".toList, "2".toList), ("page".toList, "4".toList)] ∧
      searchForm.Loses "address".toList ∧ searchForm.Doubles "address[city]".toList := by
  have hbuilt : searchForm.root.unmarked.Built := ⟨_, _, rfl⟩
  have hget : searchForm.isGet = true := by decide +kernel
  have hkept : searchForm.parameters.filter (fun p => !searchForm.root.contains p.1) =
      [("address[city]".toList, "2".toList), ("page".toList, "4".toList)] := by decide +kernel
  obtain ⟨kept, others, -, -, rfl, hwrong, -⟩ := renderEnd_keeps_parameters hbuilt hget
  rw [hkept] at hwrong
  refine ⟨hbuilt, hget, by decide +kernel, by decide +kernel, by decide +kernel, ?_, ?_⟩
  · exact (hwrong ("address".toList, "1".toList) (by decide +kernel)).1.1 (by decide +kernel)
  · exact (hwrong ("address[city]".toList, "2".toList) (by decide +kernel)).2.1 (by decide +kernel)

end Form

end FormTemplate
