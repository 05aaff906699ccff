import FormTemplate.Proofs.Form.Directory
import FormTemplate.Proofs.Form.StoredPage
import FormTemplate.Proofs.Text.Cutting

/-!
# Controls are told apart by their page names

The page name of a control spells the names that lead to it, and so does its
id. Where no name holds an opening bracket the page name can be read back:
its pieces at the opening brackets are the names, all but the first with a
closing bracket behind (`pieces_bracketed`). No two controls have the same
path, so none have the same page name (`Addressed.nodup_htmlName`). The last
section says it of a form as it is stored, whose containers are entered name
by name (`Storage.LeadTo`).
-/

namespace FormTemplate

namespace Form

variable {path containers : List Text} {name first : Text}

/-! ## Spelled paths -/

open Component

/-- The page name of a control, from the names of the containers that lead to
it and its own: its own name at the root, and else `outer[inner]…[name]`. -/
def pageName : List Text → Text → Text
  | [], name => name
  | outer :: inner, name => outer ++ bracketed inner ++ '[' :: name ++ [']']

/-- Its id, in a form: `frm-form-outer-inner-…-name`. -/
def pageId (form : Text) (containers : List Text) (name : Text) : Text :=
  "frm-".toList ++ form ++ dashed (containers ++ [name])

theorem pageName_cons (outer : Text) (inner : List Text) (name : Text) :
    pageName (outer :: inner) name = outer ++ bracketed (inner ++ [name]) := by
  rw [pageName, bracketed, bracketed, List.flatMap_append, List.flatMap_singleton,
    List.append_assoc, List.append_assoc]

/-- The pieces of a page name at its opening brackets. -/
theorem pieces_bracketed (h : ∀ name ∈ first :: path, '[' ∉ name) :
    Text.pieces (· == '[') (first ++ bracketed path) = first :: path.map (· ++ [']']) := by
  induction path generalizing first with
  | nil =>
    rw [bracketed, List.flatMap_nil, List.append_nil]
    exact Text.pieces_of_not_mem (h first List.mem_cons_self)
  | cons name path ih =>
    obtain ⟨hfirst, hname, hpath⟩ : '[' ∉ first ∧ '[' ∉ name ∧ ∀ name ∈ path, '[' ∉ name := by
      simpa using h
    have hbracketed : bracketed (name :: path) = '[' :: ((name ++ [']']) ++ bracketed path) := rfl
    have hclosed : '[' ∉ name ++ [']'] := by simpa using hname
    rw [hbracketed, Text.pieces_append_cons hfirst, ih (List.forall_mem_cons.2 ⟨hclosed, hpath⟩)]
    rfl

/-- **Paths are read back from what they spell**, if no name holds an opening
bracket. -/
theorem bracketed_inj {first' : Text} {path' : List Text}
    (h : ∀ name ∈ first :: path, '[' ∉ name) (h' : ∀ name ∈ first' :: path', '[' ∉ name)
    (heq : first ++ bracketed path = first' ++ bracketed path') :
    first :: path = first' :: path' := by
  have hpieces := congrArg (Text.pieces (· == '[')) heq
  rw [pieces_bracketed h, pieces_bracketed h'] at hpieces
  obtain ⟨hfirst, hpath⟩ := List.cons.inj hpieces
  rw [hfirst, List.map_injective_iff.2 (List.append_left_injective [']']) hpath]

namespace Container

variable {c : Container}

/-- The names on the paths of a container are those of components in it. -/
theorem exists_of_mem_path {p : List Text × Control} (hp : p ∈ c.directory) (hname : name ∈ p.1) :
    ∃ d ∈ c.walk true, d.name = name := by
  obtain ⟨e, he, hp⟩ := Component.mem_directoryAll.1 hp
  obtain ⟨d, hd, hname⟩ := Component.exists_of_mem_path hp hname
  rw [walk, if_pos rfl, Component.walkAll_eq]
  exact ⟨d, List.mem_flatMap.2 ⟨e, he, hd⟩, hname⟩

/-- **No two controls of a form have the same page name**, if no name in it
holds an opening bracket. -/
theorem Addressed.nodup_htmlName (h : c.Addressed) (hroot : ∀ name, c.naming.htmlName name = name)
    (hnames : ∀ d ∈ c.walk true, '[' ∉ d.name) :
    (c.directory.map fun p => p.2.htmlName).Nodup := by
  have hclean : ∀ p ∈ c.directory, ∀ name ∈ p.1, '[' ∉ name := by
    intro p hp name hname
    obtain ⟨d, hd, rfl⟩ := exists_of_mem_path hp hname
    exact hnames d hd
  -- Two entries of one page name have one path, and so they are one entry.
  refine h.nodup_directory.of_map.map_on fun p hp q hq heq => ?_
  obtain ⟨first, path, hpath, hname⟩ := h.exists_htmlName_eq hroot hp
  obtain ⟨first', path', hpath', hname'⟩ := h.exists_htmlName_eq hroot hq
  have hsame : p.1 = q.1 := by
    rw [hpath, hpath']
    exact bracketed_inj (hpath ▸ hclean p hp) (hpath' ▸ hclean q hq)
      (hname.symm.trans (heq.trans hname'))
  exact List.inj_on_of_nodup_map h.nodup_directory hp hq hsame

end Container

/-! ## Forms as they are stored -/

namespace Storage

variable {s t : Storage} {c : Control}

/-- The container that names lead to, one after the other. -/
def containerAt (s : Storage) : List Text → Except LookupError Storage
  | [] => .ok s
  | name :: path =>
    match s.container name with
    | .ok t => t.containerAt path
    | .error e => .error e

/-- **Names of containers and its own name lead to a control.** -/
def LeadTo (s : Storage) (containers : List Text) (name : Text) (c : Control) : Prop :=
  ∃ t, s.containerAt containers = .ok t ∧ t.control name = .ok c

/-- The page finds what is stored. -/
theorem component?_toContainer (s : Storage) (name : Text) :
    s.toContainer.component? name = (s.component? name).map Stored.toComponent := by
  rw [Container.component?, toContainer, List.find?_map, component?]
  simp only [Function.comp_def, name_toComponent]

theorem control_toContainer (s : Storage) (name : Text) :
    s.toContainer.control name = s.control name := by
  rw [Container.control, control, component?_toContainer]
  rcases s.component? name with _ | (c | t)
  · rfl
  · rfl
  · rw [Option.map_some, Stored.toComponent, toComponent_eq]
    rfl

theorem container_toContainer (s : Storage) (name : Text) :
    s.toContainer.container name = (s.container name).map toContainer := by
  rw [Container.container, container, component?_toContainer]
  rcases s.component? name with _ | (c | t)
  · rfl
  · rfl
  · rw [Option.map_some, Stored.toComponent, toComponent_eq]
    rfl

/-- **The page finds a control at the end of the path that leads to it.** -/
theorem controlAt_toContainer :
    s.toContainer.controlAt (containers ++ [name]) = .ok c ↔ s.LeadTo containers name c := by
  induction containers generalizing s with
  | nil => simp [LeadTo, containerAt, Container.controlAt, control_toContainer]
  | cons outer inner ih =>
    rw [List.cons_append, Container.controlAt_cons_eq_ok, container_toContainer, LeadTo,
      containerAt]
    cases s.container outer with
    | error e => simp [Except.map]
    | ok t => simp [Except.map, ih, LeadTo]

/-- The page sees the controls that are stored. -/
theorem controls_toContainer (s : Storage) (deep : Bool) :
    s.toContainer.controls deep = (s.walk deep).filterMap Stored.control? := by
  rw [Container.controls, ← map_walk, List.filterMap_map]
  congr 1
  funext d
  cases d with
  | control c => rfl
  | container t => exact congrArg Component.control? (toComponent_eq t)

/-- A form that additions made is seen as one. -/
theorem built_toContainer (formName : Text) (as : List Addition) :
    ((root formName).addAll as).toContainer.Built :=
  ⟨formName, as, (ordered_empty formName _).toContainer_addAll as⟩

theorem LeadTo.htmlName_eq (h : s.LeadTo containers name c) (hbuilt : s.toContainer.Built) :
    c.htmlName = pageName containers name := by
  have hat := controlAt_toContainer.2 h
  cases containers with
  | nil =>
    have hname := hbuilt.addressed.htmlName_controlAt hbuilt.htmlName hat
    rwa [bracketed, List.flatMap_nil, List.append_nil] at hname
  | cons outer inner =>
    rw [pageName_cons]
    exact hbuilt.addressed.htmlName_controlAt hbuilt.htmlName hat

theorem LeadTo.mem_directory (h : s.LeadTo containers name c) (hs : s.toContainer.Addressed) :
    (containers ++ [name], c) ∈ s.toContainer.directory :=
  hs.mem_directory_iff.2 (controlAt_toContainer.2 h)

/-- **The controls of a form are those that names lead to.** -/
theorem mem_controls_iff (hs : s.toContainer.Addressed) :
    .control c ∈ s.walk true ↔ ∃ containers name, s.LeadTo containers name c := by
  have hcontrol : .control c ∈ s.walk true ↔ c ∈ s.toContainer.controls true := by
    rw [controls_toContainer, List.mem_filterMap]
    constructor
    · exact fun hc => ⟨_, hc, rfl⟩
    · rintro ⟨d, hd, hcontrol⟩
      cases d with
      | control d =>
        cases hcontrol
        exact hd
      | container t => cases hcontrol
  rw [hcontrol, hs.mem_controls_iff]
  constructor
  · rintro ⟨path, hc⟩
    rcases List.eq_nil_or_concat' path with rfl | ⟨containers, name, rfl⟩
    · simp [Container.controlAt] at hc
    · exact ⟨containers, name, controlAt_toContainer.1 hc⟩
  · rintro ⟨containers, name, h⟩
    exact ⟨_, controlAt_toContainer.2 h⟩

/-- **Whatever is added to a form**, the page name of a control spells the
names that lead to it, all but the first in brackets, and its id spells them
behind that of the form; every control is led to. If no component has an
opening bracket in its name, no two controls at any depth have the same page
name, so that the page name tells which names lead to the control. -/
theorem addAll_pageNames (formName : Text) (as : List Addition) :
    let s := (root formName).addAll as
    (∀ containers name c, s.LeadTo containers name c →
      c.htmlName = pageName containers name ∧ c.htmlId = pageId formName containers name) ∧
    (∀ c, .control c ∈ s.walk true ↔ ∃ containers name, s.LeadTo containers name c) ∧
    ((∀ d ∈ s.walk true, '[' ∉ d.name) →
      (((s.walk true).filterMap Stored.control?).map Control.htmlName).Nodup ∧
        ∀ containers name c containers' name' c', s.LeadTo containers name c →
          s.LeadTo containers' name' c' → c.htmlName = c'.htmlName →
            containers = containers' ∧ name = name') := by
  intro s
  have hbuilt : s.toContainer.Built := built_toContainer formName as
  have hid : s.naming.id = "frm-".toList ++ formName :=
    congrArg Naming.id (address_addAll (root formName) as).2
  refine ⟨fun containers name c hc => ⟨hc.htmlName_eq hbuilt, ?_⟩,
    fun c => mem_controls_iff hbuilt.addressed, fun hnames => ?_⟩
  · rw [hbuilt.addressed.htmlId_controlAt (controlAt_toContainer.2 hc), pageId, ← hid]
    rfl
  · have hnames : ∀ d ∈ s.toContainer.walk true, '[' ∉ d.name := by
      rw [← map_walk, List.forall_mem_map]
      intro d hd
      rw [name_toComponent]
      exact hnames d hd
    have hnodup := hbuilt.addressed.nodup_htmlName hbuilt.htmlName hnames
    refine ⟨?_, fun containers name c containers' name' c' hc hc' heq => ?_⟩
    · rw [← controls_toContainer, ← Container.map_snd_directory, List.map_map]
      exact hnodup
    · have hentry := List.inj_on_of_nodup_map hnodup (hc.mem_directory hbuilt.addressed)
        (hc'.mem_directory hbuilt.addressed) heq
      obtain ⟨hcontainers, hname⟩ := List.append_inj' (congrArg Prod.fst hentry) rfl
      exact ⟨hcontainers, List.singleton_inj.1 hname⟩

/-- A container that took the place of a control holds one of a name that the
form has too, and a container with a third. -/
theorem addAll_pageNames_of_replaced :
    let s := (root ['f']).addAll
      [.control ['a'] .text {}, .control ['b'] .text {},
        .container ['a'] [.control ['b'] .text {}, .container ['c'] [.control ['b'] .hidden {}]]]
    ((s.walk true).filterMap Stored.control?).map Control.htmlName =
      ["a[b]".toList, "a[c][b]".toList, ['b']] ∧
    (((s.walk true).filterMap Stored.control?).map Control.htmlName).Nodup ∧
    pageId ['f'] [['a'], ['c']] ['b'] = "frm-f-a-c-b".toList ∧
    ∃ c, s.LeadTo [['a'], ['c']] ['b'] c ∧ c.htmlName = pageName [['a'], ['c']] ['b'] ∧
      c.htmlId = pageId ['f'] [['a'], ['c']] ['b'] := by
  intro s
  obtain ⟨c, hc⟩ : ∃ c, s.LeadTo [['a'], ['c']] ['b'] c := ⟨_, _, rfl, rfl⟩
  obtain ⟨haddress, -, hdistinct⟩ := addAll_pageNames ['f']
    [.control ['a'] .text {}, .control ['b'] .text {},
      .container ['a'] [.control ['b'] .text {}, .container ['c'] [.control ['b'] .hidden {}]]]
  exact ⟨by decide, (hdistinct (by decide)).1, by decide, c, hc, haddress _ _ c hc⟩

-- With a bracket in a name, two controls may have one page name.
example :
    let s := (root ['f']).addAll
      [.control "a[b]".toList .text {}, .container ['a'] [.control ['b'] .text {}]]
    ((s.walk true).filterMap Stored.control?).map Control.htmlName =
      ["a[b]".toList, "a[b]".toList] := by
  decide

end Storage

end Form

end FormTemplate
