import FormTemplate.Proofs.Form.Marking
import Mathlib.Data.List.Nodup

/-!
# Building forms

A form is built by adding controls and containers to its root, and to each
container in its turn. `Addition` is one such step, and a container that
additions make from an empty root is `Built`. Whatever is added, and
whatever it replaces, the components of a container keep distinct names,
each control has its page name and id from its place
(`Container.Built.addressed`), and none is marked
(`Container.Built.rendered_eq_false`).
-/

namespace FormTemplate

namespace Form

open Markup

/-! ## Additions -/

/-- What the author sets on a control that is added. -/
structure Details where
  /-- What its label says. -/
  caption : Option Text := none
  /-- Its value. -/
  value : Option Text := none
  /-- The rules for its value. -/
  rules : Option Text := none
  /-- The element it is rendered from, if it is not the one of its kind. -/
  prototype : Option Element := none

/-- The control with these details. -/
def Details.apply (d : Details) (c : Control) : Control :=
  { c with
    caption := d.caption
    value := d.value
    rules := d.rules
    prototype := d.prototype.getD c.prototype }

/-- **One addition to a container**: a control, or a container together
with what is added to it. -/
inductive Addition where
  /-- Adds a control. -/
  | control (name : Text) (kind : Kind) (details : Details)
  /-- Adds a container and makes the additions to it. -/
  | container (name : Text) (inner : List Addition)

namespace Container

mutual

/-- The container after an addition. -/
def add (c : Container) : Addition → Container
  | .control name kind d => c.insert (.control (d.apply (c.newControl name kind)))
  | .container name inner => c.insert ((c.newContainer name).addAll inner).toComponent

/-- **The container after additions.** -/
def addAll (c : Container) : List Addition → Container
  | [] => c
  | a :: as => (c.add a).addAll as

end

/-- A root that additions made. -/
def Built (c : Container) : Prop := ∃ name as, c = (root name).addAll as

end Container

/-! ## Names -/

/-- Where names are distinct, a name leads to the one that has it. -/
theorem find?_name_eq_some {α : Type} {nameOf : α → Text} {l : List α}
    (distinct : (l.map nameOf).Nodup) {name : Text} {a : α} :
    l.find? (fun b => nameOf b == name) = some a ↔ a ∈ l ∧ nameOf a = name := by
  constructor
  · intro ha
    exact ⟨List.mem_of_find?_eq_some ha, by simpa using List.find?_some ha⟩
  · rintro ⟨ha, rfl⟩
    obtain ⟨b, hb⟩ : ∃ b, l.find? (fun b => nameOf b == nameOf a) = some b :=
      Option.isSome_iff_exists.1 (List.find?_isSome.2 ⟨a, ha, by simp⟩)
    have hname : nameOf b = nameOf a := by simpa using List.find?_some hb
    rw [hb, List.inj_on_of_nodup_map distinct (List.mem_of_find?_eq_some hb) ha hname]

namespace Component

/-- **An addition appends a new name and keeps the place of an old one.** -/
theorem map_name_insert (c : Component) (cs : List Component) :
    (insert c cs).map name =
      if c.name ∈ cs.map name then cs.map name else cs.map name ++ [c.name] := by
  induction cs with
  | nil => rfl
  | cons d ds ih =>
    rw [insert]
    split
    · next h => simp [h]
    · next h =>
      rw [List.map_cons, ih, List.map_cons]
      by_cases hmem : c.name ∈ ds.map name
      · simp [hmem]
      · simp [hmem, Ne.symm h]

/-- So names stay distinct. -/
theorem nodup_insert {c : Component} {cs : List Component} (h : (cs.map name).Nodup) :
    ((insert c cs).map name).Nodup := by
  rw [map_name_insert]
  split
  · exact h
  · next hnew => exact List.Nodup.append h (List.nodup_singleton _) (by simpa using hnew)

theorem mem_of_mem_insert {c d : Component} {cs : List Component} (h : d ∈ insert c cs) :
    d = c ∨ d ∈ cs := by
  induction cs with
  | nil => exact .inl (List.mem_singleton.1 h)
  | cons e es ih =>
    rw [insert] at h
    split at h
    · exact (List.mem_cons.1 h).imp_right (List.mem_cons_of_mem e)
    · rcases List.mem_cons.1 h with rfl | h
      · exact .inr List.mem_cons_self
      · exact (ih h).imp_right (List.mem_cons_of_mem e)

/-- **A component addressed by its place**: a control has its page name and
id from the container, and a container passes its own naming on to
components of distinct names. -/
inductive Addressed : Naming → Component → Prop
  /-- A control. -/
  | control {n : Naming} {c : Control} (htmlName : c.htmlName = n.htmlName c.name)
      (htmlId : c.htmlId = n.htmlId c.name) : Addressed n (.control c)
  /-- A container. -/
  | container {n : Naming} {name : Text} {cs : List Component}
      (distinct : (cs.map Component.name).Nodup)
      (components : ∀ c ∈ cs, Addressed (n.inside name) c) :
      Addressed n (.container name (n.inside name) cs)

theorem addressed_control_iff {n : Naming} {c : Control} :
    Addressed n (.control c) ↔ c.htmlName = n.htmlName c.name ∧ c.htmlId = n.htmlId c.name := by
  constructor
  · rintro ⟨htmlName, htmlId⟩
    exact ⟨htmlName, htmlId⟩
  · rintro ⟨htmlName, htmlId⟩
    exact .control htmlName htmlId

theorem addressed_container_iff {n m : Naming} {name : Text} {cs : List Component} :
    Addressed n (.container name m cs) ↔
      m = n.inside name ∧ (cs.map Component.name).Nodup ∧ ∀ c ∈ cs, Addressed m c := by
  constructor
  · rintro ⟨⟩
    exact ⟨rfl, ‹_›, ‹_›⟩
  · rintro ⟨rfl, distinct, components⟩
    exact .container distinct components

end Component

namespace Container

/-- **A container whose components are addressed** and have distinct
names. -/
structure Addressed (c : Container) : Prop where
  /-- No name is used twice. -/
  distinct : (c.components.map Component.name).Nodup
  /-- Each component is addressed. -/
  components : ∀ d ∈ c.components, d.Addressed c.naming

theorem Addressed.insert {c : Container} {d : Component} (hc : c.Addressed)
    (hd : d.Addressed c.naming) : (c.insert d).Addressed where
  distinct := Component.nodup_insert hc.distinct
  components e he := by
    rcases Component.mem_of_mem_insert he with rfl | he
    · exact hd
    · exact hc.components e he

mutual

/-- An addition keeps the name of the container, its naming, and its
components addressed. -/
theorem addressed_add (c : Container) : ∀ a, c.Addressed →
    (c.add a).Addressed ∧ (c.add a).name = c.name ∧ (c.add a).naming = c.naming
  | .control name kind d, hc => by
    rw [add]
    exact ⟨hc.insert (.control rfl rfl), rfl, rfl⟩
  | .container name inner, hc => by
    rw [add]
    obtain ⟨hinner, hname, hnaming⟩ := addressed_addAll (c.newContainer name) inner ⟨.nil, nofun⟩
    refine ⟨hc.insert ?_, rfl, rfl⟩
    rw [toComponent, hname, hnaming]
    refine .container hinner.distinct fun d hd => ?_
    have hd := hinner.components d hd
    rwa [hnaming] at hd

theorem addressed_addAll (c : Container) : ∀ as, c.Addressed →
    (c.addAll as).Addressed ∧ (c.addAll as).name = c.name ∧ (c.addAll as).naming = c.naming
  | [], hc => ⟨hc, rfl, rfl⟩
  | a :: as, hc => by
    rw [addAll]
    obtain ⟨ha, hname, hnaming⟩ := addressed_add c a hc
    obtain ⟨has, hname', hnaming'⟩ := addressed_addAll (c.add a) as ha
    exact ⟨has, hname'.trans hname, hnaming'.trans hnaming⟩

end

/-- **Whatever is added, the components of a form are addressed.** -/
theorem Built.addressed {c : Container} (h : c.Built) : c.Addressed := by
  obtain ⟨name, as, rfl⟩ := h
  exact (addressed_addAll (root name) as ⟨.nil, nofun⟩).1

/-- The page knows the components of the root by their own names. -/
theorem Built.htmlName {c : Container} (h : c.Built) (name : Text) :
    c.naming.htmlName name = name := by
  obtain ⟨formName, as, rfl⟩ := h
  rw [(addressed_addAll (root formName) as ⟨.nil, nofun⟩).2.2]
  rfl

end Container

/-! ## Marks -/

namespace Component

theorem map_name_unmarked (cs : List Component) :
    (mapAllControls (Control.mark false) cs).map Component.name = cs.map Component.name := by
  rw [mapAllControls_eq, List.map_map]
  exact List.map_congr_left fun d _ => name_mapControls (Control.mark false) (fun _ => rfl) d

mutual

/-- A component is addressed with its marks or without them. -/
theorem addressed_unmarked {n : Naming} :
    ∀ c, (mapControls (Control.mark false) c).Addressed n ↔ c.Addressed n
  | .control c => by
    rw [mapControls, addressed_control_iff, addressed_control_iff]
    rfl
  | .container name naming cs => by
    rw [mapControls, addressed_container_iff, addressed_container_iff, map_name_unmarked,
      addressedAll_unmarked cs]

theorem addressedAll_unmarked {n : Naming} :
    ∀ cs, (∀ c ∈ mapAllControls (Control.mark false) cs, c.Addressed n) ↔
      ∀ c ∈ cs, c.Addressed n
  | [] => Iff.rfl
  | c :: cs => by
    rw [mapAllControls, List.forall_mem_cons, List.forall_mem_cons, addressed_unmarked c,
      addressedAll_unmarked cs]

end

/-- The walk goes through each component. -/
theorem walkAll_eq (cs : List Component) : walkAll cs = cs.flatMap walk := by
  induction cs with
  | nil => rfl
  | cons c cs ih => rw [walkAll, ih, List.flatMap_cons]

end Component

namespace Container

theorem addressed_unmarked {c : Container} : c.unmarked.Addressed ↔ c.Addressed := by
  have hnames := Component.map_name_unmarked c.components
  constructor
  · intro h
    exact ⟨hnames ▸ h.distinct, (Component.addressedAll_unmarked _).1 h.components⟩
  · intro h
    exact ⟨hnames.symm ▸ h.distinct, (Component.addressedAll_unmarked _).2 h.components⟩

/-- **A container stays addressed when only marks change.** -/
theorem Addressed.of_unmarked {c d : Container} (hc : c.Addressed)
    (h : d.unmarked = c.unmarked) : d.Addressed :=
  addressed_unmarked.1 (h ▸ addressed_unmarked.2 hc)

/-- What a container holds at any depth after an addition was added or held
before. -/
theorem mem_controls_insert {c : Container} {d : Component} {e : Control}
    (h : e ∈ (c.insert d).controls true) :
    .control e ∈ d.walk ∨ e ∈ c.controls true := by
  simp only [controls, walk, if_true, Component.walkAll_eq, List.mem_filterMap,
    List.mem_flatMap] at h ⊢
  obtain ⟨x, ⟨y, hy, hx⟩, he⟩ := h
  cases x with
  | container name naming cs => cases he
  | control x =>
    cases he
    rcases Component.mem_of_mem_insert hy with rfl | hy
    · exact .inl hx
    · exact .inr ⟨_, ⟨y, hy, hx⟩, rfl⟩

mutual

/-- What holds of every control when it is added holds of all. -/
theorem forall_controls_add {P : Control → Prop}
    (hnew : ∀ name kind htmlName htmlId (d : Details),
      P (d.apply (.create name kind htmlName htmlId)))
    (c : Container) : ∀ a, (∀ e ∈ c.controls true, P e) → ∀ e ∈ (c.add a).controls true, P e
  | .control name kind d, hc => by
    rw [add]
    intro e he
    rcases mem_controls_insert he with he | he
    · rw [Component.walk, List.mem_singleton] at he
      cases he
      exact hnew ..
    · exact hc e he
  | .container name inner, hc => by
    rw [add]
    intro e he
    have hinner := forall_controls_addAll hnew (c.newContainer name) inner nofun
    rcases mem_controls_insert he with he | he
    · rw [toComponent, Component.walk, List.mem_cons] at he
      refine hinner e (List.mem_filterMap.2 ⟨_, he.resolve_left nofun, rfl⟩)
    · exact hc e he

theorem forall_controls_addAll {P : Control → Prop}
    (hnew : ∀ name kind htmlName htmlId (d : Details),
      P (d.apply (.create name kind htmlName htmlId)))
    (c : Container) : ∀ as, (∀ e ∈ c.controls true, P e) → ∀ e ∈ (c.addAll as).controls true, P e
  | [], hc => hc
  | a :: as, hc =>
    forall_controls_addAll hnew (c.add a) as (forall_controls_add hnew c a hc)

end

/-- **No control of a form that was only built is marked.** -/
theorem Built.rendered_eq_false {c : Container} (h : c.Built) :
    ∀ e ∈ c.controls true, e.rendered = false := by
  obtain ⟨name, as, rfl⟩ := h
  exact forall_controls_addAll (fun _ _ _ _ _ => rfl) (root name) as nofun

end Container

end Form

end FormTemplate
