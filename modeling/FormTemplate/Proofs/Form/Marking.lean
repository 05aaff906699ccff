import FormTemplate.Render.Context
import FormTemplate.Render.FormTags

/-!
# Marking controls

Rendering a page marks the controls that it shows. `Registry.unmarked`
takes all marks away: what is left is what rendering can not change. A form
or a container is found at a place exactly when it is found there without
the marks (`form_unmarked`, `containerAt_unmarked`), and neither the
mark of a control nor the end of a form changes more than marks.
-/

namespace FormTemplate

namespace Form

namespace Component

/-- Changing every control of a list is changing each component. -/
theorem mapAllControls_eq (f : Control → Control) (cs : List Component) :
    mapAllControls f cs = cs.map (mapControls f) := by
  induction cs with
  | nil => rfl
  | cons c cs ih => rw [mapAllControls, ih, List.map_cons]

/-- A change of controls that keeps their names keeps all names. -/
theorem name_mapControls (f : Control → Control) (hf : ∀ c, (f c).name = c.name)
    (c : Component) : (mapControls f c).name = c.name := by
  cases c with
  | control c => exact hf c
  | container name naming cs => rfl

mutual

/-- Changing every control twice is changing it once. -/
theorem mapControls_mapControls (f g : Control → Control) :
    ∀ c, mapControls f (mapControls g c) = mapControls (f ∘ g) c
  | .control c => rfl
  | .container name naming cs => by
    rw [mapControls, mapControls, mapControls, mapAllControls_mapAllControls f g cs]

theorem mapAllControls_mapAllControls (f g : Control → Control) :
    ∀ cs, mapAllControls f (mapAllControls g cs) = mapAllControls (f ∘ g) cs
  | [] => rfl
  | c :: cs => by
    rw [mapAllControls, mapAllControls, mapAllControls, mapControls_mapControls f g c,
      mapAllControls_mapAllControls f g cs]

end

/-- A change of the first component of a name that another change hides is
not seen. -/
theorem mapAllControls_modifyFirst {f : Control → Control} {name : Text}
    {g : Component → Component} (hg : ∀ c, mapControls f (g c) = mapControls f c)
    (cs : List Component) :
    mapAllControls f (modifyFirst name g cs) = mapAllControls f cs := by
  induction cs with
  | nil => rfl
  | cons c cs ih =>
    rw [modifyFirst]
    split
    · rw [mapAllControls, mapAllControls, hg]
    · rw [mapAllControls, mapAllControls, ih]

/-- **A change of one control that another change hides is not seen.** -/
theorem mapAllControls_modifyAt {f g : Control → Control} (hg : ∀ c, f (g c) = f c)
    (path : List Text) (cs : List Component) :
    mapAllControls f (modifyAt g path cs) = mapAllControls f cs := by
  induction path generalizing cs with
  | nil => rfl
  | cons name path ih =>
    cases path with
    | nil =>
      rw [modifyAt]
      refine mapAllControls_modifyFirst (fun c => ?_) cs
      cases c with
      | control c => exact congrArg Component.control (hg c)
      | container n naming ds => rfl
    | cons next path =>
      rw [modifyAt]
      · refine mapAllControls_modifyFirst (fun c => ?_) cs
        cases c with
        | control c => rfl
        | container n naming ds =>
          change mapControls f (.container n naming _) = _
          rw [mapControls, mapControls, ih]
      · simp

end Component

namespace Container

/-- A container with all marks taken away. -/
def unmarked (c : Container) : Container := c.mapControls (Control.mark false)

theorem component?_unmarked (c : Container) (name : Text) :
    c.unmarked.component? name =
      (c.component? name).map (Component.mapControls (Control.mark false)) := by
  rw [component?, component?, unmarked, mapControls, Component.mapAllControls_eq, List.find?_map]
  congr 2
  funext d
  have hname := Component.name_mapControls (Control.mark false) (fun _ => rfl) d
  rw [Function.comp_apply, hname]

theorem container_unmarked (c : Container) (name : Text) :
    c.unmarked.container name = (c.container name).map unmarked := by
  rw [container, container, component?_unmarked]
  cases c.component? name with
  | none => rfl
  | some d => cases d <;> rfl

/-- **A container is found without the marks where it is found.** -/
theorem containerAt_unmarked (c : Container) (path : List Text) :
    c.unmarked.containerAt path = (c.containerAt path).map unmarked := by
  induction path generalizing c with
  | nil => rfl
  | cons name path ih =>
    rw [containerAt, containerAt, container_unmarked]
    cases c.container name with
    | error e => rfl
    | ok d => exact ih d

theorem unmarked_modifyControl (c : Container) (path : List Text) (shown : Bool) :
    (c.modifyControl path (Control.mark shown)).unmarked = c.unmarked := by
  have hmark : ∀ d : Control, Control.mark false (Control.mark shown d) = Control.mark false d :=
    fun _ => rfl
  rw [unmarked, unmarked, modifyControl, mapControls, mapControls,
    Component.mapAllControls_modifyAt hmark]

/-- The end of a form changes only marks. -/
theorem unmarked_afterEnd (c : Container) :
    (c.mapControls Control.afterEnd).unmarked = c.unmarked := by
  have hmark : Control.mark false ∘ Control.afterEnd = Control.mark false := by
    funext d
    rw [Function.comp_apply, Control.afterEnd]
    split <;> rfl
  rw [unmarked, unmarked, mapControls, mapControls, mapControls,
    Component.mapAllControls_mapAllControls, hmark]

end Container

/-- A form with all marks taken away. -/
def unmarked (f : Form) : Form := f.modifyRoot Container.unmarked

theorem unmarked_afterEnd (f : Form) : f.afterEnd.unmarked = f.unmarked := by
  rw [unmarked, unmarked, afterEnd, modifyRoot, modifyRoot, modifyRoot,
    Container.unmarked_afterEnd]

end Form

namespace Registry

/-- **The forms of a page with all marks taken away.** -/
def unmarked (r : Registry) : Registry := r.map Form.unmarked

theorem unmarked_modify {name : Text} {g : Form → Form} (hg : ∀ f, (g f).unmarked = f.unmarked)
    (r : Registry) : (r.modify name g).unmarked = r.unmarked := by
  induction r with
  | nil => rfl
  | cons f r ih =>
    rw [modify]
    split
    · rw [unmarked, unmarked, List.map_cons, List.map_cons, hg]
    · rw [unmarked, unmarked, List.map_cons, List.map_cons]
      exact congrArg _ ih

/-- **A form is found without the marks when it is found.** -/
theorem form_unmarked (r : Registry) (name : Text) :
    r.unmarked.form name = (r.form name).map Form.unmarked := by
  rw [form, form, unmarked, List.find?_map]
  have hname : ((fun f : Form => f.name == name) ∘ Form.unmarked) = fun f => f.name == name := rfl
  rw [hname]
  cases List.find? (fun f : Form => f.name == name) r <;> rfl

end Registry

namespace Render

open Form

theorem unmarked_markAt (p : Place) (shown : Bool) (r : Registry) :
    (markAt p shown r).unmarked = r.unmarked := by
  refine Registry.unmarked_modify (fun f => ?_) r
  rw [Form.unmarked, Form.unmarked, Form.modifyRoot, Form.modifyRoot, Form.modifyRoot]
  rw [Container.unmarked_modifyControl]

theorem ofLookup_eq_ok {α : Type} {x : Except LookupError α} {a : α} :
    ofLookup x = .ok a ↔ x = .ok a := by
  cases x <;> simp [ofLookup]

/-- A form is found in two registries alike but for marks, or in neither. -/
theorem exists_formNamed_of_unmarked {r r' : Registry} (h : r.unmarked = r'.unmarked)
    {name : Text} {f : Form} (hf : formNamed r name = .ok f) :
    ∃ f', formNamed r' name = .ok f' ∧ f'.unmarked = f.unmarked := by
  have hforms : (r.form name).map Form.unmarked = (r'.form name).map Form.unmarked := by
    rw [← Registry.form_unmarked, ← Registry.form_unmarked, h]
  rw [ofLookup_eq_ok.1 hf] at hforms
  cases hr' : r'.form name with
  | error e => rw [hr'] at hforms; cases hforms
  | ok f' =>
    rw [hr'] at hforms
    exact ⟨f', ofLookup_eq_ok.2 hr', (Except.ok.inj hforms).symm⟩

/-- A container is found at a path from the root of a form. -/
theorem containerAt_eq_ok {r : Registry} {p : Place} {c : Container} :
    containerAt r p = .ok c ↔
      ∃ f, formNamed r p.form = .ok f ∧ f.root.containerAt p.path = .ok c := by
  rw [containerAt]
  cases formNamed r p.form with
  | error e => exact iff_of_false nofun (by rintro ⟨f, hf, -⟩; cases hf)
  | ok f =>
    refine ofLookup_eq_ok.trans ⟨fun h => ⟨f, rfl, h⟩, ?_⟩
    rintro ⟨f', hf, h⟩
    cases hf
    exact h

theorem exists_containerAt_of_unmarked {r r' : Registry} (h : r.unmarked = r'.unmarked)
    {p : Place} {c : Container} (hc : containerAt r p = .ok c) :
    ∃ c', containerAt r' p = .ok c' := by
  obtain ⟨f, hf, hc⟩ := containerAt_eq_ok.1 hc
  obtain ⟨f', hf', hunmarked⟩ := exists_formNamed_of_unmarked h hf
  have hroot : (f'.root.containerAt p.path).map Container.unmarked =
      (f.root.containerAt p.path).map Container.unmarked := by
    rw [← Container.containerAt_unmarked, ← Container.containerAt_unmarked]
    exact congrArg (fun g : Form => g.root.containerAt p.path) hunmarked
  rw [hc] at hroot
  cases hc' : f'.root.containerAt p.path with
  | error e => rw [hc'] at hroot; cases hroot
  | ok c' => exact ⟨c', containerAt_eq_ok.2 ⟨f', hf', hc'⟩⟩

end Render

end FormTemplate
