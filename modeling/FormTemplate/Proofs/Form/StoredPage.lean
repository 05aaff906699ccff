import FormTemplate.Proofs.Form.Additions

/-!
# What the page sees of a storage

The page sees a storage as a container, `Storage.toContainer`. It sees an
insertion as an insertion (`Ordered.toContainer_insert`), additions as
additions (`Ordered.toContainer_addAll`), a walk as a walk (`map_walk`), and
a change of controls as that change (`toContainer_mapControls`,
`Sound.modifyControl`).
-/

namespace FormTemplate

namespace Form

/-! ## Walking -/

/-- The component followed, if it is a container, by all it holds. -/
def Stored.branch : Stored → List Stored
  | .control c => [.control c]
  | .container s => .container s :: s.contents

namespace Storage

variable {s t : Storage} {c d : Stored} {name : Text}

theorem branches_eq (ss : List Storage) :
    branches ss = ss.map fun s => Stored.branch (.container s) := by
  induction ss with
  | nil => rfl
  | cons s ss ih => rw [branches, ih, List.map_cons, Stored.branch]

/-- **A walk goes through the components**, and each container is directly
followed by all it holds. -/
theorem contents_eq (s : Storage) : s.contents = s.components.flatMap Stored.branch := by
  obtain ⟨name, naming, controls, containers, order⟩ := s
  rw [contents, branches_eq, List.flatMap_def, components, ← Slot.items_map]
  congr 2
  funext k
  cases k <;> simp [shelves, Stored.branch, Function.comp_def]

/-! ## What the page sees -/

theorem toComponents_eq (ss : List Storage) : toComponents ss = ss.map toComponent := by
  induction ss with
  | nil => rfl
  | cons s ss ih => rw [toComponents, ih, List.map_cons]

/-- A container inside another is seen as a component of it. -/
theorem toComponent_eq (s : Storage) : s.toComponent = s.toContainer.toComponent := by
  obtain ⟨name, naming, controls, containers, order⟩ := s
  rw [toComponent, toComponents_eq, toContainer, Container.toComponent, components,
    ← Slot.items_map]
  congr 2
  funext k
  cases k <;> simp [shelves, Stored.toComponent, Function.comp_def]

theorem name_toComponent (c : Stored) : c.toComponent.name = c.name := by
  cases c with
  | control c => rfl
  | container s => exact congrArg Component.name (toComponent_eq s)

end Storage

namespace Component

variable {c d : Component} {before after : List Component}

/-- A component of a new name goes to the end. -/
theorem insert_of_new {cs : List Component} (h : ∀ d ∈ cs, d.name ≠ c.name) :
    insert c cs = cs ++ [c] := by
  induction cs with
  | nil => rfl
  | cons d cs ih =>
    obtain ⟨hd, hcs⟩ := List.forall_mem_cons.1 h
    rw [insert, if_neg hd, ih hcs, List.cons_append]

/-- A component of an old name takes the place of the old one. -/
theorem insert_of_old (hbefore : ∀ e ∈ before, e.name ≠ c.name) (hd : d.name = c.name) :
    insert c (before ++ d :: after) = before ++ c :: after := by
  induction before with
  | nil => exact if_pos hd
  | cons e before ih =>
    obtain ⟨he, hbefore⟩ := List.forall_mem_cons.1 hbefore
    rw [List.cons_append, insert, if_neg he, ih hbefore, List.cons_append]

/-- What is changed is inserted again. -/
theorem modifyFirst_eq_insert {name : Text} {f : Component → Component} {cs : List Component}
    (distinct : (cs.map Component.name).Nodup) (hd : d ∈ cs) (hname : d.name = name)
    (hf : (f d).name = name) : modifyFirst name f cs = insert (f d) cs := by
  induction cs with
  | nil => cases hd
  | cons e cs ih =>
    obtain ⟨hnew, distinct⟩ := List.nodup_cons.1 distinct
    rw [modifyFirst, insert, hf]
    rcases List.mem_cons.1 hd with rfl | hd
    · rw [if_pos hname, if_pos hname]
    · have hne : e.name ≠ name := fun heq =>
        hnew (List.mem_map.2 ⟨d, hd, hname.trans heq.symm⟩)
      rw [if_neg hne, if_neg hne, ih distinct hd]

theorem modifyFirst_eq_self {name : Text} {f : Component → Component} {cs : List Component}
    (h : ∀ d ∈ cs, d.name = name → f d = d) : modifyFirst name f cs = cs := by
  induction cs with
  | nil => rfl
  | cons e cs ih =>
    obtain ⟨he, hcs⟩ := List.forall_mem_cons.1 h
    rw [modifyFirst]
    split
    · next hname => rw [he hname]
    · rw [ih hcs]

end Component

namespace Storage

variable {s t : Storage} {c d : Stored} {name : Text}

/-- **The page sees an insertion as one.** -/
theorem Ordered.toContainer_insert (h : s.Ordered) (c : Stored) :
    (s.insert c).1.toContainer = s.toContainer.insert c.toComponent := by
  have hcomponents : (s.insert c).1.components.map Stored.toComponent =
      Component.insert c.toComponent (s.components.map Stored.toComponent) := by
    by_cases hexists : ∃ d ∈ s.components, d.name = c.name
    · obtain ⟨d, hd, hname⟩ := hexists
      obtain ⟨before, after, hold⟩ := List.append_of_mem hd
      have hdistinct := h.distinct
      rw [hold, List.map_append, List.map_cons, List.nodup_middle, List.nodup_cons] at hdistinct
      have hbefore : ∀ e ∈ before, e.name ≠ c.name := fun e he heq =>
        hdistinct.1 (List.mem_append_left _ (List.mem_map.2 ⟨e, he, heq.trans hname.symm⟩))
      rw [h.components_insert_of_old hold hname, hold, List.map_append, List.map_append,
        List.map_cons, List.map_cons, Component.insert_of_old]
      · simpa [name_toComponent] using hbefore
      · rw [name_toComponent, name_toComponent, hname]
    · have hnew : ∀ d ∈ s.components, d.name ≠ c.name := fun d hd hname => hexists ⟨d, hd, hname⟩
      rw [h.components_insert_of_new hnew, Component.insert_of_new, List.map_append]
      · rfl
      · simpa [name_toComponent] using hnew
  rw [toContainer, hcomponents, (address_insert s c).1, (address_insert s c).2]
  rfl

/-- The page sees the names under which components are stored. -/
theorem map_name_toContainer (s : Storage) :
    s.toContainer.components.map Component.name = s.components.map Stored.name := by
  have hname : Component.name ∘ Stored.toComponent = Stored.name := funext name_toComponent
  rw [toContainer, List.map_map, hname]

theorem toContainer_newContainer (s : Storage) (name : Text) :
    (s.newContainer name).toContainer = s.toContainer.newContainer name := rfl

mutual

/-- **And an addition as an addition.** -/
theorem Ordered.toContainer_add {s : Storage} (h : s.Ordered) :
    ∀ a, (s.add a).toContainer = s.toContainer.add a
  | .control name kind d => by
    rw [h.add_eq, h.toContainer_insert, Container.add]
    rfl
  | .container name inner => by
    have hinner : ((s.newContainer name).addAll inner).toContainer =
        (s.newContainer name).toContainer.addAll inner :=
      Ordered.toContainer_addAll (ordered_empty name _) inner
    rw [h.add_eq, h.toContainer_insert, Container.add, ← toContainer_newContainer, ← hinner]
    exact congrArg _ (toComponent_eq _)

theorem Ordered.toContainer_addAll {s : Storage} (h : s.Ordered) :
    ∀ as, (s.addAll as).toContainer = s.toContainer.addAll as
  | [] => rfl
  | a :: as => by
    rw [Storage.addAll, Container.addAll, ← Ordered.toContainer_add h a]
    exact Ordered.toContainer_addAll (h.add a) as

end

mutual

/-- **The page sees a walk as a walk.** -/
theorem map_contents :
    ∀ s : Storage, s.contents.map Stored.toComponent = Component.walkAll s.toContainer.components
  | ⟨name, naming, controls, containers, order⟩ => by
    rw [contents, Component.walkAll_eq, List.flatMap_def, toContainer, components, List.map_flatten,
      ← Slot.items_map, ← Slot.items_map, ← Slot.items_map]
    congr 2
    funext k
    cases k with
    | controls => simp [shelves, Function.comp_def, Stored.toComponent, Component.walk]
    | containers =>
      rw [map_branches containers, toComponents_eq]
      simp [shelves, Function.comp_def, Stored.toComponent]

theorem map_branches :
    ∀ ss : List Storage, (branches ss).map (List.map Stored.toComponent) =
      (toComponents ss).map Component.walk
  | [] => rfl
  | s :: ss => by
    rw [branches, List.map_cons, List.map_cons, map_contents s, map_branches ss, toComponents,
      List.map_cons, toComponent_eq s, Container.toComponent, Component.walk, Stored.toComponent,
      toComponent_eq s, Container.toComponent]

end

theorem map_walk (s : Storage) (deep : Bool) :
    (s.walk deep).map Stored.toComponent = s.toContainer.walk deep := by
  cases deep with
  | false => rfl
  | true => exact map_contents s

/-! ## Changes of controls -/

mutual

/-- The page sees a change of all controls as one. -/
theorem toComponent_mapControls (f : Control → Control) :
    ∀ s : Storage, (mapControls f s).toComponent = Component.mapControls f s.toComponent
  | ⟨name, naming, controls, containers, order⟩ => by
    rw [mapControls, toComponent, toComponent, Component.mapControls, Component.mapAllControls_eq,
      ← Slot.items_map]
    congr 2
    funext k
    cases k with
    | controls => simp [Function.comp_def, Component.mapControls]
    | containers => exact toComponents_mapAllControls f containers

theorem toComponents_mapAllControls (f : Control → Control) :
    ∀ ss : List Storage,
      toComponents (mapAllControls f ss) = (toComponents ss).map (Component.mapControls f)
  | [] => rfl
  | s :: ss => by
    rw [mapAllControls, toComponents, toComponents, List.map_cons, toComponent_mapControls f s,
      toComponents_mapAllControls f ss]

end

theorem toContainer_mapControls (f : Control → Control) (s : Storage) :
    (s.mapControls f).toContainer = s.toContainer.mapControls f := by
  have h := toComponent_mapControls f s
  rw [toComponent_eq, toComponent_eq, Container.toComponent, Container.toComponent,
    Component.mapControls] at h
  injection h with hname hnaming hcomponents
  change _ = Container.mk s.toContainer.name s.toContainer.naming _
  rw [← hname, ← hnaming, ← hcomponents]

theorem mapAllControls_eq (f : Control → Control) (ss : List Storage) :
    mapAllControls f ss = ss.map (mapControls f) := by
  induction ss with
  | nil => rfl
  | cons s ss ih => rw [mapAllControls, ih, List.map_cons]

/-- A storage stays in order when its controls change but keep their
names. -/
theorem Sound.mapControls {f : Control → Control} (hf : ∀ c, (f c).name = c.name)
    (h : s.Sound) : (mapControls f s).Sound := by
  induction h with
  | @intro s ordered _ ih =>
    have horder : (Storage.mapControls f s).order = s.order := by
      obtain ⟨name, naming, controls, containers, order⟩ := s
      rfl
    have hcontainers : (Storage.mapControls f s).containers =
        s.containers.map (Storage.mapControls f) := by
      obtain ⟨name, naming, controls, containers, order⟩ := s
      exact mapAllControls_eq f containers
    have hlength : ∀ k, ((Storage.mapControls f s).shelves k).length = (s.shelves k).length := by
      obtain ⟨name, naming, controls, containers, order⟩ := s
      rintro (_ | _) <;> simp [Storage.mapControls, shelves, mapAllControls_eq]
    refine .intro ⟨⟨horder ▸ ordered.lists.nodup, fun slot => ?_⟩, ?_⟩ fun t ht => ?_
    · rw [horder, hlength]
      exact ordered.lists.mem_iff slot
    · have hnames : (Component.mapAllControls f s.toContainer.components).map Component.name =
          s.toContainer.components.map Component.name := by
        rw [Component.mapAllControls_eq, List.map_map]
        exact List.map_congr_left fun d _ => Component.name_mapControls f hf d
      rw [← map_name_toContainer, toContainer_mapControls, Container.mapControls, hnames,
        map_name_toContainer]
      exact ordered.distinct
    · rw [hcontainers] at ht
      obtain ⟨u, hu, rfl⟩ := List.mem_map.1 ht
      exact ih u hu

/-- **A component changed where it stands** is inserted as it is after the
change, if it keeps its sort and name. -/
theorem Ordered.changeNamed_cases {f : Stored → Stored} (h : s.Ordered)
    (hf : ∀ c, (f c).shelf = c.shelf ∧ (f c).name = c.name) (name : Text) :
    (s.changeNamed name f = s ∧ ∀ d ∈ s.components, d.name ≠ name) ∨
      ∃ d ∈ s.components, d.name = name ∧ s.changeNamed name f = (s.insert (f d)).1 := by
  rw [changeNamed]
  rcases h.existing?_cases name with ⟨hnone, hnew⟩ | ⟨i, slot, d, hsome, -, hd, hitem, rfl⟩
  · rw [hnone]
    exact .inl ⟨rfl, hnew⟩
  · have hslot : slot.shelf = (f d).shelf :=
      (shelf_of_mem_shelves (List.mem_of_getElem? hitem)).symm.trans (hf d).1.symm
    simp only [hsome, hitem]
    refine .inr ⟨d, List.mem_of_getElem? hd, rfl, ?_⟩
    rw [insert_of_same (by rwa [(hf d).2]) hslot]

/-- **The page sees a change of what is stored** as the same change of what
it sees, and the storage stays in order at every depth. -/
theorem Sound.changeNamed {f : Stored → Stored} {g : Component → Component} (h : s.Sound)
    (hf : ∀ c, (f c).shelf = c.shelf ∧ (f c).name = c.name)
    (hsound : ∀ d ∈ s.components, ∀ t, f d = .container t → t.Sound)
    (hg : ∀ d ∈ s.components, (f d).toComponent = g d.toComponent) (name : Text) :
    (s.changeNamed name f).Sound ∧ (s.changeNamed name f).toContainer =
      { s.toContainer with
        components := Component.modifyFirst name g s.toContainer.components } := by
  rcases h.ordered.changeNamed_cases hf name with ⟨hsame, hnew⟩ | ⟨d, hd, rfl, hinsert⟩
  · have hpage : ∀ d ∈ s.toContainer.components, d.name = name → g d = d := by
      intro e he hname
      obtain ⟨d, hd, rfl⟩ := List.mem_map.1 he
      exact absurd ((name_toComponent d).symm.trans hname) (hnew d hd)
    rw [hsame, Component.modifyFirst_eq_self hpage]
    exact ⟨h, rfl⟩
  · have hname : (g d.toComponent).name = d.name := by
      rw [← hg d hd, name_toComponent, (hf d).2]
    have hdistinct : (s.toContainer.components.map Component.name).Nodup := by
      rw [map_name_toContainer]
      exact h.ordered.distinct
    rw [hinsert, h.ordered.toContainer_insert, hg d hd,
      Component.modifyFirst_eq_insert hdistinct (List.mem_map_of_mem hd) (name_toComponent d) hname]
    exact ⟨h.insert (hsound d hd), rfl⟩

theorem name_changeNamed (f : Stored → Stored) (name : Text) (s : Storage) :
    (s.changeNamed name f).name = s.name := by
  rw [changeNamed]
  split
  · split
    · exact (address_replace ..).1
    · rfl
  · rfl

theorem name_modifyControl (f : Control → Control) (path : List Text) (s : Storage) :
    (modifyControl f path s).name = s.name := by
  match path with
  | [] => rfl
  | [name] => exact name_changeNamed ..
  | name :: next :: path => exact name_changeNamed ..

/-- So the page sees marks that are made on what is stored. -/
theorem Sound.modifyControl {f : Control → Control} (hf : ∀ c, (f c).name = c.name)
    (h : s.Sound) (path : List Text) :
    (modifyControl f path s).Sound ∧
      (modifyControl f path s).toContainer = s.toContainer.modifyControl path f := by
  induction path generalizing s with
  | nil => exact ⟨h, rfl⟩
  | cons name path ih =>
    have hsound : ∀ t, .container t ∈ s.components → t.Sound := fun t ht =>
      h.containers t (h.ordered.container_mem_components.1 ht)
    cases path with
    | nil =>
      refine h.changeNamed ?_ ?_ ?_ name
      · rintro (c | t)
        · exact ⟨rfl, hf c⟩
        · exact ⟨rfl, rfl⟩
      · rintro (c | t) ht u hu
        · cases hu
        · cases hu
          exact hsound t ht
      · rintro (c | t) -
        · rfl
        · rw [Stored.toComponent, toComponent_eq]
          rfl
    | cons next path =>
      refine h.changeNamed ?_ ?_ ?_ name
      · rintro (c | t)
        · exact ⟨rfl, rfl⟩
        · exact ⟨rfl, name_modifyControl f (next :: path) t⟩
      · rintro (c | t) ht u hu
        · cases hu
        · cases hu
          exact (ih (hsound t ht)).1
      · rintro (c | t) ht
        · rfl
        · rw [Stored.toComponent, Stored.toComponent, toComponent_eq, toComponent_eq t,
            (ih (hsound t ht)).2]
          rfl

end Storage

end Form

end FormTemplate
